/-
PropSchema.Schema.Json — schemas as JSON.

A schema is an object with its owner, module and properties, a property an
object with its fields; constants are given by name. Writing leaves out a key
that is not declared and an enumeration without text, and reading takes them as
absent and empty, so that no difference between schemas is lost. Reading takes
members in any order and ignores those it does not know, but refuses a known one
that occurs twice.
-/
import PropSchema.Json.Reader
import PropSchema.Schema.Basic

namespace PropSchema

/-! ## Writing -/

/-- A constant as JSON. -/
def Vocabulary.toJson {α : Type} [Vocabulary α] (c : α) : Json :=
  .ofText (Vocabulary.name c)

namespace Property

/-- The members that a property's JSON has, in order. -/
def jsonMembers (p : Property) : List (String × Json) :=
  [("api_name", .ofText p.apiName), ("type", Vocabulary.toJson p.type),
    ("access", Vocabulary.toJson p.access), ("scope", Vocabulary.toJson p.scope)] ++
  (match p.propName with
    | some name => [("prop_name", .ofText name)]
    | none => []) ++
  (if p.enumValues = "" then [] else [("enum_values", .ofText p.enumValues)]) ++
  [("integer_as_bool", .bool p.integerAsBool)]

/-- A property as JSON. -/
def toJson (p : Property) : Json :=
  .ofMembers p.jsonMembers

end Property

/-- A schema as JSON. -/
def Schema.toJson (s : Schema) : Json :=
  .ofMembers [("owner", Vocabulary.toJson s.owner), ("module", .ofText s.modulePath),
    ("props", .array (s.props.map Property.toJson))]

/-! ## Reading -/

/-- The value of the member with the given name, `some none` where there is no
such member, and `none` where there is more than one. -/
def uniqueMember? (name : String) (members : List (String × Json)) : Option (Option Json) :=
  match members.filter fun m => m.1 = name with
  | [] => some none
  | [m] => some (some m.2)
  | _ => none

/-- The value of a member that has to occur once, read by the given reader. -/
def requiredMember? {α : Type} (name : String) (read : Json → Option α)
    (members : List (String × Json)) : Option α :=
  match uniqueMember? name members with
  | some (some value) => read value
  | _ => none

/-- The value of a member that may be missing, read by the given reader. -/
def memberOr? {α : Type} (name : String) (default : α) (read : Json → Option α)
    (members : List (String × Json)) : Option α :=
  match uniqueMember? name members with
  | some (some value) => read value
  | some none => some default
  | none => none

/-- The constant that JSON names. -/
def Vocabulary.ofJson? {α : Type} [Vocabulary α] (j : Json) : Option α :=
  j.text?.bind Vocabulary.ofName?

/-- The text that JSON is, absent for `null`. -/
def optionalText? : Json → Option (Option String)
  | .null => some none
  | j => j.text?.map some

/-- The property that JSON describes. -/
def Property.ofJson? (j : Json) : Option Property := do
  let members ← j.members?
  let apiName ← requiredMember? "api_name" Json.text? members
  let type ← requiredMember? "type" Vocabulary.ofJson? members
  let access ← requiredMember? "access" Vocabulary.ofJson? members
  let scope ← requiredMember? "scope" Vocabulary.ofJson? members
  let propName ← memberOr? "prop_name" none optionalText? members
  let enumValues ← memberOr? "enum_values" "" Json.text? members
  let integerAsBool ← memberOr? "integer_as_bool" false Json.bool? members
  return { apiName, type, access, scope, propName, enumValues, integerAsBool }

/-- The schema that JSON describes. -/
def Schema.ofJson? (j : Json) : Option Schema := do
  let members ← j.members?
  let owner ← requiredMember? "owner" Vocabulary.ofJson? members
  let modulePath ← requiredMember? "module" Json.text? members
  let items ← requiredMember? "props" Json.items? members
  let props ← items.mapM Property.ofJson?
  return { owner, modulePath, props }

end PropSchema
