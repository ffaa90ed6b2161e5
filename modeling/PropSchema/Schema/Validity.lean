/-
PropSchema.Schema.Validity — which schemas are valid, and what is wrong with
the others.

Every rule is a function that lists its own violations, and the rules are
concatenated in a fixed order: the module path, the presence of properties,
each property in turn, and last the uniqueness of identifiers. A schema is
valid if the list is empty; otherwise its first element is the one reported,
so the order of the rules is the order of precedence between several faults.
-/
import PropSchema.Schema.Name

namespace PropSchema

/-- A broken rule and what breaks it. -/
inductive Violation where
  | shortPath (path : String)
  | badSegment (segment : String)
  | noProperties
  | badApiName (apiName : String)
  | badSymbol (symbol apiName : String)
  | repeatedSymbol (symbol apiName : String)
  | badKey (key : String)
  | foreignKey (owner : Owner) (key : String)
  | writeOnceKey (key : String)
  | notBoolean (key : String)
  | repeatedApiName (apiName : String)
  deriving DecidableEq, Repr

namespace Violation

/-- A text in double quotes, as it is. -/
def quoted (text : String) : String :=
  "\"" ++ text ++ "\""

/-- The wording of a violation. -/
def message : Violation → String
  | .shortPath path => "Invalid module name " ++ quoted path
  | .badSegment segment => "Invalid name " ++ quoted segment ++ " in module"
  | .noProperties => "There is no defined property"
  | .badApiName apiName => "Invalid API name " ++ quoted apiName
  | .badSymbol symbol apiName => "Invalid enum value " ++ quoted symbol ++ " for API " ++ quoted apiName
  | .repeatedSymbol symbol apiName =>
    "Duplicated enum value " ++ quoted symbol ++ " for API " ++ quoted apiName
  | .badKey key => "Invalid prop name " ++ quoted key
  | .foreignKey .platform key =>
    "Prop " ++ quoted key ++ " owned by platform cannot have vendor. or odm. namespace"
  | .foreignKey .vendor key =>
    "Prop " ++ quoted key ++ " owned by vendor should have vendor. namespace"
  | .foreignKey .odm key => "Prop " ++ quoted key ++ " owned by odm should have odm. namespace"
  | .writeOnceKey key => "Prop " ++ quoted key ++ " is ReadWrite and also have prefix \"ro.\""
  | .notBoolean key => "Prop " ++ quoted key ++ " has integer_as_bool: true, but not a boolean"
  | .repeatedApiName apiName => "Duplicated API name " ++ quoted apiName

end Violation

/-! ## Key families -/

/-- Whether a text goes on after the given opening. -/
def opensWith (opening text : String) : Bool :=
  opening.toList.isPrefixOf text.toList

/-- Whether a text goes on after the given opening by at least one character. -/
def goesOnAfter (opening text : String) : Bool :=
  opensWith opening text && opening.toList.length < text.toList.length

/-- The openings of the keys that belong to a partition's family: its name as
the first part, possibly after one of the parts that precede partition names,
or the part for hardware keys, which all families share. -/
def familyOpenings (partition : String) : List String :=
  ["", "init.svc.", "ro.", "persist."].map (· ++ partition ++ ".") ++ ["ro.hardware."]

/-- Whether a key belongs to a partition's family. -/
def inFamily (partition key : String) : Bool :=
  (familyOpenings partition).any (goesOnAfter · key)

namespace Owner

/-- Whether a key may be used by properties of the given owner: vendor and odm
keep to their families, the platform stays out of both. -/
def mayUse : Owner → String → Bool
  | .platform, key => !(inFamily "vendor" key || inFamily "odm" key)
  | .vendor, key => inFamily "vendor" key
  | .odm, key => inFamily "odm" key

end Owner

/-! ## The rules -/

/-- The elements that have a label some earlier element has too. -/
def repeated {α β : Type} [DecidableEq β] (label : α → β) : List β → List α → List α
  | _, [] => []
  | seen, a :: as =>
    if label a ∈ seen then a :: repeated label seen as
    else repeated label (label a :: seen) as

/-- A violation if a rule does not hold, none if it does. -/
def requires (holds : Bool) (violation : Violation) : List Violation :=
  if holds then [] else [violation]

/-- The module path has at least two segments, and each is an identifier. -/
def Schema.pathViolations (s : Schema) : List Violation :=
  requires (1 < s.segments.length) (.shortPath s.modulePath) ++
    (s.segments.filter fun segment => !isIdentifier segment).map .badSegment

namespace Property

/-- The symbols of an enumeration are identifiers that differ in more than
ASCII case. -/
def symbolViolations (p : Property) : List Violation :=
  if p.type.isEnum then
    (p.symbols.filter fun symbol => !isIdentifier symbol).map (.badSymbol · p.apiName) ++
      (repeated (fun symbol => Text.foldCase symbol.toList) [] p.symbols).map
        (.repeatedSymbol · p.apiName)
  else []

/-- A property has a well-formed API name, symbols and key; the key is one its
owner may use and, for a property that is written again and again, not one that
can be written only once; and only booleans are stored as digits. -/
def violations (owner : Owner) (p : Property) : List Violation :=
  let key := p.key owner
  requires (isDottedName p.apiName) (.badApiName p.apiName) ++
    p.symbolViolations ++
    requires (isDottedName key) (.badKey key) ++
    requires (owner.mayUse key) (.foreignKey owner key) ++
    requires (!(p.access = .readWrite && opensWith "ro." key)) (.writeOnceKey key) ++
    requires (!p.integerAsBool || p.type.isBoolean) (.notBoolean key)

end Property

namespace Schema

/-- There is at least one property. -/
def presenceViolations (s : Schema) : List Violation :=
  requires (!s.props.isEmpty) .noProperties

/-- The identifiers made of the API names differ. -/
def identifierViolations (s : Schema) : List Violation :=
  (repeated Property.identifier [] s.props).map fun p => .repeatedApiName p.apiName

/-- Everything that is wrong with a schema, what takes precedence first. -/
def violations (s : Schema) : List Violation :=
  s.pathViolations ++ s.presenceViolations ++
    s.props.flatMap (Property.violations s.owner) ++ s.identifierViolations

end Schema

/-! ## Verdicts -/

/-- Success without violations, and otherwise the first of them. -/
def verdict : List Violation → Except Violation Unit
  | [] => .ok ()
  | violation :: _ => .error violation

/-- Whether a single property of the given owner is valid. -/
def Property.verify (owner : Owner) (p : Property) : Except Violation Unit :=
  verdict (p.violations owner)

/-- Whether a schema is valid. -/
def Schema.verify (s : Schema) : Except Violation Unit :=
  verdict s.violations

theorem verdict_eq_ok_iff {violations : List Violation} :
    verdict violations = .ok () ↔ violations = [] := by
  cases violations <;> simp [verdict]

theorem Schema.verify_eq_ok_iff {s : Schema} : s.verify = .ok () ↔ s.violations = [] :=
  verdict_eq_ok_iff

end PropSchema
