/-
PropSchema.Schema.Basic — what a property schema declares.

A schema names the partition that owns it and a dotted module path, and
declares properties in order. A property has an API name, a value type, an
access mode, a visibility scope, and optionally the key it is stored under, the
symbols of its enumeration, and a flag that makes booleans be stored as digits.

The constants that schema text can name (owners, access modes, scopes, value
types) form closed vocabularies. `Vocabulary` gives each its constants in order
and their names, and the two ways text refers to one: `ofName?` by its exact
name, `ofIndex?` by its place in that order.
-/

namespace PropSchema

/-! ## Vocabularies -/

/-- A closed list of constants that text refers to by name or by place. -/
class Vocabulary (α : Type) where
  /-- Every constant, in the order in which places are counted. -/
  constants : List α
  /-- The name of a constant in schema text. -/
  name : α → String

namespace Vocabulary

/-- The constant with exactly the given name. -/
def ofName? {α : Type} [Vocabulary α] (name : String) : Option α :=
  (constants : List α).find? fun c => Vocabulary.name c = name

/-- The constant at the given place, counted from zero. -/
def ofIndex? {α : Type} [Vocabulary α] : Int → Option α
  | .ofNat i => (constants : List α)[i]?
  | .negSucc _ => none

end Vocabulary

/-- The partition that owns a schema's properties. -/
inductive Owner where
  | platform
  | vendor
  | odm
  deriving DecidableEq, Repr

/-- How a property is meant to be used. Only its derived key depends on it: no
write is refused because of it. -/
inductive Access where
  | readonly
  | writeonce
  | readWrite
  deriving DecidableEq, Repr

/-- Who sees a property's accessors. `system` is deprecated and means the same
as `exported`, whose name in schema text is `Public`. -/
inductive Scope where
  | exported
  | system
  | internal
  deriving DecidableEq, Repr

/-- The kind of a single value. -/
inductive Kind where
  | boolean
  | int32
  | int64
  | double
  | string
  | enumeration
  deriving DecidableEq, Repr

/-- A value type: single values of a kind, or lists of them. -/
structure ValueType where
  kind : Kind
  isList : Bool
  deriving DecidableEq, Repr

namespace Kind

/-- Every kind, in the order in which value types are declared. -/
def all : List Kind :=
  [.boolean, .int32, .int64, .double, .string, .enumeration]

/-- The name of the type of single values of a kind. -/
def typeName : Kind → String
  | .boolean => "Boolean"
  | .int32 => "Integer"
  | .int64 => "Long"
  | .double => "Double"
  | .string => "String"
  | .enumeration => "Enum"

/-- The name of the kind itself. -/
def name : Kind → String
  | .boolean => "Boolean"
  | .int32 => "Int32"
  | .int64 => "Int64"
  | .double => "Double"
  | .string => "String"
  | .enumeration => "Enum"

end Kind

namespace ValueType

/-- The single-value types of all kinds, then the list types. -/
def all : List ValueType :=
  Kind.all.map (⟨·, false⟩) ++ Kind.all.map (⟨·, true⟩)

/-- The name of a type: that of its kind, with `List` after it for lists. -/
def name (t : ValueType) : String :=
  if t.isList then t.kind.typeName ++ "List" else t.kind.typeName

/-- Whether values are symbols of an enumeration. -/
def isEnum (t : ValueType) : Bool :=
  t.kind = .enumeration

/-- Whether values are booleans. -/
def isBoolean (t : ValueType) : Bool :=
  t.kind = .boolean

end ValueType

instance : Vocabulary Owner where
  constants := [.platform, .vendor, .odm]
  name
    | .platform => "Platform"
    | .vendor => "Vendor"
    | .odm => "Odm"

instance : Vocabulary Access where
  constants := [.readonly, .writeonce, .readWrite]
  name
    | .readonly => "Readonly"
    | .writeonce => "Writeonce"
    | .readWrite => "ReadWrite"

instance : Vocabulary Scope where
  constants := [.exported, .system, .internal]
  name
    | .exported => "Public"
    | .system => "System"
    | .internal => "Internal"

instance : Vocabulary ValueType where
  constants := ValueType.all
  name := ValueType.name

/-! ## Properties and schemas -/

/-- One declared property. The default is what a property block without any
field declares. -/
@[ext]
structure Property where
  apiName : String := ""
  type : ValueType := ⟨.boolean, false⟩
  access : Access := .readonly
  scope : Scope := .exported
  /-- The declared key; the key is derived where this is absent or empty. -/
  propName : Option String := none
  /-- The symbols of an enumeration, separated by `|`. -/
  enumValues : String := ""
  /-- Whether booleans are stored as `1` and `0`. -/
  integerAsBool : Bool := false
  deriving DecidableEq, Repr

/-- A schema: its properties in the order of their declaration. The default is
what the empty text declares. -/
@[ext]
structure Schema where
  owner : Owner := .platform
  modulePath : String := ""
  props : List Property := []
  deriving DecidableEq, Repr

instance : Inhabited Property := ⟨{}⟩

instance : Inhabited Schema := ⟨{}⟩

/-! ## Laws -/

/-- The name of every constant leads back to it. -/
theorem ValueType.ofName?_name (t : ValueType) :
    Vocabulary.ofName? (Vocabulary.name t) = some t := by
  rcases t with ⟨kind, isList⟩
  cases kind <;> cases isList <;> rfl

theorem Owner.ofName?_name (o : Owner) : Vocabulary.ofName? (Vocabulary.name o) = some o := by
  cases o <;> rfl

theorem Access.ofName?_name (a : Access) : Vocabulary.ofName? (Vocabulary.name a) = some a := by
  cases a <;> rfl

theorem Scope.ofName?_name (s : Scope) : Vocabulary.ofName? (Vocabulary.name s) = some s := by
  cases s <;> rfl

end PropSchema
