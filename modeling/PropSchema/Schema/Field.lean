/-
PropSchema.Schema.Field — the fields schema text consists of.

A schema is a sequence of entries, and a property block a sequence of
assignments; each names a field and gives it a value. What a sequence declares
is the effect of its members on a blank schema or property, in order.
-/
import PropSchema.Schema.Basic

namespace PropSchema

/-! ## Properties -/

/-- The fields of a property block. -/
inductive PropertyField where
  | apiName
  | propName
  | enumValues
  | type
  | access
  | scope
  | integerAsBool
  deriving DecidableEq, Repr

namespace PropertyField

/-- Every field of a property block. -/
def all : List PropertyField :=
  [.apiName, .propName, .enumValues, .type, .access, .scope, .integerAsBool]

/-- The name of a field in schema text. -/
def name : PropertyField → String
  | .apiName => "api_name"
  | .propName => "prop_name"
  | .enumValues => "enum_values"
  | .type => "type"
  | .access => "access"
  | .scope => "scope"
  | .integerAsBool => "integer_as_bool"

/-- The field with the given name. -/
def ofName? (name : String) : Option PropertyField :=
  all.find? fun f => f.name = name

end PropertyField

/-- A field of a property block with its value. -/
inductive Assignment where
  | apiName (value : String)
  | propName (value : String)
  | enumValues (value : String)
  | type (value : ValueType)
  | access (value : Access)
  | scope (value : Scope)
  | integerAsBool (value : Bool)
  deriving DecidableEq, Repr

namespace Assignment

/-- The field that an assignment is for. -/
def field : Assignment → PropertyField
  | .apiName _ => .apiName
  | .propName _ => .propName
  | .enumValues _ => .enumValues
  | .type _ => .type
  | .access _ => .access
  | .scope _ => .scope
  | .integerAsBool _ => .integerAsBool

/-- A property after an assignment. An empty key declares none. -/
def apply (p : Property) : Assignment → Property
  | .apiName value => { p with apiName := value }
  | .propName value => { p with propName := if value = "" then none else some value }
  | .enumValues value => { p with enumValues := value }
  | .type value => { p with type := value }
  | .access value => { p with access := value }
  | .scope value => { p with scope := value }
  | .integerAsBool value => { p with integerAsBool := value }

end Assignment

/-- The property that a block declares. -/
def Property.ofAssignments (assignments : List Assignment) : Property :=
  assignments.foldl Assignment.apply {}

/-! ## Schemas -/

/-- The fields of a schema. -/
inductive SchemaField where
  | owner
  | modulePath
  | property
  deriving DecidableEq, Repr

namespace SchemaField

/-- Every field of a schema. -/
def all : List SchemaField :=
  [.owner, .modulePath, .property]

/-- The name of a field in schema text. -/
def name : SchemaField → String
  | .owner => "owner"
  | .modulePath => "module"
  | .property => "prop"

/-- The field with the given name. -/
def ofName? (name : String) : Option SchemaField :=
  all.find? fun f => f.name = name

/-- Whether a field may occur any number of times. -/
def isRepeatable : SchemaField → Bool
  | .property => true
  | .owner => false
  | .modulePath => false

end SchemaField

/-- A field of a schema with its value. -/
inductive Entry where
  | owner (value : Owner)
  | modulePath (value : String)
  | property (assignments : List Assignment)
  deriving DecidableEq, Repr

namespace Entry

/-- The field that an entry is for. -/
def field : Entry → SchemaField
  | .owner _ => .owner
  | .modulePath _ => .modulePath
  | .property _ => .property

/-- A schema after an entry: properties are added at the end. -/
def apply (s : Schema) : Entry → Schema
  | .owner value => { s with owner := value }
  | .modulePath value => { s with modulePath := value }
  | .property assignments => { s with props := s.props ++ [.ofAssignments assignments] }

end Entry

/-- The schema that a sequence of entries declares. -/
def Schema.ofEntries (entries : List Entry) : Schema :=
  entries.foldl Entry.apply {}

end PropSchema
