/-
PropSchema.Schema.Name — names: what counts as one, which identifier generated
code uses for a property, and which key a property is stored under.

A property with a declared, non-empty key is stored under that. Otherwise the
key is derived: `ro.` unless the property is read and written, then the
owner's qualifier, then the API name as it is declared.
-/
import PropSchema.Schema.Basic
import PropSchema.Text.Ascii
import PropSchema.Text.Split

namespace PropSchema

/-- Whether a name is an identifier: a letter or `_`, then letters, digits
and `_`. -/
def isIdentifier (name : String) : Bool :=
  match name.toList with
  | [] => false
  | c :: cs => Text.isWordStart c && cs.all Text.isWord

/-- Whether a name can be an API name or a key: not empty, and made of letters,
digits, `_`, `-` and `.`. -/
def isDottedName (name : String) : Bool :=
  match name.toList with
  | [] => false
  | c :: cs => (c :: cs).all Text.isKeyChar

/-- The character that stands for `c` in an identifier. -/
def identifierChar (c : Char) : Char :=
  if c = '-' ∨ c = '.' then '_' else c

/-- The identifier made of an API name: `-` and `.` become `_`, and a leading
digit gets a `_` before it. -/
def identifierOf (apiName : String) : String :=
  match apiName.toList with
  | [] => ""
  | c :: cs =>
    let body := (c :: cs).map identifierChar
    String.ofList (if c.isDigit then '_' :: body else body)

namespace Owner

/-- What derived keys of an owner's properties have before the API name. -/
def qualifier : Owner → String
  | .platform => ""
  | .vendor => "vendor."
  | .odm => "odm."

end Owner

/-- The key of a property that declares none. -/
def derivedKey (owner : Owner) (access : Access) (apiName : String) : String :=
  (if access = .readWrite then "" else "ro.") ++ owner.qualifier ++ apiName

namespace Property

/-- The key a property is stored under: the declared one, unless that is absent
or empty. -/
def key (owner : Owner) (p : Property) : String :=
  (p.propName.filter (· ≠ "")).getD (derivedKey owner p.access p.apiName)

/-- The identifier of a property in generated code. -/
def identifier (p : Property) : String :=
  identifierOf p.apiName

/-- The symbols of a property's enumeration, in order: the pieces between the
bars. -/
def symbols (p : Property) : List String :=
  Text.pieces '|' p.enumValues

end Property

namespace Schema

/-- The segments of a schema's module path. -/
def segments (s : Schema) : List String :=
  Text.pieces '.' s.modulePath

/-- The last segment of the module path. -/
def moduleName (s : Schema) : String :=
  s.segments.getLastD ""

/-- The first property with the given API name. -/
def property? (s : Schema) (apiName : String) : Option Property :=
  s.props.find? fun p => p.apiName = apiName

end Schema

end PropSchema
