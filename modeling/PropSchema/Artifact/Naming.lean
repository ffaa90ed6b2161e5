/-
PropSchema.Artifact.Naming — names and types in generated C++ code.

Everything the generated files introduce is named after the schema: the
namespace and the include guard after its module path, and functions, enum types
and tables after the identifiers of its properties.
-/
import PropSchema.Value.Basic

namespace PropSchema

/-- The first line of every generated file. -/
def Artifact.banner : String :=
  "// Generated by the sysprop generator. DO NOT EDIT!"

namespace Schema

/-- The namespace of a schema's accessors. -/
def namespaceName (s : Schema) : String :=
  "::".intercalate s.segments

/-- The macro that keeps a schema's header from being included twice. -/
def guardName (s : Schema) : String :=
  "SYSPROPGEN_" ++ "_".intercalate s.segments ++ "_H_"

end Schema

namespace Property

/-- The enum type of a property's values. -/
def enumTypeName (p : Property) : String :=
  p.identifier ++ "_values"

/-- The table of an enum type's symbols. -/
def tableName (p : Property) : String :=
  p.identifier ++ "_list"

/-- The type of a single value of a property. -/
def elementTypeName (p : Property) : String :=
  match p.type.kind with
  | .boolean => "bool"
  | .int32 => "std::int32_t"
  | .int64 => "std::int64_t"
  | .double => "double"
  | .string => "std::string"
  | .enumeration => p.enumTypeName

/-- The type of a property's values. -/
def valueTypeName (p : Property) : String :=
  if p.type.isList then "std::vector<" ++ p.elementTypeName ++ ">" else p.elementTypeName

/-- The signature of a property's getter. -/
def getterSignature (p : Property) : String :=
  "std::optional<" ++ p.valueTypeName ++ "> " ++ p.identifier ++ "()"

/-- The signature of a property's setter. -/
def setterSignature (p : Property) : String :=
  "bool " ++ p.identifier ++ "(const " ++ p.valueTypeName ++ "& value)"

end Property

namespace Artifact

/-- A text between double quotes, as it is. -/
def stringLiteral (text : String) : String :=
  "\"" ++ text ++ "\""

/-- The text that lines make up: each is ended by a line feed. -/
def render (lines : List String) : String :=
  String.join (lines.map (· ++ "\n"))

end Artifact

end PropSchema
