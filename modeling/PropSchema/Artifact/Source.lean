/-
PropSchema.Artifact.Source — the source file of a schema: its definitions.

A source file includes the header under the name it is given, and has two parts.
The first is private to the file: for each enumeration a table of its symbols
with a parser and a formatter, then the support code. The second, in the
namespace of the schema, defines the getter and the setter of each property, in
declaration order.
-/
import PropSchema.Artifact.Naming
import PropSchema.Artifact.Support

namespace PropSchema

namespace Artifact

/-- The line that includes a file. -/
def includeLine (name : String) : String :=
  "#include <" ++ name ++ ">"

end Artifact

namespace Property

/-! ## Enumerations -/

/-- The row of a symbol in the table of a property's enumeration. -/
def tableRow (p : Property) (symbol : String) : String :=
  "    \x7b" ++ Artifact.stringLiteral symbol ++ ", " ++ p.enumTypeName ++ "::" ++ symbol ++ "\x7d,"

/-- The line that starts a loop over a property's table. -/
def tableLoop (p : Property) : String :=
  "    for (auto [name, val] : " ++ p.tableName ++ ") \x7b"

/-- The table of a property's enumeration, a row per symbol in order. -/
def tableLines (p : Property) : List String :=
  ("constexpr const std::pair<const char*, " ++ p.enumTypeName ++ "> " ++ p.tableName ++ "[] = \x7b") ::
    p.symbols.map p.tableRow ++ ["\x7d;", ""]

/-- The parser of a property's enumeration: the first row whose symbol is the
text. -/
def enumParserLines (p : Property) : List String :=
  ["template <>",
    "std::optional<" ++ p.enumTypeName ++ "> DoParse(const char* str) \x7b",
    p.tableLoop,
    "        if (strcmp(str, name) == 0) \x7b",
    "            return val;",
    "        \x7d",
    "    \x7d",
    "    return std::nullopt;",
    "\x7d",
    ""]

/-- The formatter of a property's enumeration: the first row with the value. -/
def enumFormatterLines (owner : Owner) (p : Property) : List String :=
  ["std::string FormatValue(" ++ p.enumTypeName ++ " value) \x7b",
    p.tableLoop,
    "        if (val == value) \x7b",
    "            return name;",
    "        \x7d",
    "    \x7d",
    "    LOG(FATAL) << \"Invalid value \" << static_cast<std::int32_t>(value) << " ++
      "\" for property \" << " ++ Artifact.stringLiteral (p.key owner) ++ ";",
    "    __builtin_unreachable();",
    "\x7d",
    ""]

/-- The private code for a property's enumeration. -/
def enumSupportLines (owner : Owner) (p : Property) : List String :=
  if p.type.isEnum then p.tableLines ++ p.enumParserLines ++ p.enumFormatterLines owner else []

/-! ## Accessors -/

/-- The expression for the stored text of a setter's argument. -/
def encodedArgument (p : Property) : String :=
  if p.integerAsBool then "FormatIntegerAsBool(value).c_str()"
  else if p.type = ⟨.string, false⟩ then "value.c_str()"
  else "FormatValue(value).c_str()"

/-- The definition of a property's getter. -/
def getterLines (owner : Owner) (p : Property) : List String :=
  [p.getterSignature ++ " \x7b",
    "    return GetProp<" ++ p.valueTypeName ++ ">(" ++ Artifact.stringLiteral (p.key owner) ++ ");",
    "\x7d",
    ""]

/-- The definition of a property's setter. -/
def setterLines (owner : Owner) (p : Property) : List String :=
  [p.setterSignature ++ " \x7b",
    "    return __system_property_set(" ++ Artifact.stringLiteral (p.key owner) ++ ", " ++
      p.encodedArgument ++ ") == 0;",
    "\x7d",
    ""]

/-- The definitions of a property's accessors. -/
def definitionLines (owner : Owner) (p : Property) : List String :=
  p.getterLines owner ++ p.setterLines owner

end Property

namespace Schema

/-- The lines of a source file before its private part. -/
def includeLines (includeName : String) : List String :=
  [Artifact.banner, "", Artifact.includeLine includeName, ""] ++
    ["cstring", "iterator", "type_traits", "utility"].map Artifact.includeLine ++ [""] ++
    ["strings.h", "sys/system_properties.h"].map Artifact.includeLine ++ [""] ++
    ["logging", "parseint", "stringprintf", "strings"].map
      (fun name => Artifact.includeLine ("android-base/" ++ name ++ ".h")) ++ [""]

/-- The writers of booleans as digits, where some property is stored that way. -/
def digitWriterLines (s : Schema) : List String :=
  if s.props.any Property.integerAsBool then Artifact.digitWriters ++ [""] else []

/-- The private part of a source file. -/
def privateLines (s : Schema) : List String :=
  ["namespace \x7b", "", "using namespace " ++ s.namespaceName ++ ";", "",
    "template <typename T> std::optional<T> DoParse(const char* str);", ""] ++
    s.props.flatMap (Property.enumSupportLines s.owner) ++
    Artifact.supportCode ++ [""] ++ s.digitWriterLines ++ ["\x7d  // namespace", ""]

/-- The accessors of a source file. -/
def accessorLines (s : Schema) : List String :=
  ["namespace " ++ s.namespaceName ++ " \x7b", ""] ++
    s.props.flatMap (Property.definitionLines s.owner) ++
    ["\x7d  // namespace " ++ s.namespaceName]

/-- The lines of the source file that includes its header by the given name. -/
def sourceLines (s : Schema) (includeName : String) : List String :=
  includeLines includeName ++ s.privateLines ++ s.accessorLines

/-- The source file that includes its header by the given name. -/
def source (s : Schema) (includeName : String) : String :=
  Artifact.render (s.sourceLines includeName)

end Schema

end PropSchema
