/-
PropSchema.Artifact.Header — the header of a schema: its declarations.

A header declares a getter and a setter per property, in declaration order, and
before them the enum type of their values if the property has one. The full
header declares every property, the public one those in the exported scope; both
are the same frame around the declarations they select.
-/
import PropSchema.Artifact.Naming

namespace PropSchema

namespace Property

/-- The declaration of a property's enum type, with a blank line after it, if its values
have symbols. -/
def enumLines (p : Property) : List String :=
  if p.descriptor.symbols = [] then []
  else
    ("enum class " ++ p.enumTypeName ++ " \x7b") ::
      (p.descriptor.symbols.map fun symbol => "    " ++ symbol ++ ",") ++ ["\x7d;", ""]

/-- The declarations of a property, with a blank line after them. -/
def declarationLines (p : Property) : List String :=
  p.enumLines ++ [p.getterSignature ++ ";", p.setterSignature ++ ";", ""]

end Property

namespace Schema

/-- The lines of a header before its declarations. -/
def headerOpening (s : Schema) : List String :=
  [Artifact.banner, "", "#ifndef " ++ s.guardName, "#define " ++ s.guardName, "",
    "#include <cstdint>", "#include <optional>", "#include <string>", "#include <vector>", "",
    "namespace " ++ s.namespaceName ++ " \x7b", ""]

/-- The lines of a header after its declarations. -/
def headerClosing (s : Schema) : List String :=
  ["\x7d  // namespace " ++ s.namespaceName, "", "#endif  // " ++ s.guardName]

/-- The lines of the header that declares the given properties. -/
def headerLines (s : Schema) (props : List Property) : List String :=
  s.headerOpening ++ props.flatMap Property.declarationLines ++ s.headerClosing

/-- The header that declares every property. -/
def header (s : Schema) : String :=
  Artifact.render (s.headerLines s.props)

/-- The header that declares the properties in the exported scope. -/
def publicHeader (s : Schema) : String :=
  Artifact.render (s.headerLines (s.props.filter fun p => p.scope = .exported))

end Schema

end PropSchema
