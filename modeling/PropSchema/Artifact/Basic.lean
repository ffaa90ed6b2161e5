/-
PropSchema.Artifact.Basic — the files generated from a schema, and their digest.

A header and a source file belong together: the digest identifies the pair, as
the hash of the bytes of the header followed by those of the source file.
-/
import PropSchema.Artifact.Header
import PropSchema.Artifact.Source
import PropSchema.Digest.Sha256

namespace PropSchema

/-- A header and a source file. -/
structure Artifacts where
  header : String
  source : String
  deriving DecidableEq, Repr

namespace Artifacts

/-- What the digest is taken of. -/
def digestInput (a : Artifacts) : List UInt8 :=
  (a.header ++ a.source).toUTF8.toList

/-- The digest of a header and a source file: SHA-256 in hexadecimal. -/
def digest (a : Artifacts) : String :=
  Digest.hex (Digest.sha256 a.digestInput)

end Artifacts

/-- The files generated from a schema, the source including the header by the
given name. -/
def Schema.artifacts (s : Schema) (includeName : String) : Artifacts :=
  ⟨s.header, s.source includeName⟩

end PropSchema
