/-
PropSchema.Schema.Load — from schema text to a schema.

Text is cut into tokens, the tokens are read as declarations, and the declared
schema is checked as it stands; only a valid schema is normalized. Each step
has its own errors, and the first step that fails decides.
-/
import PropSchema.Token.Scan
import PropSchema.Schema.Declaration
import PropSchema.Schema.Validity
import PropSchema.Schema.Normal

namespace PropSchema

/-- Why a text gives no schema. -/
inductive SchemaError where
  | lexical (e : LexicalError)
  | grammatical (e : SyntaxError)
  | invalid (v : Violation)
  deriving DecidableEq, Repr

/-- The wording of an error without its kind. -/
def SchemaError.detail : SchemaError → String
  | .lexical e => e.message
  | .grammatical e => e.message
  | .invalid v => v.message

/-- The wording of an error. -/
def SchemaError.message (e : SchemaError) : String :=
  "Schema error: " ++ e.detail

namespace Schema

/-- The schema that a text declares, valid or not. -/
def ofText (text : String) : Except SchemaError Schema :=
  match scan text with
  | .error e => .error (.lexical e)
  | .ok tokens =>
    match ofTokens tokens with
    | .error e => .error (.grammatical e)
    | .ok s => .ok s

/-- The valid schema that a text declares, as it is declared. -/
def declared (text : String) : Except SchemaError Schema :=
  match ofText text with
  | .error e => .error e
  | .ok s =>
    match s.verify with
    | .error v => .error (.invalid v)
    | .ok () => .ok s

/-- The valid schema that a text declares, in normal form. -/
def load (text : String) : Except SchemaError Schema :=
  (declared text).map normalize

end Schema

end PropSchema
