/-
PropSchema.Token.Basic — tokens of schema text, and places in it.

Lines and columns are counted from one and offsets from zero, all in
characters. A token sequence ends where the text ends, so the place of that
end belongs to it: it is where a reader that wants one more token looks.
-/
import PropSchema.Number.Numeral

namespace PropSchema

/-! ## Places -/

/-- A place in a text. -/
structure Position where
  line : Nat
  column : Nat
  offset : Nat
  deriving DecidableEq, Repr

namespace Position

/-- The place before the first character. -/
def start : Position :=
  ⟨1, 1, 0⟩

/-- The place after a character that stands at the given place: a line feed ends
its line. -/
def after (p : Position) (c : Char) : Position :=
  if c = '\n' then ⟨p.line + 1, 1, p.offset + 1⟩ else ⟨p.line, p.column + 1, p.offset + 1⟩

/-- The place after a run of characters that starts at the given place. -/
def skip (p : Position) (cs : List Char) : Position :=
  cs.foldl after p

/-- A place in messages: line and column. -/
def text (p : Position) : String :=
  Number.decimalText p.line ++ ":" ++ Number.decimalText p.column

theorem skip_append (p : Position) (cs ds : List Char) :
    p.skip (cs ++ ds) = (p.skip cs).skip ds := by
  simp [skip]

theorem offset_after (p : Position) (c : Char) : (p.after c).offset = p.offset + 1 := by
  unfold after
  split <;> rfl

/-- The offset counts the characters passed. -/
theorem offset_skip (p : Position) (cs : List Char) :
    (p.skip cs).offset = p.offset + cs.length := by
  induction cs generalizing p with
  | nil => rfl
  | cons c cs ih =>
    have h := ih (p.after c)
    rw [offset_after] at h
    rw [skip, List.foldl_cons, List.length_cons]
    rw [skip] at h
    omega

end Position

/-! ## Tokens -/

/-- A token: a literal with its value, a name, or a symbol. -/
inductive Token where
  | string (value : String)
  | integer (value : Int)
  | word (name : String)
  | openBrace
  | closeBrace
  | colon
  | comma
  | semicolon
  deriving DecidableEq, Repr

namespace Token

/-- A token in messages: a string between double quotes with its escapes undone,
a number or a name as it is, a symbol between single quotes. -/
def text : Token → String
  | .string value => "\"" ++ value ++ "\""
  | .integer value => Number.signedDecimalText value
  | .word name => name
  | .openBrace => "'\x7b'"
  | .closeBrace => "'\x7d'"
  | .colon => "':'"
  | .comma => "','"
  | .semicolon => "';'"

/-- What stands at a place, in messages: a token or the end of the text. -/
def textOrEnd : Option Token → String
  | some t => t.text
  | none => "end of input"

end Token

/-- A token and the place of its first character. -/
structure Located where
  token : Token
  position : Position
  deriving DecidableEq, Repr

/-- The tokens of a text, and the place where the text ends. -/
structure TokenSequence where
  items : List Located
  finish : Position
  deriving DecidableEq, Repr

end PropSchema
