/-
PropSchema.Text.Ascii — the character classes of schema text, names and
stored values.

Every class here is ASCII only: `é` is no letter, `²` no digit, and U+00A0
does not separate tokens. `Char.isDigit`, `Char.isAlpha` and
`Char.isAlphanum` of the core library already are ASCII classes and are used
as they stand; this module adds the ones the core library does not have.
-/

namespace PropSchema.Text

/-- The characters that separate tokens: space, tab, line feed, form feed and
carriage return. The vertical tab is not among them. -/
def isBlank (c : Char) : Bool :=
  c = ' ' || c = '\t' || c = '\n' || c = '\x0c' || c = '\r'

/-- The characters an identifier may start with: ASCII letters and `_`. -/
def isWordStart (c : Char) : Bool :=
  c.isAlpha || c = '_'

/-- The characters an identifier goes on with: ASCII letters, digits and `_`. -/
def isWord (c : Char) : Bool :=
  c.isAlphanum || c = '_'

/-- The characters of API names and store keys: ASCII letters, digits, `_`,
`-` and `.`. -/
def isKeyChar (c : Char) : Bool :=
  c.isAlphanum || c = '_' || c = '-' || c = '.'

/-- The spelling of a text with its ASCII letters in upper case: the texts
that differ in ASCII case only are those with equal folds. -/
def foldCase (s : List Char) : List Char :=
  s.map Char.toUpper

theorem isWord_of_isWordStart {c : Char} (h : isWordStart c = true) : isWord c = true := by
  simp only [isWordStart, isWord, Char.isAlphanum, Bool.or_eq_true] at h ⊢
  rcases h with h | h
  · exact .inl (.inl h)
  · exact .inr h

theorem isKeyChar_of_isWord {c : Char} (h : isWord c = true) : isKeyChar c = true := by
  simp only [isWord, isKeyChar, Bool.or_eq_true] at h ⊢
  exact .inl (.inl h)

end PropSchema.Text
