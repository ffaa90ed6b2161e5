/-
PropSchema.Text.Quoted — texts between double quotes, as messages show them.

The quote and the backslash are escaped, and so are the characters that do
not show by themselves: four common ones by a letter or digit, the others by
their code point in hexadecimal. A mark that attaches to the character before
it is one of those, wherever it stands. Every other character stands for
itself, a single quote among them.
-/
import PropSchema.Text.Visible

namespace PropSchema.Text

/-- The hexadecimal digits of a number, in lower case and without leading
zeros. -/
def hexDigits (n : Nat) : List Char :=
  Nat.toDigits 16 n

/-- A character between double quotes. -/
def quoteChar (c : Char) : List Char :=
  if c = '"' then ['\\', '"']
  else if c = '\\' then ['\\', '\\']
  else if c = '\n' then ['\\', 'n']
  else if c = '\r' then ['\\', 'r']
  else if c = '\t' then ['\\', 't']
  else if c.toNat = 0 then ['\\', '0']
  else if isVisible c then [c]
  else '\\' :: 'u' :: '\x7b' :: (hexDigits c.toNat ++ ['\x7d'])

/-- A text between double quotes. -/
def quote (s : String) : String :=
  String.ofList ('"' :: (s.toList.flatMap quoteChar ++ ['"']))

/-- Texts between double quotes, as a list in brackets. -/
def quoteList (texts : List String) : String :=
  "[" ++ ", ".intercalate (texts.map quote) ++ "]"

end PropSchema.Text
