/-
PropSchema.Json.Basic — JSON values and the two ways of writing them.

String and number literals are kept as they are spelled. For numbers that
avoids a choice of precision; for strings it means that an escape is resolved
only where the string's text is asked for, so that a value nobody looks at may
contain escapes that denote no character. `escape` spells a text, `unescape?`
resolves a spelling, and `unescape?_escape` says they fit together.
-/
import PropSchema.Number.Numeral
import PropSchema.Text.Quoted

namespace PropSchema

/-- A JSON value. Strings and member names are spelled as between their quotes. -/
inductive Json where
  | null
  | bool (b : Bool)
  | number (literal : List Char)
  | string (literal : List Char)
  | array (items : List Json)
  | object (members : List (List Char × Json))

instance : Inhabited Json := ⟨.null⟩

namespace Json

/-! ## Strings -/

/-- The spelling of a character: quotes, backslashes and control characters are
escaped, everything else stands for itself. -/
def escapeChar (c : Char) : List Char :=
  if c = '"' then ['\\', '"']
  else if c = '\\' then ['\\', '\\']
  else if c = '\x08' then ['\\', 'b']
  else if c = '\x0c' then ['\\', 'f']
  else if c = '\n' then ['\\', 'n']
  else if c = '\r' then ['\\', 'r']
  else if c = '\t' then ['\\', 't']
  else if c.toNat < 0x20 then
    ['\\', 'u', '0', '0', Number.hexDigitChar (c.toNat / 16), Number.hexDigitChar (c.toNat % 16)]
  else [c]

/-- The spelling of a text. -/
def escape (s : List Char) : List Char :=
  s.flatMap escapeChar

/-- The number that four hexadecimal digits denote. -/
def hexQuad? (a b c d : Char) : Option Nat :=
  Number.natural? 16 [a, b, c, d]

/-- The character that a backslash and a letter other than `u` denote. -/
def escapedChar? : Char → Option Char
  | '"' => some '"'
  | '\\' => some '\\'
  | '/' => some '/'
  | 'b' => some '\x08'
  | 'f' => some '\x0c'
  | 'n' => some '\n'
  | 'r' => some '\r'
  | 't' => some '\t'
  | _ => none

/-- Whether a code unit is the first half of a surrogate pair. -/
def isHighSurrogate (n : Nat) : Bool :=
  0xd800 ≤ n && n < 0xdc00

/-- Whether a code unit is the second half of a surrogate pair. -/
def isLowSurrogate (n : Nat) : Bool :=
  0xdc00 ≤ n && n < 0xe000

/-- The character of a surrogate pair. -/
def surrogatePair (high low : Nat) : Char :=
  Char.ofNat (0x10000 + (high - 0xd800) * 0x400 + (low - 0xdc00))

/-- The text of a spelling. Code units from the surrogate range have to come in
pairs. -/
def unescape? : List Char → Option (List Char)
  | [] => some []
  | '\\' :: 'u' :: a :: b :: c :: d :: cs =>
    match hexQuad? a b c d with
    | none => none
    | some high =>
      if isHighSurrogate high then
        match cs with
        | '\\' :: 'u' :: a' :: b' :: c' :: d' :: cs =>
          match hexQuad? a' b' c' d' with
          | none => none
          | some low =>
            if isLowSurrogate low then (unescape? cs).map (surrogatePair high low :: ·) else none
        | _ => none
      else if isLowSurrogate high then none
      else (unescape? cs).map (Char.ofNat high :: ·)
  | '\\' :: c :: cs =>
    match escapedChar? c with
    | some value => (unescape? cs).map (value :: ·)
    | none => none
  | c :: cs => if c = '\\' then none else (unescape? cs).map (c :: ·)

/-- The JSON string with the given text. -/
def ofText (s : String) : Json :=
  .string (escape s.toList)

/-- The text of a JSON string. -/
def text? : Json → Option String
  | .string literal => (unescape? literal).map String.ofList
  | _ => none

/-- The JSON number with the given value. -/
def ofInt (n : Int) : Json :=
  .number (Number.signedDecimal n)

/-- The JSON object with the given members, in this order. -/
def ofMembers (members : List (String × Json)) : Json :=
  .object (members.map fun (name, value) => (escape name.toList, value))

/-! ## Writing -/

/-- A string literal. -/
def literal (spelling : List Char) : List Char :=
  '"' :: (spelling ++ ['"'])

mutual

/-- A value on one line without blanks. -/
def compact : Json → List Char
  | .null => "null".toList
  | .bool b => if b then "true".toList else "false".toList
  | .number spelling => spelling
  | .string spelling => literal spelling
  | .array [] => ['[', ']']
  | .array (item :: items) => '[' :: (item.compact ++ compactItems items)
  | .object [] => ['\x7b', '\x7d']
  | .object ((name, value) :: members) =>
    '\x7b' :: (literal name ++ ':' :: (value.compact ++ compactMembers members))

/-- The rest of an array after its first item. -/
def compactItems : List Json → List Char
  | [] => [']']
  | item :: items => ',' :: (item.compact ++ compactItems items)

/-- The rest of an object after its first member. -/
def compactMembers : List (List Char × Json) → List Char
  | [] => ['\x7d']
  | (name, value) :: members =>
    ',' :: (literal name ++ ':' :: (value.compact ++ compactMembers members))

end

/-- A new line with the given number of indentation steps, two blanks each. -/
def newline (depth : Nat) : List Char :=
  '\n' :: List.replicate (2 * depth) ' '

mutual

/-- A value over several lines, one for each item and member, the value itself
being nested at the given depth. -/
def prettyAt (depth : Nat) : Json → List Char
  | .null => "null".toList
  | .bool b => if b then "true".toList else "false".toList
  | .number spelling => spelling
  | .string spelling => literal spelling
  | .array [] => ['[', ']']
  | .array (item :: items) =>
    '[' :: (newline (depth + 1) ++ item.prettyAt (depth + 1) ++ prettyItems depth items)
  | .object [] => ['\x7b', '\x7d']
  | .object ((name, value) :: members) =>
    '\x7b' :: (newline (depth + 1) ++ literal name ++ ':' :: ' ' ::
      (value.prettyAt (depth + 1) ++ prettyMembers depth members))

/-- The rest of an array after its first item. -/
def prettyItems (depth : Nat) : List Json → List Char
  | [] => newline depth ++ [']']
  | item :: items =>
    ',' :: (newline (depth + 1) ++ item.prettyAt (depth + 1) ++ prettyItems depth items)

/-- The rest of an object after its first member. -/
def prettyMembers (depth : Nat) : List (List Char × Json) → List Char
  | [] => newline depth ++ ['\x7d']
  | (name, value) :: members =>
    ',' :: (newline (depth + 1) ++ literal name ++ ':' :: ' ' ::
      (value.prettyAt (depth + 1) ++ prettyMembers depth members))

end

/-- A value on one line, as a string. -/
def line (j : Json) : String :=
  String.ofList j.compact

/-- A value over several lines, as a string. -/
def pretty (j : Json) : String :=
  String.ofList (j.prettyAt 0)

/-! ## Laws -/

theorem unescape?_cons_of_ne {c : Char} (h : c ≠ '\\') (cs : List Char) :
    unescape? (c :: cs) = (unescape? cs).map (c :: ·) := by
  rw [unescape?.eq_def]
  split
  · rename_i hn; exact absurd hn (by simp)
  · rename_i hn; simp only [List.cons.injEq] at hn; exact absurd hn.1 h
  · rename_i hn; simp only [List.cons.injEq] at hn; exact absurd hn.1 h
  · rename_i hn
    simp only [List.cons.injEq] at hn
    rw [← hn.1, ← hn.2, if_neg h]

theorem hexQuad?_control {n : Nat} (h : n < 0x20) :
    hexQuad? '0' '0' (Number.hexDigitChar (n / 16)) (Number.hexDigitChar (n % 16)) = some n := by
  have hq : ∀ n : Fin 0x20,
      hexQuad? '0' '0' (Number.hexDigitChar (n / 16)) (Number.hexDigitChar (n % 16))
        = some n.val := by
    decide
  exact hq ⟨n, h⟩

theorem unescape?_control (n : Nat) (h : n < 0x20) (cs : List Char) :
    unescape? ('\\' :: 'u' :: '0' :: '0' :: Number.hexDigitChar (n / 16) ::
        Number.hexDigitChar (n % 16) :: cs)
      = (unescape? cs).map (Char.ofNat n :: ·) := by
  have hn : isHighSurrogate n = false ∧ isLowSurrogate n = false := by
    simp only [isHighSurrogate, isLowSurrogate, Bool.and_eq_false_iff, decide_eq_false_iff_not]
    omega
  rw [unescape?, hexQuad?_control h]
  simp [hn]

theorem unescape?_escapeChar (c : Char) (cs : List Char) :
    unescape? (escapeChar c ++ cs) = (unescape? cs).map (c :: ·) := by
  unfold escapeChar
  repeat' split
  all_goals first
    | (rename_i h; subst h; rfl)
    | skip
  · rename_i h
    have := unescape?_control c.toNat h cs
    rw [Char.ofNat_toNat] at this
    exact this
  · rename_i h _ _ _ _ _ _
    exact unescape?_cons_of_ne h cs

/-- Every text is the text of its spelling. -/
theorem unescape?_escape (s : List Char) : unescape? (escape s) = some s := by
  induction s with
  | nil => rfl
  | cons c s ih =>
    rw [escape, List.flatMap_cons, unescape?_escapeChar]
    rw [escape] at ih
    rw [ih]
    rfl

theorem text?_ofText (s : String) : (ofText s).text? = some s := by
  simp [ofText, text?, unescape?_escape]

end Json

end PropSchema
