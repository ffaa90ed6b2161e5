/-
PropSchema.Token.Scan — cutting schema text into tokens.

A text is a sequence of lexemes with gaps before, between and after them. A gap
is any mixture of blanks and comments, and a comment runs from `#` to the end of
its line. Numbers and names extend as far as their characters go: `12x` is no
number followed by a name but a malformed number. Strings stand between two
quotes of the same sort, on one line, with the usual escapes.

Reading is driven by a cursor, the rest of the text with its place, and every
reader consumes at least one character; `scan` follows from that by recursion
on the length of the rest.
-/
import PropSchema.Text.Ascii
import PropSchema.Token.Basic

namespace PropSchema

/-- Why a text cannot be cut into tokens. -/
inductive LexicalError where
  | unexpectedCharacter (c : Char) (position : Position)
  | unterminatedString (opening : Position)
  | unterminatedEscape (position : Position)
  | unknownEscape (c : Char) (position : Position)
  | malformedInteger (text : String) (position : Position)
  deriving DecidableEq, Repr

/-- The wording of a lexical error. -/
def LexicalError.message : LexicalError → String
  | .unexpectedCharacter c position =>
    "Unexpected character '" ++ String.singleton c ++ "' at " ++ position.text
  | .unterminatedString opening => "Unterminated string starting at " ++ opening.text
  | .unterminatedEscape position => "Unterminated escape sequence at " ++ position.text
  | .unknownEscape c position =>
    "Invalid escape sequence '\\" ++ String.singleton c ++ "' at " ++ position.text
  | .malformedInteger text position =>
    "Invalid integer '" ++ text ++ "' at " ++ position.text

/-- The rest of a text and its place. -/
structure Cursor where
  position : Position
  rest : List Char
  deriving DecidableEq, Repr

namespace Cursor

/-- The cursor before a whole text. -/
def start (cs : List Char) : Cursor :=
  ⟨.start, cs⟩

/-- The cursor after the longest run of characters of a class, from the given
place on. -/
def past (p : Char → Bool) (position : Position) (cs : List Char) : Cursor :=
  ⟨position.skip (cs.takeWhile p), cs.dropWhile p⟩

end Cursor

/-! ## Gaps -/

/-- The cursor after the gap that starts at a place. The flag tells whether the
place is inside a comment, which swallows everything up to a line feed. -/
def skipGap (inComment : Bool) (position : Position) : List Char → Cursor
  | [] => ⟨position, []⟩
  | c :: cs =>
    if inComment && c ≠ '\n' then skipGap true (position.after c) cs
    else if Text.isBlank c then skipGap false (position.after c) cs
    else if c = '#' then skipGap true (position.after c) cs
    else ⟨position, c :: cs⟩

/-! ## Lexemes -/

/-- The symbol a character is by itself. -/
def symbol? : Char → Option Token
  | '\x7b' => some .openBrace
  | '\x7d' => some .closeBrace
  | ':' => some .colon
  | ',' => some .comma
  | ';' => some .semicolon
  | _ => none

/-- The character that a backslash and the given character stand for. -/
def unescape? : Char → Option Char
  | 'n' => some '\n'
  | 't' => some '\t'
  | 'r' => some '\r'
  | '\\' => some '\\'
  | '"' => some '"'
  | '\'' => some '\''
  | _ => none

/-- The value of a string from behind its opening quote, and the cursor behind
its closing one. A line feed ends the string as the end of the text does,
except behind a backslash, where it is an unknown escape. -/
def stringBody (quote : Char) (opening : Position) (position : Position) :
    List Char → Except LexicalError (List Char × Cursor)
  | [] => .error (.unterminatedString opening)
  | '\\' :: [] => .error (.unterminatedEscape (position.after '\\'))
  | '\\' :: c :: cs =>
    match unescape? c with
    | none => .error (.unknownEscape c ((position.after '\\').after c))
    | some value =>
      (stringBody quote opening ((position.after '\\').after c) cs).map fun (body, next) =>
        (value :: body, next)
  | c :: cs =>
    if c = quote then .ok ([], ⟨position.after c, cs⟩)
    else if c = '\n' then .error (.unterminatedString opening)
    else
      (stringBody quote opening (position.after c) cs).map fun (body, next) => (c :: body, next)

/-- The characters a number goes on with. Most of them make it malformed. -/
def isNumberChar (c : Char) : Bool :=
  c.isAlphanum || c = '.'

/-- Whether a number starts with `c`, the rest of the text being `cs`: a digit,
or a minus sign before one. -/
def startsNumber (c : Char) (cs : List Char) : Bool :=
  c.isDigit || (c = '-' && (cs.head?.any Char.isDigit))

/-- The 64-bit integer that a text denotes. -/
def integerValue? (text : List Char) : Option Int :=
  (Number.integer? text).filter fun n => (Number.int64? n).isSome

/-- The lexeme that starts with `c` at the given place, the rest of the text
being `cs`: its token, and the cursor behind it. -/
def lexeme (position : Position) (c : Char) (cs : List Char) :
    Except LexicalError (Token × Cursor) :=
  match symbol? c with
  | some t => .ok (t, ⟨position.after c, cs⟩)
  | none =>
    if c = '"' ∨ c = '\'' then
      (stringBody c position (position.after c) cs).map fun (body, next) =>
        (.string (String.ofList body), next)
    else if startsNumber c cs then
      let text := c :: cs.takeWhile isNumberChar
      match integerValue? text with
      | some n => .ok (.integer n, .past isNumberChar (position.after c) cs)
      | none => .error (.malformedInteger (String.ofList text) position)
    else if Text.isWordStart c then
      .ok (.word (String.ofList (c :: cs.takeWhile Text.isWord)),
        .past Text.isWord (position.after c) cs)
    else .error (.unexpectedCharacter c position)

/-! ## Progress -/

theorem length_skipGap (inComment : Bool) (position : Position) (cs : List Char) :
    (skipGap inComment position cs).rest.length ≤ cs.length := by
  induction cs generalizing inComment position with
  | nil => simp [skipGap]
  | cons c cs ih =>
    rw [skipGap]
    have h1 := ih true (position.after c)
    have h2 := ih false (position.after c)
    split
    · simp only [List.length_cons]; omega
    · split
      · simp only [List.length_cons]; omega
      · split
        · simp only [List.length_cons]; omega
        · exact Nat.le_refl _

theorem length_past (p : Char → Bool) (position : Position) (cs : List Char) :
    (Cursor.past p position cs).rest.length ≤ cs.length :=
  (List.dropWhile_sublist p).length_le

theorem length_stringBody {quote : Char} {opening position : Position} {cs body : List Char}
    {next : Cursor} (h : stringBody quote opening position cs = .ok (body, next)) :
    next.rest.length < cs.length := by
  fun_induction stringBody quote opening position cs generalizing body next with
  | case1 => simp at h
  | case2 => simp at h
  | case3 => simp at h
  | case4 position c cs value hc ih =>
    cases hs : stringBody quote opening ((position.after '\\').after c) cs with
    | error e => simp [hs, Except.map] at h
    | ok r =>
      simp only [hs, Except.map, Except.ok.injEq, Prod.mk.injEq] at h
      have := ih hs
      simp only [← h.2, List.length_cons]
      omega
  | case5 position cs =>
    simp only [Except.ok.injEq, Prod.mk.injEq] at h
    simp [← h.2]
  | case6 => simp at h
  | case7 position c cs _ _ _ _ ih =>
    cases hs : stringBody quote opening (position.after c) cs with
    | error e => simp [hs, Except.map] at h
    | ok r =>
      simp only [hs, Except.map, Except.ok.injEq, Prod.mk.injEq] at h
      have := ih hs
      simp only [← h.2, List.length_cons]
      omega

/-- A lexeme takes at least its first character. -/
theorem length_lexeme {position : Position} {c : Char} {cs : List Char} {t : Token}
    {next : Cursor} (h : lexeme position c cs = .ok (t, next)) :
    next.rest.length ≤ cs.length := by
  unfold lexeme at h
  split at h
  · simp only [Except.ok.injEq, Prod.mk.injEq] at h
    simp [← h.2]
  · split at h
    · cases hs : stringBody c position (position.after c) cs with
      | error e => simp [hs, Except.map] at h
      | ok r =>
        simp only [hs, Except.map, Except.ok.injEq, Prod.mk.injEq] at h
        have := length_stringBody hs
        simp only [← h.2]
        omega
    · split at h
      · simp only at h
        split at h
        · simp only [Except.ok.injEq, Prod.mk.injEq] at h
          rw [← h.2]
          exact length_past _ _ _
        · simp at h
      · split at h
        · simp only [Except.ok.injEq, Prod.mk.injEq] at h
          rw [← h.2]
          exact length_past _ _ _
        · simp at h

/-! ## Token sequences -/

set_option linter.unusedVariables false in
/-- The tokens from a cursor on. -/
def scanFrom (cursor : Cursor) : Except LexicalError TokenSequence :=
  match h : skipGap false cursor.position cursor.rest with
  | ⟨position, []⟩ => .ok ⟨[], position⟩
  | ⟨position, c :: cs⟩ =>
    match hl : lexeme position c cs with
    | .error e => .error e
    | .ok (t, next) =>
      match scanFrom next with
      | .error e => .error e
      | .ok tokens => .ok { tokens with items := ⟨t, position⟩ :: tokens.items }
termination_by cursor.rest.length
decreasing_by
  have h1 := length_skipGap false cursor.position cursor.rest
  have h2 := length_lexeme hl
  rw [h] at h1
  simp only [List.length_cons] at h1
  omega

/-- The tokens of a text. -/
def scan (text : String) : Except LexicalError TokenSequence :=
  scanFrom (.start text.toList)

end PropSchema
