/-
PropSchema.Json.Reader — reading JSON text.

The grammar is the standard one, without extensions: no comments, no trailing
commas, no leading zeros, no raw control characters in strings. Escapes in
strings have to be well-formed; whether they denote characters is the business
of whoever asks for the text. Blanks may stand around values and punctuation,
and nothing else may follow the outermost value.

Reading a value uses up fuel once per value and once per item or member. Each of
those takes at least one character, so fuel for every character, and one more,
is enough for any text.
-/
import PropSchema.Json.Basic

namespace PropSchema

namespace Json

/-- The characters that may stand between the parts of a JSON text. -/
def isSpace (c : Char) : Bool :=
  c = ' ' || c = '\t' || c = '\n' || c = '\r'

/-- A text without the blanks it starts with. -/
def skipSpace (cs : List Char) : List Char :=
  cs.dropWhile isSpace

/-! ## Strings -/

/-- The spelling of a string from behind its opening quote, and the text behind
its closing one. -/
def readLiteral : List Char → Option (List Char × List Char)
  | [] => none
  | '"' :: cs => some ([], cs)
  | '\\' :: 'u' :: a :: b :: c :: d :: cs =>
    match hexQuad? a b c d with
    | none => none
    | some _ =>
      (readLiteral cs).map fun (spelling, rest) =>
        ('\\' :: 'u' :: a :: b :: c :: d :: spelling, rest)
  | '\\' :: c :: cs =>
    match escapedChar? c with
    | none => none
    | some _ => (readLiteral cs).map fun (spelling, rest) => ('\\' :: c :: spelling, rest)
  | c :: cs =>
    if c = '\\' ∨ c.toNat < 0x20 then none
    else (readLiteral cs).map fun (spelling, rest) => (c :: spelling, rest)

/-! ## Numbers -/

/-- One or more digits, and the text behind them. -/
def readDigits (cs : List Char) : Option (List Char × List Char) :=
  let digits := cs.takeWhile Char.isDigit
  if digits.isEmpty then none else some (digits, cs.dropWhile Char.isDigit)

/-- The whole part of a number: `0`, or digits that do not start with it. -/
def readWhole : List Char → Option (List Char × List Char)
  | [] => none
  | '0' :: cs => if cs.head?.any Char.isDigit then none else some (['0'], cs)
  | cs => readDigits cs

/-- The decimal places of a number with their point, none if there is no point. -/
def readFraction : List Char → Option (List Char × List Char)
  | '.' :: cs => (readDigits cs).map fun (digits, rest) => ('.' :: digits, rest)
  | cs => some ([], cs)

/-- The sign of an exponent, if it has one. -/
def readExponentSign : List Char → List Char × List Char
  | '+' :: cs => (['+'], cs)
  | '-' :: cs => (['-'], cs)
  | cs => ([], cs)

/-- The exponent of a number with its letter, none if there is no letter. -/
def readExponent : List Char → Option (List Char × List Char)
  | [] => some ([], [])
  | c :: cs =>
    if c = 'e' ∨ c = 'E' then
      let (sign, rest) := readExponentSign cs
      (readDigits rest).map fun (digits, rest) => (c :: (sign ++ digits), rest)
    else some ([], c :: cs)

/-- A number without its minus sign. -/
def readMagnitude (cs : List Char) : Option (List Char × List Char) :=
  match readWhole cs with
  | none => none
  | some (whole, cs) =>
    match readFraction cs with
    | none => none
    | some (fraction, cs) =>
      (readExponent cs).map fun (exponent, cs) => (whole ++ fraction ++ exponent, cs)

/-- A number, and the text behind it. -/
def readNumber : List Char → Option (List Char × List Char)
  | '-' :: cs => (readMagnitude cs).map fun (spelling, rest) => ('-' :: spelling, rest)
  | cs => readMagnitude cs

/-! ## Values -/

/-- The value that is a single word or number, and the text behind it. -/
def readAtom : List Char → Option (Json × List Char)
  | 'n' :: 'u' :: 'l' :: 'l' :: cs => some (.null, cs)
  | 't' :: 'r' :: 'u' :: 'e' :: cs => some (.bool true, cs)
  | 'f' :: 'a' :: 'l' :: 's' :: 'e' :: cs => some (.bool false, cs)
  | cs => (readNumber cs).map fun (spelling, rest) => (.number spelling, rest)

mutual

/-- A value with the blanks before it, and the text behind it. -/
def readValue : Nat → List Char → Option (Json × List Char)
  | 0, _ => none
  | fuel + 1, cs =>
    match skipSpace cs with
    | '"' :: cs => (readLiteral cs).map fun (spelling, rest) => (.string spelling, rest)
    | '[' :: cs =>
      match skipSpace cs with
      | ']' :: cs => some (.array [], cs)
      | cs => (readItems fuel cs).map fun (items, rest) => (.array items, rest)
    | '\x7b' :: cs =>
      match skipSpace cs with
      | '\x7d' :: cs => some (.object [], cs)
      | cs => (readMembers fuel cs).map fun (members, rest) => (.object members, rest)
    | cs => readAtom cs

/-- The items of an array that is not empty, and the text behind its bracket. -/
def readItems : Nat → List Char → Option (List Json × List Char)
  | 0, _ => none
  | fuel + 1, cs =>
    match readValue fuel cs with
    | none => none
    | some (item, cs) =>
      match skipSpace cs with
      | ']' :: cs => some ([item], cs)
      | ',' :: cs => (readItems fuel cs).map fun (items, rest) => (item :: items, rest)
      | _ => none

/-- The members of an object that is not empty, and the text behind its brace. -/
def readMembers : Nat → List Char → Option (List (List Char × Json) × List Char)
  | 0, _ => none
  | fuel + 1, cs =>
    match skipSpace cs with
    | '"' :: cs =>
      match readLiteral cs with
      | none => none
      | some (name, cs) =>
        match skipSpace cs with
        | ':' :: cs =>
          match readValue fuel cs with
          | none => none
          | some (value, cs) =>
            match skipSpace cs with
            | '\x7d' :: cs => some ([(name, value)], cs)
            | ',' :: cs =>
              (readMembers fuel cs).map fun (members, rest) => ((name, value) :: members, rest)
            | _ => none
        | _ => none
    | _ => none

end

/-- The value that a whole text denotes. -/
def ofChars? (cs : List Char) : Option Json :=
  match readValue (cs.length + 1) cs with
  | none => none
  | some (value, rest) => if (skipSpace rest).isEmpty then some value else none

/-- The value that a whole string denotes. -/
def parse? (s : String) : Option Json :=
  ofChars? s.toList

/-! ## Looking into values -/

/-- The boolean that a value is. -/
def bool? : Json → Option Bool
  | .bool b => some b
  | _ => none

/-- The items of the array that a value is. -/
def items? : Json → Option (List Json)
  | .array items => some items
  | _ => none

/-- The integer that a value is, where it is spelled without point and exponent. -/
def int? : Json → Option Int
  | .number spelling => Number.integer? spelling
  | _ => none

/-- The members of the object that a value is, by the texts of their names. -/
def members? : Json → Option (List (String × Json))
  | .object members =>
    members.mapM fun (name, value) =>
      (unescape? name).map fun name => (String.ofList name, value)
  | _ => none

end Json

end PropSchema
