/-
PropSchema.Value.Codec — the stored text of typed values.

Decoding is total: a text that does not fit the descriptor has no value, and a
list has none as soon as one of its elements has none. Encoding is for values
that fit; giving it any other is a misuse, and the first element that does not
fit is the one reported.

Booleans have two encodings, `true`/`false` and the digits `1`/`0`, and decoding
accepts both in any ASCII case. Integers are decimal with an optional sign, or
hexadecimal after `0x` without one.
-/
import PropSchema.Value.Basic

namespace PropSchema

/-! ## Decoding -/

/-- The boolean that a text denotes. -/
def booleanValue? (raw : List Char) : Option Bool :=
  let word := Text.foldCase raw
  if word = ['1'] ∨ word = "TRUE".toList then some true
  else if word = ['0'] ∨ word = "FALSE".toList then some false
  else none

/-- The integer that a text denotes. -/
def integerValueOf? : List Char → Option Int
  | '0' :: 'x' :: digits => (Number.natural? 16 digits).map Int.ofNat
  | '0' :: 'X' :: digits => (Number.natural? 16 digits).map Int.ofNat
  | digits => Number.integer? digits

namespace Descriptor

/-- The single value that a text denotes. -/
def decodeItem (d : Descriptor) (raw : String) : Option Value :=
  match d.type.kind with
  | .boolean => (booleanValue? raw.toList).map .bool
  | .int32 => ((integerValueOf? raw.toList).bind Number.int32?).map .int
  | .int64 => ((integerValueOf? raw.toList).bind Number.int64?).map .long
  | .double => (Number.readDouble? raw.toList).map .double
  | .string => some (.string raw)
  | .enumeration => (d.ordinal? raw).map .ordinal

/-- The value that a text denotes. A list has one element more than the text has
commas. -/
def decode (d : Descriptor) (raw : String) : Option Value :=
  if d.type.isList then ((Text.pieces ',' raw).mapM d.decodeItem).map .list
  else d.decodeItem raw

end Descriptor

/-! ## Encoding -/

/-- Why a value cannot be encoded. -/
inductive Misuse where
  | otherKind (value : Value) (kind : Kind)
  | notList (value : Value)
  | noSymbol (ordinal : Nat) (symbols : List String)
  | notBoolean (value : Value)
  deriving Repr

/-- The wording of a misuse. -/
def Misuse.message : Misuse → String
  | .otherKind value kind => "value " ++ value.text ++ " does not match " ++ kind.name
  | .notList value => "expected a list value, found " ++ value.text
  | .noSymbol ordinal symbols =>
    "Invalid enum ordinal " ++ Number.decimalText ordinal ++ " for symbols " ++
      Text.quoteList symbols
  | .notBoolean value => "integer_as_bool needs a boolean, found " ++ value.text

namespace Descriptor

/-- The text of a single value. -/
def encodeItem (d : Descriptor) (value : Value) : Except Misuse String :=
  match d.type.kind, value with
  | .boolean, .bool b => .ok (if b then "true" else "false")
  | .int32, .int n => .ok (Number.signedDecimalText n.toInt)
  | .int64, .long n => .ok (Number.signedDecimalText n.toInt)
  | .double, .double x => .ok (String.ofList (Number.doubleText x))
  | .string, .string s => .ok s
  | .enumeration, .ordinal n =>
    match d.symbol? n with
    | some symbol => .ok symbol
    | none => .error (.noSymbol n d.symbols)
  | kind, value => .error (.otherKind value kind)

/-- The texts of values in order, up to the first that has none. -/
def encodeItems (d : Descriptor) : List Value → Except Misuse (List String)
  | [] => .ok []
  | value :: values =>
    match d.encodeItem value with
    | .error e => .error e
    | .ok text => (d.encodeItems values).map (text :: ·)

/-- The text of a value: the elements of a list are separated by commas. -/
def encode (d : Descriptor) (value : Value) : Except Misuse String :=
  if d.type.isList then
    match value with
    | .list items => (d.encodeItems items).map (Text.joined ',')
    | value => .error (.notList value)
  else d.encodeItem value

end Descriptor

/-- The digit of a boolean. -/
def digitOf : Value → Except Misuse String
  | .bool b => .ok (if b then "1" else "0")
  | value => .error (.notBoolean value)

/-- The digits of booleans in order, up to the first value that is none. -/
def digitsOf : List Value → Except Misuse (List String)
  | [] => .ok []
  | value :: values =>
    match digitOf value with
    | .error e => .error e
    | .ok text => (digitsOf values).map (text :: ·)

/-- The text of booleans as digits: of one boolean, or of a list of them,
whatever list-ness is declared. -/
def encodeAsDigits : Value → Except Misuse String
  | .list items => (digitsOf items).map (Text.joined ',')
  | value => digitOf value

end PropSchema
