/-
PropSchema.Number.DoubleText — the texts of doubles.

Three texts are dealt with. `readDouble?` reads any of the usual spellings and
refuses what is out of range. `doubleText` is the canonical spelling, the
shorter of the positional and the scientific form of the shortest decimal
(positional if they are equally long). `doubleDiagnostic` is the spelling
inside messages: always with a decimal place, and scientific from 10^16 up and
below 10^-4.
-/
import PropSchema.Text.Ascii
import PropSchema.Number.Numeral
import PropSchema.Number.Shortest

namespace PropSchema.Number

/-! ## Writing -/

/-- A decimal without an exponent: zeros fill up to the units place, and a point
is written only before decimal places. -/
def Decimal.positional (d : Decimal) : List Char :=
  let digits := decimal d.coefficient
  match d.exponent with
  | .ofNat e => digits ++ List.replicate e '0'
  | .negSucc e =>
    let places := e + 1
    if digits.length ≤ places then
      '0' :: '.' :: (List.replicate (places - digits.length) '0' ++ digits)
    else
      digits.take (digits.length - places) ++ '.' :: digits.drop (digits.length - places)

/-- A decimal with one digit before the point and a power of ten: `1e300`,
`1.5e-7`. -/
def Decimal.scientific (d : Decimal) : List Char :=
  match decimal d.coefficient with
  | [] => []
  | [lead] => lead :: 'e' :: signedDecimal d.exponent
  | lead :: places => lead :: '.' :: (places ++ 'e' :: signedDecimal (d.exponent + places.length))

/-- A text with a sign in front if it stands for a negative number. -/
def signed (negative : Bool) (text : List Char) : List Char :=
  if negative then '-' :: text else text

/-- The canonical text of a finite magnitude. -/
def magnitudeText (rank : Nat) : List Char :=
  if rank = 0 then ['0']
  else
    let d := Binary64.shortest rank
    if d.scientific.length < d.positional.length then d.scientific else d.positional

/-- The canonical text of a double. -/
def doubleText : Binary64 → List Char
  | .nan => "NaN".toList
  | .infinite negative => signed negative "inf".toList
  | .finite negative rank => signed negative (magnitudeText rank.val)

/-- The text of a finite magnitude in messages. -/
def magnitudeDiagnostic (rank : Nat) : List Char :=
  if rank = 0 then "0.0".toList
  else
    let d := Binary64.shortest rank
    let places := (decimal d.coefficient).length + d.exponent
    if 16 < places ∨ places < -3 then d.scientific
    else if 0 ≤ d.exponent then d.positional ++ ".0".toList
    else d.positional

/-- The text of a double in messages. -/
def doubleDiagnostic : Binary64 → List Char
  | .nan => "NaN".toList
  | .infinite negative => signed negative "inf".toList
  | .finite negative rank => signed negative (magnitudeDiagnostic rank.val)

/-! ## Reading -/

/-- A sign in front of a text, if there is one, and what follows it. -/
def signOf : List Char → Bool × List Char
  | '+' :: cs => (false, cs)
  | '-' :: cs => (true, cs)
  | cs => (false, cs)

/-- The digits a text starts with, and what follows them. -/
def digitRun (cs : List Char) : List Char × List Char :=
  (cs.takeWhile Char.isDigit, cs.dropWhile Char.isDigit)

/-- The digits after a decimal point, if there is one, and what follows them. -/
def fractionOf : List Char → List Char × List Char
  | '.' :: cs => digitRun cs
  | cs => ([], cs)

/-- The power of ten a numeral ends with, zero where it has none. -/
def exponentOf? : List Char → Option Int
  | [] => some 0
  | c :: cs => if c = 'e' ∨ c = 'E' then integer? cs else none

/-- An unsigned decimal numeral: digits with an optional point, at least one
digit in all, and an optional power of ten. -/
def decimal? (cs : List Char) : Option Decimal :=
  let (whole, afterWhole) := digitRun cs
  let (fraction, afterFraction) := fractionOf afterWhole
  match natural? 10 (whole ++ fraction), exponentOf? afterFraction with
  | some coefficient, some exponent => some ⟨coefficient, exponent - fraction.length⟩
  | _, _ => none

/-- The double a text denotes: `inf`, `infinity` and `nan` in any case and
decimal numerals, each with an optional sign. A numeral that is not zero but
rounds to zero, and one that rounds to infinity, denotes none. -/
def readDouble? (cs : List Char) : Option Binary64 :=
  let (negative, body) := signOf cs
  let word := Text.foldCase body
  if word = "INF".toList ∨ word = "INFINITY".toList then some (.infinite negative)
  else if word = "NAN".toList then some .nan
  else (decimal? body).bind (Decimal.binary64? negative)

end PropSchema.Number
