/-
PropSchema.Number.Numeral — whole numbers as text.

`decimal` writes a natural number in the one canonical way: no sign, no
leading zeros, `0` for zero. `natural?` reads more than that, namely any
non-empty run of digits of its base, however many leading zeros it has;
`natural?_decimal` says it reads back what `decimal` writes. `integer?` adds a
single optional sign. No reader wraps around: the machine ranges are a
separate question, answered by `int32?` and `int64?` on the exact value.
-/

namespace PropSchema.Number

/-! ## Writing -/

/-- The decimal digit of a number below ten. -/
def digitChar (d : Nat) : Char :=
  Char.ofNat ('0'.toNat + d)

/-- The hexadecimal digit of a number below sixteen, in lower case. -/
def hexDigitChar (d : Nat) : Char :=
  if d < 10 then digitChar d else Char.ofNat ('a'.toNat + (d - 10))

/-- The canonical decimal numeral of a natural number. -/
def decimal (n : Nat) : List Char :=
  if n < 10 then [digitChar n] else decimal (n / 10) ++ [digitChar (n % 10)]
termination_by n

/-- The canonical decimal numeral of an integer: `-` only before a negative one. -/
def signedDecimal : Int → List Char
  | .ofNat n => decimal n
  | .negSucc n => '-' :: decimal (n + 1)

/-- `decimal` as a string. -/
def decimalText (n : Nat) : String :=
  String.ofList (decimal n)

/-- `signedDecimal` as a string. -/
def signedDecimalText (n : Int) : String :=
  String.ofList (signedDecimal n)

/-! ## Reading -/

/-- The value of a digit: `0` to `9`, then `a` to `f` in either case. -/
def hexValue? (c : Char) : Option Nat :=
  if c.isDigit then some (c.toNat - '0'.toNat)
  else if 'a' ≤ c ∧ c ≤ 'f' then some (c.toNat - 'a'.toNat + 10)
  else if 'A' ≤ c ∧ c ≤ 'F' then some (c.toNat - 'A'.toNat + 10)
  else none

/-- The value of a digit of the given base, which is at most sixteen. -/
def digitValue? (base : Nat) (c : Char) : Option Nat :=
  (hexValue? c).filter (· < base)

/-- The positional value of a run of digits, continuing from `acc`. -/
def digitsValue? (base : Nat) : Nat → List Char → Option Nat
  | acc, [] => some acc
  | acc, c :: cs =>
    match digitValue? base c with
    | some d => digitsValue? base (base * acc + d) cs
    | none => none

/-- The value of a non-empty run of digits. -/
def natural? (base : Nat) (cs : List Char) : Option Nat :=
  if cs.isEmpty then none else digitsValue? base 0 cs

/-- The value of a decimal numeral with at most one sign, `+` or `-`. -/
def integer? : List Char → Option Int
  | '+' :: cs => (natural? 10 cs).map Int.ofNat
  | '-' :: cs => (natural? 10 cs).map fun n => -(n : Int)
  | cs => (natural? 10 cs).map Int.ofNat

/-! ## Machine ranges -/

/-- The 32-bit integer of the given value, if there is one. -/
def int32? (n : Int) : Option Int32 :=
  if -2147483648 ≤ n ∧ n ≤ 2147483647 then some (Int32.ofInt n) else none

/-- The 64-bit integer of the given value, if there is one. -/
def int64? (n : Int) : Option Int64 :=
  if -9223372036854775808 ≤ n ∧ n ≤ 9223372036854775807 then some (Int64.ofInt n) else none

/-! ## Laws -/

theorem digitValue?_digitChar {d : Nat} (h : d < 10) : digitValue? 10 (digitChar d) = some d := by
  have : ∀ d : Fin 10, digitValue? 10 (digitChar d.val) = some d.val := by decide
  exact this ⟨d, h⟩

theorem digitsValue?_append (base acc : Nat) (cs ds : List Char) :
    digitsValue? base acc (cs ++ ds)
      = (digitsValue? base acc cs).bind fun n => digitsValue? base n ds := by
  induction cs generalizing acc with
  | nil => rfl
  | cons c cs ih =>
    rw [List.cons_append, digitsValue?, digitsValue?]
    cases digitValue? base c with
    | none => rfl
    | some d => exact ih _

theorem decimal_ne_nil (n : Nat) : decimal n ≠ [] := by
  rw [decimal]
  split <;> simp

theorem digitsValue?_decimal (n : Nat) : digitsValue? 10 0 (decimal n) = some n := by
  induction n using Nat.strongRecOn with
  | _ n ih =>
    rw [decimal]
    split
    · rename_i h
      simp [digitsValue?, digitValue?_digitChar h]
    · rename_i h
      rw [digitsValue?_append, ih (n / 10) (by omega)]
      simp only [Option.bind_some, digitsValue?, digitValue?_digitChar (Nat.mod_lt n (by decide)),
        Option.some.injEq]
      omega

/-- A canonical numeral is read back as its number. -/
theorem natural?_decimal (n : Nat) : natural? 10 (decimal n) = some n := by
  rw [natural?, if_neg (by simp [decimal_ne_nil n]), digitsValue?_decimal]

end PropSchema.Number
