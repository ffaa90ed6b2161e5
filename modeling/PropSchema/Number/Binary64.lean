/-
PropSchema.Number.Binary64 — double-precision numbers as signs and ranks.

A double other than NaN is a sign and a magnitude, and the magnitudes that
occur are counted from zero upwards: rank 0 is zero, rank 1 the least positive
double, and so on through the subnormal and the normal numbers, `infiniteRank`
being the rank infinity would have. The rank is the bit pattern without its
sign, read as a number; what makes it the right coordinate is that `scaled`,
the magnitude in units of 2^-1074, is a strictly increasing function of it.

All NaN bit patterns are one value here, so equality of this type is equality
of bit patterns up to the choice of NaN. No operation of the machine's
floating-point unit is used anywhere: reading and writing are exact arithmetic
on ranks.
-/

namespace PropSchema.Number

/-- The number of doubles from one power of two to the next, 2^52. -/
def binade : Nat := 1 <<< 52

/-- The value of the sign's bit in a bit pattern, 2^63. -/
def signBit : Nat := 1 <<< 63

/-- The rank that infinity takes, one above that of the largest finite double. -/
def infiniteRank : Nat := 2047 * binade

/-- A double-precision number, all NaNs taken as one. -/
inductive Binary64 where
  | nan
  | infinite (negative : Bool)
  | finite (negative : Bool) (rank : Fin infiniteRank)
  deriving DecidableEq, Repr

namespace Binary64

/-- The magnitude of a rank as a multiple of 2^-1074: the ranks of the first two
binades count that unit itself, and the unit doubles with every further one. -/
def scaled (rank : Nat) : Nat :=
  if rank < binade then rank else (binade + rank % binade) <<< (rank / binade - 1)

/-- The double of the given sign and rank, infinite from `infiniteRank` on. -/
def ofRank (negative : Bool) (rank : Nat) : Binary64 :=
  if h : rank < infiniteRank then .finite negative ⟨rank, h⟩ else .infinite negative

/-- The double of a bit pattern: the top bit is the sign, the others are the
rank, and ranks above infinity are NaNs. -/
def ofBits (bits : UInt64) : Binary64 :=
  let rank := bits.toNat % signBit
  if infiniteRank < rank then .nan else ofRank (signBit ≤ bits.toNat) rank

/-- The sign and the rank of a bit pattern as one number. -/
def word (negative : Bool) (rank : Nat) : Nat :=
  (if negative then signBit else 0) + rank

/-- The bit pattern of a double, a quiet NaN without payload for `nan`. -/
def toBits : Binary64 → UInt64
  | .nan => UInt64.ofNat (word false (infiniteRank + binade / 2))
  | .infinite negative => UInt64.ofNat (word negative infiniteRank)
  | .finite negative rank => UInt64.ofNat (word negative rank.val)

/-- Zero of either sign. -/
def zero (negative : Bool) : Binary64 :=
  .finite negative ⟨0, by decide⟩

/-! ## Rounding to a rank -/

/-- The integer nearest to `num / den`, the even one of two equally near. -/
def nearestEven (num den : Nat) : Nat :=
  let quotient := num / den
  let twice := 2 * (num % den)
  if twice < den then quotient
  else if den < twice then quotient + 1
  else if quotient % 2 = 0 then quotient else quotient + 1

/-- The rank nearest to the magnitude `num / den`, given in units of 2^-1074,
with ties to the even rank. The quotient is brought below 2^53 by a power of
two first; where that needs `shift` halvings, ranks count steps of
2^`shift` units, from `shift` binades upwards. A result of `infiniteRank` or
more is an overflow. -/
def nearestRank (num den : Nat) : Nat :=
  let shift := (num / den).log2 - 52
  nearestEven num (den <<< shift) + shift * binade

/-! ## Laws -/

theorem signBit_eq : signBit = 9223372036854775808 := rfl

theorem ofBits_ofNat_word (negative : Bool) {rank : Nat} (h : rank < signBit) :
    ofBits (UInt64.ofNat (word negative rank))
      = if infiniteRank < rank then .nan else ofRank negative rank := by
  have hword : (UInt64.ofNat (word negative rank)).toNat = word negative rank := by
    rw [UInt64.toNat_ofNat']
    apply Nat.mod_eq_of_lt
    unfold word
    rw [signBit_eq] at h ⊢
    split <;> omega
  have hrank : word negative rank % signBit = rank := by
    unfold word
    rw [signBit_eq] at h ⊢
    split <;> omega
  have hsign : decide (signBit ≤ word negative rank) = negative := by
    unfold word
    rw [signBit_eq] at h ⊢
    cases negative with
    | false => exact decide_eq_false (by rw [if_neg (by decide)]; omega)
    | true => exact decide_eq_true (by rw [if_pos rfl]; omega)
  simp only [ofBits, hword, hrank, hsign]

/-- Every double is the double of its bit pattern. -/
theorem ofBits_toBits (x : Binary64) : ofBits (toBits x) = x := by
  cases x with
  | nan => rw [toBits, ofBits_ofNat_word false (by decide), if_pos (by decide)]
  | infinite negative =>
    rw [toBits, ofBits_ofNat_word negative (by decide), if_neg (by decide), ofRank,
      dif_neg (by decide)]
  | finite negative rank =>
    have hlt : rank.val < infiniteRank := rank.isLt
    have hword : rank.val < signBit := Nat.lt_trans hlt (by decide)
    rw [toBits, ofBits_ofNat_word negative hword, if_neg (Nat.not_lt.2 (Nat.le_of_lt hlt)), ofRank,
      dif_pos hlt]

end Binary64

end PropSchema.Number
