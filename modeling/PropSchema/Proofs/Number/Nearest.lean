/-
PropSchema.Proofs.Number.Nearest — the nearest rank, said of rational numbers.

A rank stands for the magnitude that the fields of its bits denote. The nearest rank to a rational
number is the one at the least distance from it, and the even one of two at the same distance;
ranks go on above those of finite doubles as if there were no largest exponent, and a number
whose nearest rank is up there overflows. That is what being in a rank's cell comes to, and so
what `Decimal.rank` finds, apart from how far above the finite doubles it is.

§1 Magnitudes — `magnitude`, and distances from it.
§2 Nearest    — `isNearest_iff_inCell`.
§3 Decimals   — the double nearest to a decimal.
-/
import PropSchema.Proofs.Number.DoubleTexts
import Mathlib.Algebra.Order.Field.Basic
import Mathlib.Algebra.Order.Ring.Abs
import Mathlib.Data.Rat.Cast.Order
import Mathlib.Tactic.FieldSimp
import Mathlib.Tactic.Linarith
import Mathlib.Tactic.Ring

namespace PropSchema.Number

/-! ## §1 Magnitudes -/

/-- The magnitude that the bits of a rank denote: the 52 bits of the fraction, with another one in
front of them unless all bits of the exponent are zero, times a power of two. -/
def magnitude (rank : Nat) : ℚ :=
  if rank / 2 ^ 52 = 0 then (rank % 2 ^ 52 : Nat) * 2 ^ (-1074 : Int)
  else (2 ^ 52 + rank % 2 ^ 52 : Nat) * 2 ^ ((rank / 2 ^ 52 : Nat) - 1075 : Int)

/-- Whether a rank is the nearest one to a number, being even if another is as near. -/
structure IsNearest (q : ℚ) (rank : Nat) : Prop where
  nearest : ∀ other, |q - magnitude rank| ≤ |q - magnitude other|
  even : ∀ other, other ≠ rank → |q - magnitude rank| = |q - magnitude other| → rank % 2 = 0

theorem magnitude_eq (rank : Nat) : magnitude rank = (Binary64.scaled rank : ℚ) / 2 ^ 1074 := by
  have hbinade : binade = 2 ^ 52 := by decide
  have htwo : (2 : ℚ) ≠ 0 := by decide
  unfold magnitude Binary64.scaled
  rw [hbinade]
  by_cases hsmall : rank < 2 ^ 52
  · rw [if_pos (Nat.div_eq_of_lt hsmall), if_pos hsmall, Nat.mod_eq_of_lt hsmall, zpow_neg,
      div_eq_mul_inv]
    rfl
  · have hpos : 1 ≤ rank / 2 ^ 52 := (Nat.le_div_iff_mul_le (by decide)).2 (by omega)
    have hexponent : ((rank / 2 ^ 52 : Nat) - 1075 : Int) = (rank / 2 ^ 52 - 1 : Nat) - (1074 : Nat) := by
      omega
    rw [if_neg (by omega), if_neg hsmall, hexponent, zpow_sub₀ htwo, zpow_natCast, zpow_natCast,
      Nat.shiftLeft_eq, ← mul_div_assoc]
    push_cast
    rfl

/-- Of two magnitudes the smaller is not further away just below their middle. -/
theorem abs_sub_le_iff_of_lt {q a b : ℚ} (h : a < b) : |q - a| ≤ |q - b| ↔ q + q ≤ a + b := by
  rw [← sq_le_sq]
  constructor
  · intro hle
    by_contra hlt
    nlinarith
  · intro hle
    nlinarith

/-- And the greater is not further away just above it. -/
theorem abs_sub_le_iff_of_gt {q a b : ℚ} (h : a < b) : |q - b| ≤ |q - a| ↔ a + b ≤ q + q := by
  rw [← sq_le_sq]
  constructor
  · intro hle
    by_contra hlt
    nlinarith
  · intro hle
    nlinarith

/-! ## §2 Nearest -/

/-- A number in half units, as a fraction, against the middle between two magnitudes. -/
theorem middle_iff {q : ℚ} {point den : Nat} (hden : 0 < den)
    (hq : q = (point : ℚ) / (den * 2 ^ 1075)) (a b : Nat) :
    (q + q ≤ magnitude a + magnitude b ↔
        point ≤ (Binary64.scaled a + Binary64.scaled b) * den) ∧
      (magnitude a + magnitude b ≤ q + q ↔
        (Binary64.scaled a + Binary64.scaled b) * den ≤ point) := by
  have hunit : (0 : ℚ) < 2 ^ 1074 := by positivity
  have hden' : (0 : ℚ) < den := by exact_mod_cast hden
  have htwice : q + q = (point : ℚ) / den / 2 ^ 1074 := by
    rw [hq, pow_succ]
    generalize (2 : ℚ) ^ 1074 = unit at hunit
    field_simp
    ring
  have hsum : magnitude a + magnitude b
      = ((Binary64.scaled a + Binary64.scaled b : Nat) : ℚ) / 2 ^ 1074 := by
    rw [magnitude_eq, magnitude_eq, ← add_div]
    push_cast
    rfl
  rw [htwice, hsum, div_le_div_iff_of_pos_right hunit, div_le_div_iff_of_pos_right hunit,
    div_le_iff₀ hden', le_div_iff₀ hden']
  exact ⟨by exact_mod_cast Iff.rfl, by exact_mod_cast Iff.rfl⟩

theorem magnitude_lt_magnitude {a b : Nat} (h : a < b) : magnitude a < magnitude b := by
  have hunit : (0 : ℚ) < 2 ^ 1074 := by positivity
  rw [magnitude_eq, magnitude_eq, div_lt_div_iff_of_pos_right hunit]
  exact_mod_cast Binary64.scaled_lt_scaled h

/-- Which of two ranks is nearer is told by the middle between them. -/
theorem nearer_iff {q : ℚ} {point den : Nat} (hden : 0 < den)
    (hq : q = (point : ℚ) / (den * 2 ^ 1075)) {a b : Nat} (h : a < b) :
    (|q - magnitude a| ≤ |q - magnitude b| ↔
        point ≤ (Binary64.scaled a + Binary64.scaled b) * den) ∧
      (|q - magnitude b| ≤ |q - magnitude a| ↔
        (Binary64.scaled a + Binary64.scaled b) * den ≤ point) := by
  have hlt := magnitude_lt_magnitude h
  obtain ⟨hlower, hupper⟩ := middle_iff hden hq a b
  exact ⟨(abs_sub_le_iff_of_lt hlt).trans hlower, (abs_sub_le_iff_of_gt hlt).trans hupper⟩

/-- A nearest rank has the number in its cell: it is not nearer to the ranks next to it. -/
theorem IsNearest.inCell {q : ℚ} {rank point den : Nat} (hden : 0 < den)
    (hq : q = (point : ℚ) / (den * 2 ^ 1075)) (h : IsNearest q rank) :
    Binary64.InCell rank point den := by
  have habove := nearer_iff hden hq (Nat.lt_succ_self rank)
  have hupper : point ≤ Binary64.upperEnd rank * den := habove.1.1 (h.nearest _)
  have hupper' : rank % 2 ≠ 0 → point ≠ Binary64.upperEnd rank * den := by
    intro hodd heq
    have htie := le_antisymm (h.nearest (rank + 1)) (habove.2.2 (Nat.le_of_eq heq.symm))
    exact hodd (h.even _ (Nat.succ_ne_self rank) htie)
  cases rank with
  | zero =>
    have hlower : Binary64.lowerEnd 0 * den ≤ point := by
      simp [Binary64.lowerEnd, Binary64.scaled_zero]
    exact ⟨hlower, hupper⟩
  | succ rank =>
    have hbelow := nearer_iff hden hq (Nat.lt_succ_self rank)
    have hlower : Binary64.lowerEnd (rank + 1) * den ≤ point := hbelow.2.1 (h.nearest _)
    have hlower' : (rank + 1) % 2 ≠ 0 → Binary64.lowerEnd (rank + 1) * den ≠ point := by
      intro hodd heq
      have htie := le_antisymm (h.nearest rank) (hbelow.1.2 (Nat.le_of_eq heq.symm))
      exact hodd (h.even _ (Nat.succ_ne_self rank).symm htie)
    unfold Binary64.InCell
    split
    · exact ⟨hlower, hupper⟩
    · rename_i hodd
      exact ⟨Nat.lt_of_le_of_ne hlower (hlower' hodd), Nat.lt_of_le_of_ne hupper (hupper' hodd)⟩

/-- A rank with the number in its cell is a nearest one: the others are further out than those
next to it. -/
theorem isNearest_of_inCell {q : ℚ} {rank point den : Nat} (hden : 0 < den)
    (hq : q = (point : ℚ) / (den * 2 ^ 1075)) (h : Binary64.InCell rank point den) :
    IsNearest q rank := by
  have hbelow : ∀ other, other < rank →
      (Binary64.scaled other + Binary64.scaled rank) * den ≤ Binary64.lowerEnd rank * den :=
    fun other hother => Nat.mul_le_mul_right den
      (Nat.add_le_add_right (Binary64.scaled_le_scaled (by omega)) _)
  have habove : ∀ other, rank < other →
      Binary64.upperEnd rank * den ≤ (Binary64.scaled rank + Binary64.scaled other) * den :=
    fun other hother => Nat.mul_le_mul_right den
      (Nat.add_le_add_left (Binary64.scaled_le_scaled (by omega)) _)
  constructor
  · intro other
    rcases Nat.lt_trichotomy other rank with hother | rfl | hother
    · exact (nearer_iff hden hq hother).2.2 ((hbelow other hother).trans h.lower_le)
    · exact le_refl _
    · exact (nearer_iff hden hq hother).1.2 (h.le_upper.trans (habove other hother))
  · intro other hne htie
    by_contra hodd
    rw [Binary64.InCell, if_neg hodd] at h
    rcases Nat.lt_or_gt_of_ne hne with hother | hother
    · have hle := (nearer_iff hden hq hother).1.1 htie.symm.le
      have hlow := hbelow other hother
      omega
    · have hle := (nearer_iff hden hq hother).2.1 htie.symm.le
      have hhigh := habove other hother
      omega

/-- **The nearest rank to a number is the one whose cell it is in.** -/
theorem isNearest_iff_inCell {q : ℚ} {rank point den : Nat} (hden : 0 < den)
    (hq : q = (point : ℚ) / (den * 2 ^ 1075)) :
    IsNearest q rank ↔ Binary64.InCell rank point den :=
  ⟨IsNearest.inCell hden hq, isNearest_of_inCell hden hq⟩

/-! ## §3 Decimals -/

namespace Decimal

/-- The number that a decimal is. -/
def value (d : Decimal) : ℚ :=
  d.coefficient * 10 ^ d.exponent

theorem value_ofNat (coefficient e shift : Nat) :
    value ⟨coefficient, .ofNat e⟩ =
      ((coefficient * (tenTo e <<< shift) : Nat) : ℚ) / ((1 : Nat) * 2 ^ shift) := by
  have hunit : (0 : ℚ) < 2 ^ shift := by positivity
  rw [value, Int.ofNat_eq_natCast, zpow_natCast, Nat.shiftLeft_eq, tenTo_eq]
  push_cast
  field_simp

theorem value_negSucc (coefficient e shift : Nat) :
    value ⟨coefficient, .negSucc e⟩ =
      ((coefficient * (1 <<< shift) : Nat) : ℚ) / ((tenTo (e + 1) : Nat) * 2 ^ shift) := by
  have hunit : (0 : ℚ) < 2 ^ shift := by positivity
  rw [value, zpow_negSucc, Nat.shiftLeft_eq, tenTo_eq]
  push_cast
  field_simp

/-- A decimal in half units, as a fraction. -/
theorem value_eq (d : Decimal) :
    d.value = ((d.coefficient * (Binary64.gridScale d.exponent).1 : Nat) : ℚ) /
      ((Binary64.gridScale d.exponent).2 * 2 ^ 1075) := by
  obtain ⟨coefficient, exponent⟩ := d
  cases exponent with
  | ofNat e => exact value_ofNat coefficient e 1075
  | negSucc e => exact value_negSucc coefficient e 1075

/-- The nearest rank to a decimal is the one that it rounds to. -/
theorem isNearest_value_iff {d : Decimal} {rank : Nat} :
    IsNearest d.value rank ↔ Binary64.roundsTo rank d.exponent d.coefficient = true := by
  rw [Binary64.roundsTo_iff]
  exact isNearest_iff_inCell (Binary64.gridScale_pos d.exponent).2 d.value_eq

variable {d : Decimal} {rank : Nat}

theorem value_eq_zero_iff : d.value = 0 ↔ d.coefficient = 0 := by
  have hpower : (10 : ℚ) ^ d.exponent ≠ 0 := zpow_ne_zero _ (by decide)
  rw [value, mul_eq_zero, or_iff_left hpower, Nat.cast_eq_zero]

/-- There is a nearest rank to every decimal. -/
theorem exists_isNearest (d : Decimal) : ∃ rank, IsNearest d.value rank := by
  obtain ⟨coefficient, exponent⟩ := d
  have hden := (Binary64.gridScale_pos exponent).2
  obtain ⟨num, hnum⟩ : ∃ num, coefficient * (Binary64.gridScale exponent).1 = 2 * num := by
    cases exponent with
    | ofNat e => exact ⟨_, (mul_shiftLeft _ _ _).symm.trans (shiftLeft_half_units _)⟩
    | negSucc e => exact ⟨_, (mul_shiftLeft _ _ _).symm.trans (shiftLeft_half_units _)⟩
  refine ⟨Binary64.nearestRank num (Binary64.gridScale exponent).2, isNearest_value_iff.2 ?_⟩
  rw [Binary64.roundsTo_iff, hnum]
  exact Binary64.inCell_nearestRank num hden

/-- A decimal is rounded to the nearest rank, or to one of those that overflow if the nearest one
does. -/
theorem rank_of_isNearest (h : IsNearest d.value rank) :
    d.rank = rank ∨ infiniteRank ≤ d.rank ∧ infiniteRank ≤ rank := by
  have hcell := isNearest_value_iff.1 h
  obtain ⟨coefficient, exponent⟩ := d
  by_cases hzero : coefficient = 0
  · left
    rw [rank_eq_zero hzero]
    by_contra hne
    exact Binary64.coefficient_ne_zero_of_roundsTo (Nat.pos_of_ne_zero (Ne.symm hne)) hcell hzero
  cases exponent with
  | ofNat e =>
    by_cases he : e ≤ 310
    · exact .inl (rank_ofNat_eq hzero he hcell)
    · right
      have hrank : Decimal.rank ⟨coefficient, .ofNat e⟩ = infiniteRank := by
        simp only [Decimal.rank]
        rw [if_neg hzero, if_pos (by omega)]
      refine ⟨Nat.le_of_eq hrank.symm, ?_⟩
      by_contra hlt
      exact he (Binary64.exponent_le_of_roundsTo (Nat.lt_of_not_le hlt) hzero hcell)
  | negSucc e =>
    left
    by_cases he : e ≤ coefficient.log2 + 400
    · exact rank_negSucc_eq he hcell
    · have hrank : Decimal.rank ⟨coefficient, .negSucc e⟩ = 0 := by
        simp only [Decimal.rank]
        rw [if_pos (by omega)]
      rw [hrank]
      by_contra hne
      exact he (Binary64.places_le_of_roundsTo (Nat.pos_of_ne_zero (Ne.symm hne)) hcell)

theorem rank_eq_of_isNearest (h : IsNearest d.value rank)
    (hfinite : d.rank < infiniteRank ∨ rank < infiniteRank) : d.rank = rank := by
  rcases rank_of_isNearest h with heq | ⟨hover, hover'⟩
  · exact heq
  · omega

/-- **The nearest double to a decimal is that of the nearest rank**, and infinity if that rank is
above those of finite doubles. -/
theorem nearest_eq (negative : Bool) (h : IsNearest d.value rank) :
    d.nearest negative = .ofRank negative rank := by
  unfold nearest
  rcases rank_of_isNearest h with heq | ⟨hover, hover'⟩
  · rw [heq]
  · rw [Binary64.ofRank, Binary64.ofRank, dif_neg (Nat.not_lt.2 hover),
      dif_neg (Nat.not_lt.2 hover')]

/-- **A decimal gives a double just if it is in range**: if the nearest rank is that of a finite
double, and not zero unless the decimal is. -/
theorem binary64?_eq_some_iff {negative : Bool} {x : Binary64} :
    d.binary64? negative = some x ↔
      ∃ rank, ∃ hfinite : rank < infiniteRank, IsNearest d.value rank ∧
        (rank = 0 → d.value = 0) ∧ x = .finite negative ⟨rank, hfinite⟩ := by
  obtain ⟨rank, hnear⟩ := exists_isNearest d
  constructor
  · intro h
    unfold binary64? at h
    split at h
    · rename_i hzero
      obtain rfl := Option.some.inj h
      have hrank : d.rank = 0 := rank_eq_zero hzero
      obtain rfl : 0 = rank :=
        hrank.symm.trans (rank_eq_of_isNearest hnear (.inl (hrank ▸ by decide)))
      exact ⟨0, by decide, hnear, fun _ => value_eq_zero_iff.2 hzero, rfl⟩
    · split at h
      · rename_i hrange
        obtain rfl := Option.some.inj h
        have hrank : d.rank = rank := rank_eq_of_isNearest hnear (.inl hrange.2)
        refine ⟨d.rank, hrange.2, hrank ▸ hnear, fun hzero => ?_, rfl⟩
        exact absurd hrange.1 (by omega)
      · cases h
  · rintro ⟨rank', hfinite, hnear', hzero, rfl⟩
    obtain rfl : d.rank = rank' := rank_eq_of_isNearest hnear' (.inr hfinite)
    unfold binary64?
    split
    · rename_i hcoefficient
      simp [Binary64.zero, rank_eq_zero hcoefficient]
    · rename_i hcoefficient
      have hpos : 0 < d.rank := by
        rw [Nat.pos_iff_ne_zero]
        exact fun h => hcoefficient (value_eq_zero_iff.1 (hzero h))
      rw [dif_pos ⟨hpos, hfinite⟩]

end Decimal

end PropSchema.Number
