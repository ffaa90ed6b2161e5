/-
PropSchema.Proofs.Number.Rounding — the nearest rank is the one whose cell
holds the magnitude, and shortest decimals round back.

The reals that round to a rank form its cell: from half-way to the rank below
to half-way to the rank above, with the ends for even ranks and without them
for odd ones. Cells of different ranks have no point in common, so that a
magnitude in a cell can only round to that cell's rank. Lengths are in half
units, multiples of 2^-1075, as in `shortest`.

§1 Scale    — `scaled` inside a binade, and that it is strictly increasing.
§2 Cells    — `InCell`, and that cells are disjoint.
§3 Nearest  — `nearestRank_eq_iff`: the nearest rank is that of the cell.
§4 Decimals — the rank of a decimal in a cell.
§5 Shortest — some grid has a point in every cell, so `shortest` finds one:
   `rank_shortest`.
-/
import PropSchema.Number.Shortest
import Mathlib.Algebra.Group.Nat.Defs

namespace PropSchema.Number

namespace Binary64

/-! ## §1 Scale -/

theorem binade_eq : binade = 4503599627370496 := rfl

theorem infiniteRank_eq : infiniteRank = 2047 * binade := rfl

/-- From the first rank of a binade to the first of the next one, the magnitude
counts steps of one length; the ranks below the first power of two are counted
in the same steps as those right above it. -/
theorem scaled_add_mul_binade {m shift : Nat} (hlow : shift = 0 ∨ binade ≤ m)
    (hhigh : m ≤ 2 * binade) : scaled (m + shift * binade) = m * 2 ^ shift := by
  have hb : 0 < binade := by decide
  unfold scaled
  by_cases hsmall : m + shift * binade < binade
  · have hshift : shift = 0 := by
      rcases hlow with h | h
      · exact h
      · omega
    subst hshift
    simp
    omega
  rw [if_neg hsmall, Nat.shiftLeft_eq]
  rcases Nat.eq_or_lt_of_le hhigh with rfl | hlt
  · -- the last rank counted here is the first of the next binade
    have hdiv : (2 * binade + shift * binade) / binade = shift + 2 := by
      rw [← Nat.add_mul, Nat.mul_div_cancel _ hb]
      omega
    have hmod : (2 * binade + shift * binade) % binade = 0 := by
      rw [← Nat.add_mul, Nat.mul_mod_left]
    rw [hdiv, hmod, show shift + 2 - 1 = shift + 1 from rfl, Nat.pow_succ]
    simp only [Nat.add_zero]
    rw [Nat.mul_comm (2 ^ shift) 2, ← Nat.mul_assoc, Nat.mul_comm binade 2]
  · have hm : binade ≤ m := by
      rcases hlow with rfl | h
      · omega
      · exact h
    have hrank : m + shift * binade = (m - binade) + (shift + 1) * binade := by
      rw [Nat.succ_mul]
      omega
    have hdiv : (m + shift * binade) / binade = shift + 1 := by
      rw [hrank, Nat.add_mul_div_right _ _ hb, Nat.div_eq_of_lt (by omega)]
      omega
    have hmod : (m + shift * binade) % binade = m - binade := by
      rw [hrank, Nat.add_mul_mod_self_right, Nat.mod_eq_of_lt (by omega)]
    rw [hdiv, hmod, Nat.add_sub_cancel' hm]
    rfl

/-- Every rank counts steps of some binade, and so does the one after it. -/
theorem exists_binade (rank : Nat) :
    ∃ m shift, rank = m + shift * binade ∧ (shift = 0 ∨ binade ≤ m) ∧ m < 2 * binade := by
  have hb : 0 < binade := by decide
  by_cases hsmall : rank < binade
  · exact ⟨rank, 0, by omega, .inl rfl, by omega⟩
  · have hmod := Nat.mod_lt rank hb
    have hdiv : 1 ≤ rank / binade := (Nat.le_div_iff_mul_le hb).2 (by omega)
    refine ⟨rank % binade + binade, rank / binade - 1, ?_, .inr (by omega), by omega⟩
    have hrank := Nat.mod_add_div rank binade
    rw [Nat.mul_comm] at hrank
    have hsplit : rank / binade * binade = (rank / binade - 1) * binade + binade := by
      rw [← Nat.succ_mul, Nat.succ_eq_add_one, Nat.sub_add_cancel hdiv]
    omega

theorem scaled_lt_succ (rank : Nat) : scaled rank < scaled (rank + 1) := by
  obtain ⟨m, shift, rfl, hlow, hhigh⟩ := exists_binade rank
  have hnext : m + shift * binade + 1 = (m + 1) + shift * binade := by omega
  rw [hnext, scaled_add_mul_binade hlow (by omega), scaled_add_mul_binade (by omega) (by omega),
    Nat.succ_mul]
  have := Nat.two_pow_pos shift
  omega

theorem scaled_lt_scaled {a b : Nat} (h : a < b) : scaled a < scaled b := by
  induction b with
  | zero => omega
  | succ b ih =>
    have hstep := scaled_lt_succ b
    rcases Nat.lt_succ_iff_lt_or_eq.1 h with h | rfl
    · have := ih h
      omega
    · exact hstep

theorem scaled_le_scaled {a b : Nat} (h : a ≤ b) : scaled a ≤ scaled b := by
  rcases Nat.eq_or_lt_of_le h with rfl | h
  · exact Nat.le_refl _
  · exact Nat.le_of_lt (scaled_lt_scaled h)

theorem scaled_zero : scaled 0 = 0 := by
  decide

/-- The rank after that of the largest double has the magnitude 2^1024. -/
theorem scaled_infiniteRank : scaled infiniteRank = binade * 2 ^ 2046 := by
  have hrank : infiniteRank = binade + 2046 * binade := by
    rw [infiniteRank_eq]
    omega
  rw [hrank]
  exact scaled_add_mul_binade (.inr (Nat.le_refl _)) (by omega)

/-! ## §2 Cells -/

/-- Whether the magnitude of `point / den` half units rounds to a rank: it lies
between the ends of the rank's interval, which belong to it for even ranks. -/
def InCell (rank point den : Nat) : Prop :=
  if rank % 2 = 0 then lowerEnd rank * den ≤ point ∧ point ≤ upperEnd rank * den
  else lowerEnd rank * den < point ∧ point < upperEnd rank * den

instance (rank point den : Nat) : Decidable (InCell rank point den) := by
  unfold InCell
  infer_instance

theorem InCell.lower_le {rank point den : Nat} (h : InCell rank point den) :
    lowerEnd rank * den ≤ point := by
  unfold InCell at h
  split at h <;> omega

theorem InCell.le_upper {rank point den : Nat} (h : InCell rank point den) :
    point ≤ upperEnd rank * den := by
  unfold InCell at h
  split at h <;> omega

/-- What lies strictly between the ends is in the cell of any rank. -/
theorem inCell_of_lt {rank point den : Nat} (hlow : lowerEnd rank * den < point)
    (hhigh : point < upperEnd rank * den) : InCell rank point den := by
  unfold InCell
  split <;> omega

theorem lowerEnd_succ (rank : Nat) : lowerEnd (rank + 1) = upperEnd rank :=
  rfl

theorem upperEnd_lt_upperEnd {a b : Nat} (h : a < b) : upperEnd a < upperEnd b := by
  have h1 := scaled_lt_scaled h
  have h2 := scaled_lt_scaled (show a + 1 < b + 1 by omega)
  unfold upperEnd
  omega

theorem lowerEnd_pos {rank : Nat} (h : 0 < rank) : 0 < lowerEnd rank := by
  have := scaled_lt_scaled h
  unfold lowerEnd
  omega

/-- No magnitude is in the cells of a rank and of a greater one: only neighbours
share an end, and of those one is odd. -/
theorem InCell.not_lt {a b point den : Nat} (hden : 0 < den) (ha : InCell a point den)
    (hb : InCell b point den) : ¬ a < b := by
  intro hlt
  obtain ⟨c, rfl⟩ : ∃ c, b = c + 1 := ⟨b - 1, by omega⟩
  have hhigh := ha.le_upper
  have hlow := hb.lower_le
  rw [lowerEnd_succ] at hlow
  rcases Nat.eq_or_lt_of_le (show a ≤ c by omega) with rfl | hac
  · unfold InCell at ha hb
    rw [lowerEnd_succ] at hb
    split at ha <;> split at hb <;> omega
  · have := Nat.mul_lt_mul_of_pos_right (upperEnd_lt_upperEnd hac) hden
    omega

theorem InCell.unique {a b point den : Nat} (hden : 0 < den) (ha : InCell a point den)
    (hb : InCell b point den) : a = b := by
  have h1 := ha.not_lt hden hb
  have h2 := hb.not_lt hden ha
  omega

/-! ## §3 Nearest -/

/-- Rounding to an integer errs by at most a half, and by less if the result is
odd. -/
theorem nearestEven_bounds (num : Nat) {den : Nat} (hden : 0 < den) :
    2 * (nearestEven num den * den) ≤ 2 * num + den ∧
      2 * num ≤ 2 * (nearestEven num den * den) + den ∧
      (nearestEven num den % 2 = 1 →
        2 * (nearestEven num den * den) < 2 * num + den ∧
          2 * num < 2 * (nearestEven num den * den) + den) := by
  have hnum : num = num / den * den + num % den := by
    rw [Nat.mul_comm]
    exact (Nat.div_add_mod num den).symm
  have hmod := Nat.mod_lt num hden
  have hup : (num / den + 1) * den = num / den * den + den := Nat.succ_mul _ _
  unfold nearestEven
  simp only
  split
  · omega
  · split
    · rw [hup]
      omega
    · split
      · omega
      · rw [hup]
        omega

/-- Lengths are compared over a common denominator, in which the steps of a binade are
`den * 2 ^ shift` long. -/
theorem scaled_mul_den {den m shift : Nat} (hm : shift = 0 ∨ binade ≤ m) (hm' : m ≤ 2 * binade) :
    scaled (m + shift * binade) * den = m * (den * 2 ^ shift) := by
  rw [scaled_add_mul_binade hm hm', Nat.mul_assoc, Nat.mul_comm den]

/-- Where rounding went up, or not at all, the magnitude stays above the lower end. -/
theorem lowerEnd_mul_le {num den m shift : Nat} (hden : 0 < den)
    (hlow : shift = 0 ∨ binade * (den * 2 ^ shift) ≤ num) (hm : shift = 0 ∨ binade ≤ m)
    (hm' : m ≤ 2 * binade) (hpos : 0 < m + shift * binade)
    (h : 2 * (m * (den * 2 ^ shift)) ≤ 2 * num + den * 2 ^ shift) :
    lowerEnd (m + shift * binade) * den ≤ 2 * num ∧
      (2 * (m * (den * 2 ^ shift)) < 2 * num + den * 2 ^ shift →
        lowerEnd (m + shift * binade) * den < 2 * num) := by
  have hvalue : scaled (m + shift * binade) * den = m * (den * 2 ^ shift) := scaled_mul_den hm hm'
  have hends : lowerEnd (m + shift * binade) * den
      = scaled (m + shift * binade - 1) * den + m * (den * 2 ^ shift) := by
    rw [lowerEnd, Nat.add_mul, hvalue]
  rw [hends]
  by_cases hup : num < m * (den * 2 ^ shift)
  · -- the rank below is counted in the same steps
    have hpred : shift = 0 ∨ binade ≤ m - 1 := by
      rcases hlow with h0 | hlow
      · exact .inl h0
      · have := Nat.lt_of_mul_lt_mul_right (Nat.lt_of_le_of_lt hlow hup)
        exact .inr (by omega)
    have hone : 1 ≤ m := by
      apply Nat.pos_of_ne_zero
      rintro rfl
      simp at hup
    have hrank : m + shift * binade - 1 = (m - 1) + shift * binade := by omega
    have hbelow : scaled (m + shift * binade - 1) * den + den * 2 ^ shift
        = m * (den * 2 ^ shift) := by
      rw [hrank, scaled_mul_den hpred (by omega), ← Nat.succ_mul, Nat.succ_eq_add_one,
        Nat.sub_add_cancel hone]
    omega
  · have hlt : scaled (m + shift * binade - 1) * den < m * (den * 2 ^ shift) := by
      rw [← hvalue]
      exact Nat.mul_lt_mul_of_pos_right (scaled_lt_scaled (by omega)) hden
    omega

/-- Where rounding went down, or not at all, the magnitude stays below the upper end. -/
theorem le_upperEnd_mul {num den m shift : Nat} (hden : 0 < den)
    (hhigh : num < 2 * binade * (den * 2 ^ shift)) (hm : shift = 0 ∨ binade ≤ m)
    (hm' : m ≤ 2 * binade) (h : 2 * num ≤ 2 * (m * (den * 2 ^ shift)) + den * 2 ^ shift) :
    2 * num ≤ upperEnd (m + shift * binade) * den ∧
      (2 * num < 2 * (m * (den * 2 ^ shift)) + den * 2 ^ shift →
        2 * num < upperEnd (m + shift * binade) * den) := by
  have hvalue : scaled (m + shift * binade) * den = m * (den * 2 ^ shift) := scaled_mul_den hm hm'
  have hends : upperEnd (m + shift * binade) * den
      = m * (den * 2 ^ shift) + scaled (m + shift * binade + 1) * den := by
    rw [upperEnd, Nat.add_mul, hvalue]
  rw [hends]
  by_cases hdown : m * (den * 2 ^ shift) < num
  · -- the rank above is counted in the same steps, or is the first of the next binade
    have hlt := Nat.lt_of_mul_lt_mul_right (Nat.lt_trans hdown hhigh)
    have hrank : m + shift * binade + 1 = (m + 1) + shift * binade := by omega
    have habove : scaled (m + shift * binade + 1) * den
        = m * (den * 2 ^ shift) + den * 2 ^ shift := by
      rw [hrank, scaled_mul_den (by omega) (by omega), Nat.succ_mul]
    omega
  · have hlt : m * (den * 2 ^ shift) < scaled (m + shift * binade + 1) * den := by
      rw [← hvalue]
      exact Nat.mul_lt_mul_of_pos_right (scaled_lt_succ _) hden
    omega

/-- Where the magnitude's quotient is below 2^53, or is brought there by halving,
the rounded quotient and the number of halvings give a rank in whose cell the
magnitude is. -/
theorem inCell_nearestEven {num den shift : Nat} (hden : 0 < den)
    (hlow : shift = 0 ∨ binade * (den * 2 ^ shift) ≤ num)
    (hhigh : num < 2 * binade * (den * 2 ^ shift)) :
    InCell (nearestEven num (den * 2 ^ shift) + shift * binade) (2 * num) den := by
  have hunit : 0 < den * 2 ^ shift := Nat.mul_pos hden (Nat.two_pow_pos shift)
  obtain ⟨hover, hunder, hodd⟩ := nearestEven_bounds num hunit
  generalize nearestEven num (den * 2 ^ shift) = m at hover hunder hodd ⊢
  have hm : shift = 0 ∨ binade ≤ m := by
    rcases hlow with h0 | hlow
    · exact .inl h0
    · refine .inr (Nat.le_of_lt_succ (Nat.lt_of_mul_lt_mul_right (a := den * 2 ^ shift) ?_))
      rw [Nat.succ_mul]
      omega
  have hm' : m ≤ 2 * binade := by
    refine Nat.le_of_lt_succ (Nat.lt_of_mul_lt_mul_right (a := den * 2 ^ shift) ?_)
    rw [Nat.succ_mul]
    omega
  have hparity : (m + shift * binade) % 2 = m % 2 := by
    rw [binade_eq]
    omega
  have hupper := le_upperEnd_mul hden hhigh hm hm' hunder
  rcases Nat.eq_zero_or_pos (m + shift * binade) with hzero | hpos
  · rw [hzero] at hupper ⊢
    rw [InCell, if_pos rfl]
    exact ⟨by simp [lowerEnd, scaled_zero], hupper.1⟩
  · have hlower := lowerEnd_mul_le hden hlow hm hm' hpos hover
    unfold InCell
    rw [hparity]
    split
    · exact ⟨hlower.1, hupper.1⟩
    · have hm1 : m % 2 = 1 := by omega
      exact ⟨hlower.2 (hodd hm1).1, hupper.2 (hodd hm1).2⟩

/-- A magnitude is in the cell of its nearest rank. -/
theorem inCell_nearestRank (num : Nat) {den : Nat} (hden : 0 < den) :
    InCell (nearestRank num den) (2 * num) den := by
  have hquotient : num < (num / den + 1) * den := Nat.lt_mul_of_div_lt (Nat.lt_succ_self _) hden
  have hlog : num / den + 1 ≤ 2 ^ ((num / den).log2 + 1) := Nat.lt_log2_self
  have hb : binade = 2 ^ 52 := by decide
  unfold nearestRank
  simp only [Nat.shiftLeft_eq]
  apply inCell_nearestEven hden
  · by_cases hshift : (num / den).log2 - 52 = 0
    · exact .inl hshift
    · have hne : num / den ≠ 0 := by
        intro h
        simp [h] at hshift
      refine .inr ?_
      calc binade * (den * 2 ^ ((num / den).log2 - 52))
          = 2 ^ (num / den).log2 * den := by
            rw [hb, Nat.mul_left_comm, ← Nat.pow_add, Nat.mul_comm]
            congr 2
            omega
        _ ≤ num / den * den := Nat.mul_le_mul_right den (Nat.log2_self_le hne)
        _ ≤ num := Nat.div_mul_le_self num den
  · calc num < (num / den + 1) * den := hquotient
      _ ≤ 2 ^ ((num / den).log2 + 1) * den := Nat.mul_le_mul_right den hlog
      _ ≤ 2 ^ (53 + ((num / den).log2 - 52)) * den :=
        Nat.mul_le_mul_right den (Nat.pow_le_pow_right (by decide) (by omega))
      _ = 2 * binade * (den * 2 ^ ((num / den).log2 - 52)) := by
        have htwice : 2 * binade = 2 ^ 53 := by decide
        rw [htwice, Nat.pow_add, Nat.mul_assoc, Nat.mul_comm den]

/-- **The nearest rank is the one whose cell holds the magnitude.** -/
theorem nearestRank_eq_iff {num den rank : Nat} (hden : 0 < den) :
    nearestRank num den = rank ↔ InCell rank (2 * num) den := by
  constructor
  · rintro rfl
    exact inCell_nearestRank num hden
  · intro h
    exact (inCell_nearestRank num hden).unique hden h

end Binary64

/-! ## §4 Decimals -/

theorem tenTo_eq (n : Nat) : tenTo n = 10 ^ n := rfl

theorem tenTo_pos (n : Nat) : 0 < tenTo n := by
  rw [tenTo_eq]
  exact Nat.pow_pos (by decide)

theorem tenTo_add (a b : Nat) : tenTo (a + b) = tenTo a * tenTo b :=
  Nat.pow_add 10 a b

theorem tenTo_le_tenTo {a b : Nat} (h : a ≤ b) : tenTo a ≤ tenTo b :=
  Nat.pow_le_pow_right (by decide) h

theorem mul_shiftLeft (a b shift : Nat) : (a * b) <<< shift = a * (b <<< shift) := by
  rw [Nat.shiftLeft_eq, Nat.shiftLeft_eq, Nat.mul_assoc]

theorem shiftLeft_le_shiftLeft {a b : Nat} (h : a ≤ b) (shift : Nat) :
    a <<< shift ≤ b <<< shift := by
  rw [Nat.shiftLeft_eq, Nat.shiftLeft_eq]
  exact Nat.mul_le_mul_right _ h

namespace Binary64

/-- `roundsTo` tells whether the point of a grid is in a rank's cell. -/
theorem roundsTo_iff {rank coefficient : Nat} {exponent : Int} :
    roundsTo rank exponent coefficient = true ↔
      InCell rank (coefficient * (gridScale exponent).1) (gridScale exponent).2 := by
  unfold roundsTo InCell
  simp only
  split <;> simp

theorem roundsTo_ofNat_iff {rank coefficient e : Nat} :
    roundsTo rank (.ofNat e) coefficient = true ↔
      InCell rank (coefficient * (tenTo e <<< 1075)) 1 :=
  roundsTo_iff

theorem gridScale_pos (exponent : Int) :
    0 < (gridScale exponent).1 ∧ 0 < (gridScale exponent).2 := by
  have hshift : ∀ n, 0 < n → 0 < n <<< 1075 := fun n hn =>
    Nat.lt_of_lt_of_le hn (Nat.le_shiftLeft (b := 1075))
  cases exponent with
  | ofNat e => exact ⟨hshift _ (tenTo_pos e), Nat.one_pos⟩
  | negSucc e => exact ⟨hshift _ Nat.one_pos, tenTo_pos (e + 1)⟩

/-- Zero rounds to no positive rank. -/
theorem coefficient_ne_zero_of_roundsTo {rank coefficient : Nat} {exponent : Int}
    (hpos : 0 < rank) (h : roundsTo rank exponent coefficient = true) : coefficient ≠ 0 := by
  rintro rfl
  have hlow := (roundsTo_iff.1 h).lower_le
  have := Nat.mul_pos (lowerEnd_pos hpos) (gridScale_pos exponent).2
  omega

/-- Nothing from 10^311 up rounds to a rank of a finite double. -/
theorem exponent_le_of_roundsTo {rank coefficient e : Nat} (hrank : rank < infiniteRank)
    (hne : coefficient ≠ 0) (h : roundsTo rank (.ofNat e) coefficient = true) : e ≤ 310 := by
  have hlarge : 2 * (binade * 2 ^ 2046) ≤ tenTo 311 <<< 1075 := by decide +kernel
  have hupper : upperEnd rank < 2 * (binade * 2 ^ 2046) := by
    rw [← scaled_infiniteRank]
    have h1 := scaled_lt_scaled hrank
    have h2 := scaled_le_scaled (show rank + 1 ≤ infiniteRank from hrank)
    unfold upperEnd
    omega
  have hpoint : coefficient * (tenTo e <<< 1075) ≤ upperEnd rank * 1 := (roundsTo_iff.1 h).le_upper
  apply Nat.le_of_not_lt
  intro he
  have hmono : ∀ k, k ≤ e → tenTo k <<< 1075 ≤ tenTo e <<< 1075 := fun k hk =>
    shiftLeft_le_shiftLeft (tenTo_le_tenTo hk) 1075
  have hcoefficient := Nat.le_mul_of_pos_left (tenTo e <<< 1075) (Nat.pos_of_ne_zero hne)
  rw [Nat.mul_one] at hpoint
  exact Nat.lt_irrefl _ (calc upperEnd rank < 2 * (binade * 2 ^ 2046) := hupper
    _ ≤ tenTo 311 <<< 1075 := hlarge
    _ ≤ tenTo e <<< 1075 := hmono 311 he
    _ ≤ coefficient * (tenTo e <<< 1075) := hcoefficient
    _ ≤ upperEnd rank := hpoint)

/-- Nothing with so many places that `rank` does not look at it rounds to a positive
rank. -/
theorem places_le_of_roundsTo {rank coefficient e : Nat} (hpos : 0 < rank)
    (h : roundsTo rank (.negSucc e) coefficient = true) : e ≤ coefficient.log2 + 400 := by
  have hsmall : 2 * (1 <<< 1075) ≤ tenTo 402 := by decide +kernel
  have hpoint : lowerEnd rank * tenTo (e + 1) ≤ coefficient * (1 <<< 1075) :=
    (roundsTo_iff.1 h).lower_le
  have hstep : 0 < 1 <<< 1075 := (gridScale_pos (.negSucc e)).1
  generalize 1 <<< 1075 = step at hsmall hpoint hstep
  apply Nat.le_of_not_lt
  intro he
  have hcoefficient : coefficient < 2 ^ coefficient.log2 * 2 := by
    rw [← Nat.pow_succ]
    exact Nat.lt_log2_self
  have hlt : coefficient * step < tenTo (e + 1) := by
    calc coefficient * step
        < 2 ^ coefficient.log2 * 2 * step := Nat.mul_lt_mul_of_pos_right hcoefficient hstep
      _ = 2 ^ coefficient.log2 * (2 * step) := Nat.mul_assoc _ _ _
      _ ≤ tenTo coefficient.log2 * tenTo 402 :=
          Nat.mul_le_mul (Nat.pow_le_pow_left (by decide) _) hsmall
      _ = tenTo (coefficient.log2 + 402) := (tenTo_add _ _).symm
      _ ≤ tenTo (e + 1) := tenTo_le_tenTo (by omega)
  have hlow := Nat.le_mul_of_pos_left (tenTo (e + 1)) (lowerEnd_pos hpos)
  omega

end Binary64

theorem shiftLeft_half_units (n : Nat) : n <<< 1075 = 2 * (n <<< 1074) := by
  rw [Nat.shiftLeft_succ]

/-- Below the first exponent that is not looked at, a decimal rounds to the rank whose cell it is
in. -/
theorem Decimal.rank_ofNat_eq {rank coefficient e : Nat} (hne : coefficient ≠ 0) (he : e ≤ 310)
    (h : Binary64.roundsTo rank (.ofNat e) coefficient = true) :
    (⟨coefficient, .ofNat e⟩ : Decimal).rank = rank := by
  have hcell := Binary64.roundsTo_iff.1 h
  have hpoint : 2 * ((coefficient * tenTo e) <<< 1074) = coefficient * (tenTo e <<< 1075) :=
    (shiftLeft_half_units _).symm.trans (mul_shiftLeft _ _ _)
  simp only [Decimal.rank]
  rw [if_neg hne, if_neg (by omega), Binary64.nearestRank_eq_iff Nat.one_pos, hpoint]
  exact hcell

/-- So it does if it has no more places than are looked at. -/
theorem Decimal.rank_negSucc_eq {rank coefficient e : Nat} (he : e ≤ coefficient.log2 + 400)
    (h : Binary64.roundsTo rank (.negSucc e) coefficient = true) :
    (⟨coefficient, .negSucc e⟩ : Decimal).rank = rank := by
  have hcell := Binary64.roundsTo_iff.1 h
  have hpoint : 2 * (coefficient <<< 1074) = coefficient * (1 <<< 1075) := by
    rw [← shiftLeft_half_units, ← mul_shiftLeft, Nat.mul_one]
  simp only [Decimal.rank]
  rw [if_neg (by omega), Binary64.nearestRank_eq_iff (tenTo_pos (e + 1)), hpoint]
  exact hcell

/-- **A decimal in a rank's cell rounds to that rank.** -/
theorem Decimal.rank_eq_of_roundsTo {rank coefficient : Nat} {exponent : Int} (hpos : 0 < rank)
    (hrank : rank < infiniteRank)
    (h : Binary64.roundsTo rank exponent coefficient = true) :
    (⟨coefficient, exponent⟩ : Decimal).rank = rank := by
  have hne := Binary64.coefficient_ne_zero_of_roundsTo hpos h
  cases exponent with
  | ofNat e => exact rank_ofNat_eq hne (Binary64.exponent_le_of_roundsTo hrank hne h) h
  | negSucc e => exact rank_negSucc_eq (Binary64.places_le_of_roundsTo hpos h) h

/-! ## §5 Shortest -/

namespace Binary64

/-- What is taken from a grid rounds to the rank. -/
theorem roundsTo_of_gridPoint? {rank coefficient : Nat} {exponent : Int}
    (h : gridPoint? rank exponent = some coefficient) :
    roundsTo rank exponent coefficient = true := by
  unfold gridPoint? at h
  simp only at h
  split at h
  · rename_i hbelow habove
    split at h
    · rw [← Option.some.inj h]
      exact hbelow
    · rw [← Option.some.inj h]
      exact habove
  · rename_i hbelow _
    rw [← Option.some.inj h]
    exact hbelow
  · rename_i _ habove
    rw [← Option.some.inj h]
    exact habove
  · simp at h

/-- A grid whose steps are shorter than half a unit has a point in every cell: the
one right above the magnitude itself. -/
theorem gridPoint?_ne_none {rank : Nat} {exponent : Int} (hpos : 0 < rank)
    (hfine : (gridScale exponent).1 < (gridScale exponent).2) :
    gridPoint? rank exponent ≠ none := by
  have hstep := (gridScale_pos exponent).1
  have habove : roundsTo rank exponent
      (2 * scaled rank * (gridScale exponent).2 / (gridScale exponent).1 + 1) = true := by
    rw [roundsTo_iff]
    generalize (gridScale exponent).1 = step at hfine hstep ⊢
    generalize (gridScale exponent).2 = factor at hfine ⊢
    have hdiv := Nat.div_add_mod (2 * scaled rank * factor) step
    have hmod := Nat.mod_lt (2 * scaled rank * factor) hstep
    have hlow : lowerEnd rank * factor < 2 * scaled rank * factor := by
      refine Nat.mul_lt_mul_of_pos_right ?_ (by omega)
      have := scaled_lt_scaled (show rank - 1 < rank by omega)
      unfold lowerEnd
      omega
    have hhigh : 2 * scaled rank * factor + factor ≤ upperEnd rank * factor := by
      rw [← Nat.succ_mul]
      refine Nat.mul_le_mul_right factor ?_
      have := scaled_lt_succ rank
      unfold upperEnd
      omega
    rw [Nat.mul_comm] at hdiv
    apply inCell_of_lt
    · rw [Nat.succ_mul]
      omega
    · rw [Nat.succ_mul]
      omega
  unfold gridPoint?
  simp only
  rw [habove]
  split <;> simp_all

/-- The finest grid that is tried is fine enough. -/
theorem gridScale_finest : (gridScale (-324)).1 < (gridScale (-324)).2 := by
  decide +kernel

theorem finest_mem_exponents (rank : Nat) : (-324 : Int) ∈ exponents rank := by
  have hcoarsest : -324 ≤ coarsestExponent rank := by
    unfold coarsestExponent
    simp only
    split <;> omega
  unfold exponents
  simp only [List.mem_map, List.mem_range]
  exact ⟨(coarsestExponent rank + 324).toNat, by omega, by omega⟩

/-- The shortest decimal rounds to its rank. -/
theorem roundsTo_shortest {rank : Nat} (hpos : 0 < rank) :
    roundsTo rank (shortest rank).exponent (shortest rank).coefficient = true := by
  unfold shortest
  split
  · rename_i d hd
    obtain ⟨e, _, hpoint⟩ := List.exists_of_findSome?_eq_some hd
    obtain ⟨coefficient, hcoefficient, rfl⟩ := Option.map_eq_some_iff.1 hpoint
    exact roundsTo_of_gridPoint? hcoefficient
  · rename_i hnone
    have := List.findSome?_eq_none_iff.1 hnone _ (finest_mem_exponents rank)
    exact absurd (Option.map_eq_none_iff.1 this) (gridPoint?_ne_none hpos gridScale_finest)

/-- **The shortest decimal of a finite double is read back as that double.** -/
theorem rank_shortest {rank : Nat} (hpos : 0 < rank) (hrank : rank < infiniteRank) :
    (shortest rank).rank = rank :=
  Decimal.rank_eq_of_roundsTo hpos hrank (roundsTo_shortest hpos)

end Binary64

end PropSchema.Number
