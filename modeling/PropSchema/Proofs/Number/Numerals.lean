/-
PropSchema.Proofs.Number.Numerals — which texts are numerals, and of which numbers.

A numeral is a run of digits of its base, at least one of them, and its number is the sum of
their values, each times a power of the base. The readers go from the left and keep what they
have so far; `natural?_eq_some_iff` says that they read just the numerals, with any number of
leading zeros, each as its number.

§1 Digits   — the value of a digit is its place among the digits of its base.
§2 Numerals — `natural?_eq_some_iff`.
§3 Integers — decimal numerals with a sign, and the range of a machine integer.
§4 Writing  — `decimalText_eq_toString`.
-/
import PropSchema.Proofs.Number.Texts
import Mathlib.Data.List.Forall2
import Mathlib.Data.Nat.Digits.Defs

namespace PropSchema.Number

/-! ## §1 Digits -/

/-- Whether a character is the digit of a place, in lower or in upper case. -/
def HasPlace (c : Char) (d : Nat) : Prop :=
  "0123456789abcdef".toList[d]? = some c ∨ "0123456789ABCDEF".toList[d]? = some c

/-- Whether a character is a digit of a base, with the given value. -/
def IsDigitOf (base : Nat) (c : Char) (d : Nat) : Prop :=
  d < base ∧ HasPlace c d

theorem hexValue?_of_hasPlace {c : Char} {d : Nat} (h : HasPlace c d) : hexValue? c = some d := by
  have hlower : ∀ d : Fin 16, hexValue? "0123456789abcdef".toList[d.val] = some d.val := by
    decide +kernel
  have hupper : ∀ d : Fin 16, hexValue? "0123456789ABCDEF".toList[d.val] = some d.val := by
    decide +kernel
  rcases h with h | h
  · obtain ⟨hd, rfl⟩ := List.getElem?_eq_some_iff.1 h
    exact hlower ⟨d, hd⟩
  · obtain ⟨hd, rfl⟩ := List.getElem?_eq_some_iff.1 h
    exact hupper ⟨d, hd⟩

/-- Where digits run through a range of characters, a character of the range has its place
among them. -/
theorem getElem?_of_range {first : Char} (last : Char) {digits : List Char} (shift : Nat)
    (hrange : ∀ n < last.toNat + 1 - first.toNat,
      digits[n + shift]? = some (Char.ofNat (n + first.toNat)))
    {c : Char} (hfirst : first.toNat ≤ c.toNat) (hlast : c.toNat ≤ last.toNat) :
    digits[c.toNat - first.toNat + shift]? = some c := by
  rw [hrange _ (by omega), Nat.sub_add_cancel hfirst, Char.ofNat_toNat]

theorem hasPlace_of_hexValue? {c : Char} {d : Nat} (h : hexValue? c = some d) : HasPlace c d := by
  unfold hexValue? at h
  split at h
  · rename_i hc
    simp only [Char.isDigit, Bool.and_eq_true, decide_eq_true_eq] at hc
    obtain rfl := Option.some.inj h
    exact .inl (getElem?_of_range '9' 0 (by decide +kernel) hc.1 hc.2)
  · split at h
    · rename_i hc
      obtain rfl := Option.some.inj h
      exact .inl (getElem?_of_range _ _ (by decide +kernel) hc.1 hc.2)
    · split at h
      · rename_i hc
        obtain rfl := Option.some.inj h
        exact .inr (getElem?_of_range _ _ (by decide +kernel) hc.1 hc.2)
      · cases h

theorem digitValue?_eq_some_iff {base : Nat} {c : Char} {d : Nat} :
    digitValue? base c = some d ↔ IsDigitOf base c d := by
  rw [digitValue?, Option.filter_eq_some_iff, decide_eq_true_iff]
  constructor
  · rintro ⟨hvalue, hd⟩
    exact ⟨hd, hasPlace_of_hexValue? hvalue⟩
  · rintro ⟨hd, hplace⟩
    exact ⟨hexValue?_of_hasPlace hplace, hd⟩

theorem isDigit_of_isDigitOf_ten {c : Char} {d : Nat} (h : IsDigitOf 10 c d) :
    c.isDigit = true := by
  obtain ⟨hd, hplace⟩ := h
  have hvalue := hexValue?_of_hasPlace hplace
  unfold hexValue? at hvalue
  split at hvalue
  · assumption
  · exfalso
    split at hvalue
    · have hsum := Option.some.inj hvalue
      omega
    · split at hvalue
      · have hsum := Option.some.inj hvalue
        omega
      · cases hvalue

/-! ## §2 Numerals -/

/-- Whether a text is a numeral of a base, and of which number. -/
def IsNumeral (base : Nat) (cs : List Char) (n : Nat) : Prop :=
  ∃ ds, ds ≠ [] ∧ List.Forall₂ (IsDigitOf base) cs ds ∧ n = Nat.ofDigits base ds.reverse

/-- A decimal numeral is one digit or more. -/
theorem IsNumeral.digits {cs : List Char} {n : Nat} (h : IsNumeral 10 cs n) :
    cs ≠ [] ∧ ∀ c ∈ cs, c.isDigit = true := by
  obtain ⟨ds, hne, hds, -⟩ := h
  constructor
  · rintro rfl
    cases hds
    exact hne rfl
  · clear hne
    induction hds with
    | nil => simp
    | cons hd _ ih => exact List.forall_mem_cons.2 ⟨isDigit_of_isDigitOf_ten hd, ih⟩

/-- What has been read already counts as a digit before all others. -/
theorem digitsValue?_eq_some_iff {base acc n : Nat} {cs : List Char} :
    digitsValue? base acc cs = some n ↔
      ∃ ds, List.Forall₂ (IsDigitOf base) cs ds ∧ n = Nat.ofDigits base (acc :: ds).reverse := by
  induction cs generalizing acc with
  | nil => simp [digitsValue?, eq_comm]
  | cons c cs ih =>
    have hcarry (d : Nat) (ds : List Nat) :
        Nat.ofDigits base ((base * acc + d) :: ds).reverse =
          Nat.ofDigits base (acc :: d :: ds).reverse := by
      rw [Nat.ofDigits_reverse_cons, Nat.ofDigits_reverse_cons, Nat.ofDigits_reverse_cons,
        List.length_cons]
      ring
    rw [digitsValue?]
    constructor
    · intro h
      split at h
      · rename_i d hd
        obtain ⟨ds, hds, rfl⟩ := ih.1 h
        exact ⟨d :: ds, .cons (digitValue?_eq_some_iff.1 hd) hds, hcarry d ds⟩
      · cases h
    · rintro ⟨ds, hds, rfl⟩
      cases hds with
      | cons hd hds =>
        rw [digitValue?_eq_some_iff.2 hd]
        exact ih.2 ⟨_, hds, (hcarry _ _).symm⟩

/-- A text is read just if it is a numeral, and as its number. -/
theorem natural?_eq_some_iff {base n : Nat} {cs : List Char} :
    natural? base cs = some n ↔ IsNumeral base cs n := by
  unfold natural?
  split
  · rename_i hempty
    obtain rfl := List.isEmpty_iff.1 hempty
    constructor
    · intro h
      cases h
    · rintro ⟨ds, hne, hds, _⟩
      cases hds
      exact absurd rfl hne
  · rename_i hempty
    have hzero (ds : List Nat) :
        Nat.ofDigits base (0 :: ds).reverse = Nat.ofDigits base ds.reverse := by
      rw [Nat.ofDigits_reverse_cons, Nat.mul_zero, Nat.add_zero]
    rw [digitsValue?_eq_some_iff]
    constructor
    · rintro ⟨ds, hds, rfl⟩
      refine ⟨ds, ?_, hds, hzero ds⟩
      rintro rfl
      cases hds
      exact hempty rfl
    · rintro ⟨ds, _, hds, rfl⟩
      exact ⟨ds, hds, (hzero ds).symm⟩

/-! ## §3 Integers -/

/-- Whether a text is a decimal numeral with at most one sign before it, and of which number. -/
inductive IsSignedNumeral : List Char → Int → Prop where
  | unsigned {cs : List Char} {n : Nat} (h : IsNumeral 10 cs n) : IsSignedNumeral cs n
  | plus {cs : List Char} {n : Nat} (h : IsNumeral 10 cs n) : IsSignedNumeral ('+' :: cs) n
  | minus {cs : List Char} {n : Nat} (h : IsNumeral 10 cs n) : IsSignedNumeral ('-' :: cs) (-n)

theorem integer?_minus (cs : List Char) :
    integer? ('-' :: cs) = (natural? 10 cs).map fun n : Nat => -(n : Int) := by
  rw [integer?]
  cases natural? 10 cs <;> rfl

/-- A text is read as an integer just if it is a numeral with at most one sign. -/
theorem integer?_eq_some_iff {cs : List Char} {n : Int} :
    integer? cs = some n ↔ IsSignedNumeral cs n := by
  constructor
  · intro h
    unfold integer? at h
    split at h
    · obtain ⟨m, hm, rfl⟩ := Option.map_eq_some_iff.1 h
      exact .plus (natural?_eq_some_iff.1 hm)
    · rename_i digits
      have h := (integer?_minus digits).symm.trans h
      obtain ⟨m, hm, rfl⟩ := Option.map_eq_some_iff.1 h
      exact .minus (natural?_eq_some_iff.1 hm)
    · obtain ⟨m, hm, rfl⟩ := Option.map_eq_some_iff.1 h
      exact .unsigned (natural?_eq_some_iff.1 hm)
  · intro h
    cases h with
    | unsigned h =>
      obtain ⟨hne, hdigits⟩ := h.digits
      obtain ⟨c, cs, rfl⟩ := List.exists_cons_of_ne_nil hne
      rw [integer?_of_isDigit (hdigits c List.mem_cons_self), natural?_eq_some_iff.2 h]
      rfl
    | plus h =>
      rw [integer?, natural?_eq_some_iff.2 h]
      rfl
    | minus h =>
      rw [integer?_minus, natural?_eq_some_iff.2 h]
      rfl

theorem isSome_int64?_iff {n : Int} :
    (int64? n).isSome = true ↔ -2 ^ 63 ≤ n ∧ n ≤ 2 ^ 63 - 1 := by
  unfold int64?
  split
  · rename_i h
    simpa using h
  · rename_i h
    simpa using h

/-! ## §4 Writing -/

theorem decimal_eq_toDigits (n : Nat) : decimal n = Nat.toDigits 10 n := by
  have hdigit : ∀ d < 10, digitChar d = Nat.digitChar d := by decide
  induction n using Nat.strongRecOn with
  | _ n ih =>
    rw [decimal]
    split
    · rename_i hn
      rw [hdigit n hn, Nat.toDigits_of_lt_base hn]
    · rename_i hn
      rw [ih (n / 10) (by omega), hdigit (n % 10) (Nat.mod_lt n (by decide)),
        Nat.toDigits_of_base_le (by decide) (Nat.le_of_not_lt hn)]

/-- Numbers are written in decimal without leading zeros, as they are everywhere. -/
theorem decimalText_eq_toString (n : Nat) : decimalText n = toString n := by
  rw [decimalText, decimal_eq_toDigits, Nat.toString_eq_ofList_toDigits]

end PropSchema.Number
