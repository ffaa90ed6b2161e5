/-
PropSchema.Proofs.Value.Integers — which stored texts are integers, and which ones.

A text denotes an integer if it is a decimal numeral with at most one sign, or a hexadecimal one
behind `0x` and without a sign. What is decoded is that integer if the machine type has it, and
nothing if not: the reader computes with whole numbers of any size, so there is nothing that
could wrap around, and zeros in front of a numeral do not count.

§1 Texts  — `DenotesInteger`, which is what `integerValueOf?` reads.
§2 Ranges — the integers that a machine type has.
§3 Values — `decode_integer_iff`.
-/
import PropSchema.Proofs.Number.Numerals
import PropSchema.Value.Codec

namespace PropSchema

/-! ## §1 Texts -/

/-- Whether a text denotes an integer: a decimal numeral with at most one sign, or `0x` or `0X`
and a hexadecimal numeral. -/
inductive DenotesInteger : List Char → Int → Prop where
  | decimal {cs : List Char} {n : Int} (h : Number.IsSignedNumeral cs n) : DenotesInteger cs n
  | hexadecimal {x : Char} {digits : List Char} {n : Nat} (hx : x = 'x' ∨ x = 'X')
      (h : Number.IsNumeral 16 digits n) : DenotesInteger ('0' :: x :: digits) n

/-- What may stand before the digits of an integer, and the base that the digits are of. -/
def integerForms : List (List Char × Nat) :=
  [([], 10), (['+'], 10), (['-'], 10), (['0', 'x'], 16), (['0', 'X'], 16)]

/-- A decimal numeral has no mark of a hexadecimal one behind its first digit. -/
theorem Number.IsSignedNumeral.ne_hexadecimal {x : Char} {digits : List Char} {n : Int}
    (h : IsSignedNumeral ('0' :: x :: digits) n) : x ≠ 'x' ∧ x ≠ 'X' := by
  cases h with
  | unsigned h =>
    have hx : x.isDigit = true := h.digits.2 x (by simp)
    constructor
    · rintro rfl
      exact absurd hx (by decide)
    · rintro rfl
      exact absurd hx (by decide)

/-- A text is read as an integer just if it denotes one. -/
theorem integerValueOf?_eq_some_iff {cs : List Char} {n : Int} :
    integerValueOf? cs = some n ↔ DenotesInteger cs n := by
  constructor
  · intro h
    unfold integerValueOf? at h
    split at h
    · obtain ⟨m, hm, rfl⟩ := Option.map_eq_some_iff.1 h
      exact .hexadecimal (.inl rfl) (Number.natural?_eq_some_iff.1 hm)
    · obtain ⟨m, hm, rfl⟩ := Option.map_eq_some_iff.1 h
      exact .hexadecimal (.inr rfl) (Number.natural?_eq_some_iff.1 hm)
    · exact .decimal (Number.integer?_eq_some_iff.1 h)
  · intro h
    cases h with
    | decimal h =>
      unfold integerValueOf?
      split
      · exact absurd rfl h.ne_hexadecimal.1
      · exact absurd rfl h.ne_hexadecimal.2
      · exact Number.integer?_eq_some_iff.2 h
    | hexadecimal hx h =>
      rcases hx with rfl | rfl
      · rw [integerValueOf?, Number.natural?_eq_some_iff.2 h]
        rfl
      · rw [integerValueOf?, Number.natural?_eq_some_iff.2 h]
        rfl

/-- A text denotes one integer at most. -/
theorem DenotesInteger.unique {cs : List Char} {m n : Int} (hm : DenotesInteger cs m)
    (hn : DenotesInteger cs n) : m = n :=
  Option.some.inj ((integerValueOf?_eq_some_iff.2 hm).symm.trans (integerValueOf?_eq_some_iff.2 hn))

/-- Zeros in front of a numeral do not change its number. -/
theorem Number.IsNumeral.zeros {base n : Nat} {digits : List Char} (hbase : 0 < base)
    (h : IsNumeral base digits n) (k : Nat) :
    IsNumeral base (List.replicate k '0' ++ digits) n := by
  induction k with
  | zero => exact h
  | succ k ih =>
    obtain ⟨ds, hne, hds, rfl⟩ := ih
    refine ⟨0 :: ds, by simp, .cons ⟨hbase, .inl rfl⟩ hds, ?_⟩
    rw [Nat.ofDigits_reverse_cons, Nat.mul_zero, Nat.add_zero]

/-- A numeral behind one of the forms denotes an integer, whatever zeros are put in front of its
digits. -/
theorem denotesInteger_of_form {lead digits : List Char} {base n : Nat}
    (hform : (lead, base) ∈ integerForms) (h : Number.IsNumeral base digits n) :
    ∃ i, ∀ k, DenotesInteger (lead ++ (List.replicate k '0' ++ digits)) i := by
  simp only [integerForms, List.mem_cons, Prod.mk.injEq, List.not_mem_nil, or_false] at hform
  rcases hform with ⟨rfl, rfl⟩ | ⟨rfl, rfl⟩ | ⟨rfl, rfl⟩ | ⟨rfl, rfl⟩ | ⟨rfl, rfl⟩
  · exact ⟨n, fun k => .decimal (.unsigned (h.zeros (by decide) k))⟩
  · exact ⟨n, fun k => .decimal (.plus (h.zeros (by decide) k))⟩
  · exact ⟨-n, fun k => .decimal (.minus (h.zeros (by decide) k))⟩
  · exact ⟨n, fun k => .hexadecimal (.inl rfl) (h.zeros (by decide) k)⟩
  · exact ⟨n, fun k => .hexadecimal (.inr rfl) (h.zeros (by decide) k)⟩

/-! ## §2 Ranges -/

theorem Number.int32?_eq_some_iff {n : Int} {m : Int32} :
    int32? n = some m ↔ -2 ^ 31 ≤ n ∧ n ≤ 2 ^ 31 - 1 ∧ m.toInt = n := by
  constructor
  · intro h
    unfold int32? at h
    split at h
    · rename_i hrange
      obtain rfl := Option.some.inj h
      exact ⟨hrange.1, hrange.2, Int32.toInt_ofInt_of_le hrange.1 (by omega)⟩
    · cases h
  · rintro ⟨_, _, rfl⟩
    exact int32?_toInt m

theorem Number.int64?_eq_some_iff {n : Int} {m : Int64} :
    int64? n = some m ↔ -2 ^ 63 ≤ n ∧ n ≤ 2 ^ 63 - 1 ∧ m.toInt = n := by
  constructor
  · intro h
    unfold int64? at h
    split at h
    · rename_i hrange
      obtain rfl := Option.some.inj h
      exact ⟨hrange.1, hrange.2, Int64.toInt_ofInt_of_le hrange.1 (by omega)⟩
    · cases h
  · rintro ⟨_, _, rfl⟩
    exact int64?_toInt m

/-! ## §3 Values -/

section
variable {α : Type} {ofInt? : Int → Option α} {toInt : α → Int} {low high : Int}
  {inject : α → Value} {cs : List Char}

/-- What is read for a machine type: the integer that a text denotes, if it is in range. -/
theorem map_integerValueOf?_eq_some_iff
    (hrange : ∀ {n m}, ofInt? n = some m ↔ low ≤ n ∧ n ≤ high ∧ toInt m = n) {value : Value} :
    ((integerValueOf? cs).bind ofInt?).map inject = some value ↔
      ∃ n, DenotesInteger cs n ∧ low ≤ n ∧ n ≤ high ∧ ∃ m, toInt m = n ∧ value = inject m := by
  simp only [Option.map_eq_some_iff, Option.bind_eq_some_iff, integerValueOf?_eq_some_iff, hrange]
  constructor
  · rintro ⟨m, ⟨n, hn, hlow, hhigh, hm⟩, rfl⟩
    exact ⟨n, hn, hlow, hhigh, m, hm, rfl⟩
  · rintro ⟨n, hn, hlow, hhigh, m, hm, rfl⟩
    exact ⟨m, ⟨n, hn, hlow, hhigh, hm⟩, rfl⟩

/-- And nothing if it is above the range. -/
theorem map_integerValueOf?_eq_none
    (hrange : ∀ {n m}, ofInt? n = some m ↔ low ≤ n ∧ n ≤ high ∧ toInt m = n) {n : Int}
    (hn : DenotesInteger cs n) (hlarge : high < n) :
    ((integerValueOf? cs).bind ofInt?).map inject = none := by
  rw [Option.eq_none_iff_forall_ne_some]
  intro value hvalue
  obtain ⟨m, hm, _, hhigh, _⟩ := (map_integerValueOf?_eq_some_iff hrange).1 hvalue
  obtain rfl := hn.unique hm
  exact absurd hhigh (Int.not_le.2 hlarge)

end

namespace Descriptor

variable {symbols : List String} {raw : String}

theorem decode_int64_iff {value : Value} :
    decode ⟨⟨.int64, false⟩, symbols⟩ raw = some value ↔
      ∃ n, DenotesInteger raw.toList n ∧ -2 ^ 63 ≤ n ∧ n ≤ 2 ^ 63 - 1 ∧
        ∃ m : Int64, m.toInt = n ∧ value = .long m :=
  map_integerValueOf?_eq_some_iff Number.int64?_eq_some_iff

theorem decode_int32_iff {value : Value} :
    decode ⟨⟨.int32, false⟩, symbols⟩ raw = some value ↔
      ∃ n, DenotesInteger raw.toList n ∧ -2 ^ 31 ≤ n ∧ n ≤ 2 ^ 31 - 1 ∧
        ∃ m : Int32, m.toInt = n ∧ value = .int m :=
  map_integerValueOf?_eq_some_iff Number.int32?_eq_some_iff

/-- Texts that denote one integer are decoded alike. -/
theorem decode_eq_of_denotesInteger {kind : Kind} (hkind : kind = .int32 ∨ kind = .int64)
    {other : String} {n : Int} (hraw : DenotesInteger raw.toList n)
    (hother : DenotesInteger other.toList n) :
    decode ⟨⟨kind, false⟩, symbols⟩ raw = decode ⟨⟨kind, false⟩, symbols⟩ other := by
  have hvalue : integerValueOf? raw.toList = integerValueOf? other.toList := by
    rw [integerValueOf?_eq_some_iff.2 hraw, integerValueOf?_eq_some_iff.2 hother]
  rcases hkind with rfl | rfl
  · simp [decode, decodeItem, hvalue]
  · simp [decode, decodeItem, hvalue]

/-- **Texts are decoded as just the integers they denote.** A 64-bit property reads a text just
if it denotes an integer of 64 bits, and as that integer; a 32-bit one reads the same texts in
its own range. So a hexadecimal numeral above the range is nothing, and never a negative number,
and zeros in front of the digits make no difference. -/
theorem decode_integer_iff (symbols : List String) :
    (∀ raw value, decode ⟨⟨.int64, false⟩, symbols⟩ raw = some value ↔
      ∃ n, DenotesInteger raw.toList n ∧ -2 ^ 63 ≤ n ∧ n ≤ 2 ^ 63 - 1 ∧
        ∃ m : Int64, m.toInt = n ∧ value = .long m) ∧
    (∀ raw value, decode ⟨⟨.int32, false⟩, symbols⟩ raw = some value ↔
      ∃ n, DenotesInteger raw.toList n ∧ -2 ^ 31 ≤ n ∧ n ≤ 2 ^ 31 - 1 ∧
        ∃ m : Int32, m.toInt = n ∧ value = .int m) ∧
    (∀ x digits n, x = 'x' ∨ x = 'X' → Number.IsNumeral 16 digits n →
      (2 ^ 63 ≤ n →
        decode ⟨⟨.int64, false⟩, symbols⟩ (String.ofList ('0' :: x :: digits)) = none) ∧
      (2 ^ 31 ≤ n →
        decode ⟨⟨.int32, false⟩, symbols⟩ (String.ofList ('0' :: x :: digits)) = none)) ∧
    ∀ lead base digits n, (lead, base) ∈ integerForms → Number.IsNumeral base digits n →
      ∀ k kind, kind = .int32 ∨ kind = .int64 →
        decode ⟨⟨kind, false⟩, symbols⟩ (String.ofList (lead ++ (List.replicate k '0' ++ digits))) =
          decode ⟨⟨kind, false⟩, symbols⟩ (String.ofList (lead ++ digits)) := by
  refine ⟨fun raw value => decode_int64_iff, fun raw value => decode_int32_iff, ?_, ?_⟩
  · intro x digits n hx hdigits
    have hdenotes : DenotesInteger (String.ofList ('0' :: x :: digits)).toList n := by
      rw [String.toList_ofList]
      exact .hexadecimal hx hdigits
    constructor
    · intro hlarge
      exact map_integerValueOf?_eq_none Number.int64?_eq_some_iff hdenotes (by omega)
    · intro hlarge
      exact map_integerValueOf?_eq_none Number.int32?_eq_some_iff hdenotes (by omega)
  · intro lead base digits n hform hdigits k kind hkind
    obtain ⟨i, hi⟩ := denotesInteger_of_form hform hdigits
    refine decode_eq_of_denotesInteger (n := i) hkind ?_ ?_
    · rw [String.toList_ofList]
      exact hi k
    · rw [String.toList_ofList]
      exact hi 0

/-- The least integer of 64 bits is read, with as many zeros as there are; the pattern of its
bits in hexadecimal is not, nor a number of 33 bits where 32 are declared. -/
theorem integers_at_the_ends :
    (∃ m : Int64, decode ⟨⟨.int64, false⟩, []⟩ "-009223372036854775808" = some (.long m) ∧
      m.toInt = -2 ^ 63) ∧
    decode ⟨⟨.int64, false⟩, []⟩ "0x8000000000000000" = none ∧
    decode ⟨⟨.int32, false⟩, []⟩ "0X0100000000" = none ∧
    decode ⟨⟨.int32, false⟩, []⟩ "+007" = decode ⟨⟨.int32, false⟩, []⟩ "+7" := by
  obtain ⟨hlong, _, hlarge, hzeros⟩ := decode_integer_iff []
  have hleast : DenotesInteger "-009223372036854775808".toList (-2 ^ 63) :=
    integerValueOf?_eq_some_iff.1 (by decide +kernel)
  have hpattern : Number.IsNumeral 16 "8000000000000000".toList (2 ^ 63) :=
    Number.natural?_eq_some_iff.1 (by decide +kernel)
  have hlonger : Number.IsNumeral 16 "0100000000".toList (2 ^ 32) :=
    Number.natural?_eq_some_iff.1 (by decide +kernel)
  have hseven : Number.IsNumeral 10 ['7'] 7 := Number.natural?_eq_some_iff.1 (by decide +kernel)
  refine ⟨⟨.ofInt (-2 ^ 63), (hlong _ _).2 ⟨_, hleast, by decide, by decide, _, ?_, rfl⟩, ?_⟩, ?_,
    ?_, ?_⟩
  · decide +kernel
  · decide +kernel
  · exact (hlarge 'x' _ _ (.inl rfl) hpattern).1 (by decide)
  · exact (hlarge 'X' _ _ (.inr rfl) hlonger).2 (by decide)
  · exact hzeros ['+'] 10 ['7'] 7 (by decide) hseven 2 .int32 (.inl rfl)

end Descriptor

end PropSchema
