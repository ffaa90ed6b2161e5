/-
PropSchema.Proofs.Value.Doubles — stored doubles keep every bit.

A bit pattern stands for a double, and all patterns of NaNs for one. What is
stored for a pattern is decoded to a double with that very pattern, or to the
NaN if it was a NaN's; and neither range check refuses what was written. The
same goes for lists, since no text of a double has a comma in it.

§1 Patterns — a double has the bits it was made from.
§2 Storing  — `doubles_keep_bits`, and values whose doubles are read back.
-/
import PropSchema.Proofs.Number.DoubleTexts
import PropSchema.Proofs.Value.RoundTrip

namespace PropSchema

namespace Number

/-! ## §1 Patterns -/

/-- Whether a bit pattern is that of a NaN: the eleven bits of the exponent are all
set, and of the 52 bits of the fraction some are. -/
def IsNaN (bits : UInt64) : Prop :=
  bits.toNat / 2 ^ 52 % 2 ^ 11 = 2 ^ 11 - 1 ∧ bits.toNat % 2 ^ 52 ≠ 0

instance (bits : UInt64) : Decidable (IsNaN bits) := by
  unfold IsNaN
  infer_instance

/-- Whether a double has a given bit pattern, or is the NaN and the pattern one of
a NaN. -/
def HasBits (x : Binary64) (bits : UInt64) : Prop :=
  if IsNaN bits then x = .nan else x.toBits = bits

theorem isNaN_iff {bits : UInt64} : IsNaN bits ↔ infiniteRank < bits.toNat % signBit := by
  have hlt := bits.toNat_lt
  unfold IsNaN
  rw [Binary64.infiniteRank_eq, Binary64.binade_eq, Binary64.signBit_eq]
  omega

/-- Every double is made from its bits. -/
theorem hasBits_ofBits (bits : UInt64) : HasBits (.ofBits bits) bits := by
  have hlt := bits.toNat_lt
  have hword : ∀ rank, rank = bits.toNat % signBit →
      UInt64.ofNat (Binary64.word (signBit ≤ bits.toNat) rank) = bits := by
    intro rank hrank
    subst hrank
    have hsign : Binary64.word (signBit ≤ bits.toNat) (bits.toNat % signBit) = bits.toNat := by
      unfold Binary64.word
      simp only [decide_eq_true_eq]
      rw [Binary64.signBit_eq]
      split <;> omega
    rw [hsign, UInt64.ofNat_toNat]
  unfold HasBits Binary64.ofBits
  simp only
  by_cases hnan : IsNaN bits
  · rw [if_pos hnan, if_pos (isNaN_iff.1 hnan)]
  · have hrank := mt isNaN_iff.2 hnan
    rw [if_neg hnan, if_neg hrank, Binary64.ofRank]
    split
    · exact hword _ rfl
    · exact hword _ (by omega)

end Number

/-! ## §2 Storing -/

/-- The doubles in a value are always read back. -/
theorem Value.doublesReadBack (value : Value) : value.DoublesReadBack :=
  fun x _ => Number.readDouble?_doubleText x

/-- What is written for a double passes both range checks, and the plain reading of it
is that double. -/
theorem Number.readNearest?_doubleText (x : Binary64) :
    readNearest? (doubleText x) = some x ∧ overflows (doubleText x) x = false ∧
      underflows (doubleText x) x = false := by
  have hread := readDouble?_doubleText x
  rw [readDouble?_eq_filter, Option.filter_eq_some_iff, Bool.and_eq_true, Bool.not_eq_true',
    Bool.not_eq_true'] at hread
  exact hread

namespace Descriptor

theorem decodeItem_doubleText {d : Descriptor} (hkind : d.type.kind = .double)
    (x : Number.Binary64) :
    d.decodeItem (String.ofList (Number.doubleText x)) = some (.double x) := by
  simp [decodeItem, hkind, Number.readDouble?_doubleText]

/-- A list of doubles is stored, and read back from what is stored. -/
theorem decode_encode_doubles {d : Descriptor} (htype : d.type = ⟨.double, true⟩)
    {xs : List Number.Binary64} (hne : xs ≠ []) :
    ∃ text, d.encode (.list (xs.map .double)) = .ok text ∧
      d.decode text = some (.list (xs.map .double)) := by
  have hkind : d.type.kind = .double := by rw [htype]
  have hlist : d.type.isList = true := by rw [htype]
  have hitem : ∀ item ∈ xs.map Value.double, ∃ text, d.encodeItem item = .ok text ∧
      d.decodeItem text = some item ∧ ',' ∉ text.toList := by
    intro item hitem
    obtain ⟨x, _, rfl⟩ := List.mem_map.1 hitem
    refine ⟨String.ofList (Number.doubleText x), by simp [encodeItem, hkind],
      decodeItem_doubleText hkind x, ?_⟩
    rw [String.toList_ofList]
    exact fun hmem => (Number.isTextChar_of_mem_doubleText hmem).ne_comma rfl
  obtain ⟨texts, hencode, hdecode, hcomma, hlength⟩ := mapM_encode hitem
  refine ⟨Text.joined ',' texts, ?_,
    decode_joined hlist hdecode hlength (by simpa using hne) hcomma⟩
  rw [encode_list hlist, hencode]
  rfl

end Descriptor

/-- **Stored doubles keep every bit.** The text of the double of a bit pattern is read
as a double with that pattern, or as the NaN if the pattern is a NaN's; the plain
reading already gives it, and neither range check refuses it. A list of doubles with
at least one element is read back element by element. -/
theorem Descriptor.doubles_keep_bits (symbols : List String) (bits : UInt64)
    (more : List UInt64) :
    (∃ text back, encode ⟨⟨.double, false⟩, symbols⟩ (.double (.ofBits bits)) = .ok text ∧
      Number.readNearest? text.toList = some back ∧
      Number.overflows text.toList back = false ∧ Number.underflows text.toList back = false ∧
      decode ⟨⟨.double, false⟩, symbols⟩ text = some (.double back) ∧
      Number.HasBits back bits) ∧
    ∃ text backs, encode ⟨⟨.double, true⟩, symbols⟩
        (.list ((bits :: more).map fun b => .double (.ofBits b))) = .ok text ∧
      decode ⟨⟨.double, true⟩, symbols⟩ text = some (.list (backs.map .double)) ∧
      List.Forall₂ Number.HasBits backs (bits :: more) := by
  constructor
  · obtain ⟨hread, hover, hunder⟩ := Number.readNearest?_doubleText (.ofBits bits)
    have hdecode := decodeItem_doubleText (d := ⟨⟨.double, false⟩, symbols⟩) rfl (.ofBits bits)
    refine ⟨String.ofList (Number.doubleText (.ofBits bits)), .ofBits bits, rfl, ?_⟩
    rw [String.toList_ofList]
    exact ⟨hread, hover, hunder, hdecode, Number.hasBits_ofBits bits⟩
  · obtain ⟨text, hencode, hdecode⟩ := decode_encode_doubles
      (d := ⟨⟨.double, true⟩, symbols⟩) rfl
      (List.cons_ne_nil (Number.Binary64.ofBits bits) (more.map .ofBits))
    refine ⟨text, (bits :: more).map .ofBits, ?_, hdecode, ?_⟩
    · simpa [Function.comp_def] using hencode
    · rw [List.forall₂_map_left_iff, List.forall₂_same]
      exact fun b _ => Number.hasBits_ofBits b

end PropSchema
