/-
PropSchema.Proofs.Text.Order — texts are in the order of their bytes.

Texts are compared code point by code point. UTF-8 is made so that comparing the bytes
comes to the same: of two characters, the one with the smaller code point has the smaller
bytes, whatever stands behind the two. A character's bytes tell its length first, and then
its code point in groups of six bits, the highest first.

§1 Characters — bytes of two characters, compared.
§2 Texts      — `utf8_lt_iff`.
-/
import PropSchema.Proofs.Artifact.DigestInput

namespace PropSchema

/-! ## §1 Characters -/

/-- Bytes given as numbers, compared with what stands behind them. -/
theorem cons_ofNat_lt_iff {a b : Nat} (ha : a < 256) (hb : b < 256) {l₁ l₂ : List UInt8} :
    UInt8.ofNat a :: l₁ < UInt8.ofNat b :: l₂ ↔ a < b ∨ a = b ∧ l₁ < l₂ := by
  rw [List.cons_lt_cons_iff, UInt8.lt_iff_toNat_lt, ← UInt8.toNat_inj, UInt8.toNat_ofNat',
    UInt8.toNat_ofNat', Nat.mod_eq_of_lt ha, Nat.mod_eq_of_lt hb]

/-- The smaller character has the smaller bytes, also if what stands behind is greater. -/
theorem utf8EncodeChar_lt {c d : Char} (h : c < d) (l₁ l₂ : List UInt8) :
    String.utf8EncodeChar c ++ l₁ < String.utf8EncodeChar d ++ l₂ := by
  have hlt : c.val.toNat < d.val.toNat := h
  have hd : d.val.toNat < 1114112 := by
    rcases d.valid with h | h <;> omega
  -- the groups of six bits, one division at a time
  have hgroups : ∀ v : Nat, v / 4096 = v / 64 / 64 ∧ v / 262144 = v / 64 / 64 / 64 := by omega
  unfold String.utf8EncodeChar
  generalize c.val.toNat = m at hlt
  generalize d.val.toNat = n at hlt hd
  dsimp only
  -- one case for each pair of lengths
  split_ifs <;>
    simp (disch := omega) only [List.cons_append, List.nil_append, cons_ofNat_lt_iff, hgroups] <;>
    omega

/-! ## §2 Texts -/

theorem utf8_eq_flatMap (text : String) :
    text.toUTF8.toList = text.toList.flatMap String.utf8EncodeChar := by
  have hbytes : text.toUTF8 = text.toList.utf8Encode := by simp
  rw [toList_eq_data, hbytes, List.utf8Encode, List.toList_data_toByteArray]

/-- Characters in front of one another are in front of one another as bytes. -/
theorem flatMap_utf8EncodeChar_lt {cs ds : List Char} (h : cs < ds) :
    cs.flatMap String.utf8EncodeChar < ds.flatMap String.utf8EncodeChar := by
  induction cs generalizing ds with
  | nil =>
    cases ds with
    | nil => exact absurd h (List.not_lt_nil _)
    | cons d ds =>
      obtain ⟨byte, bytes, hd⟩ := List.exists_cons_of_ne_nil (@String.utf8EncodeChar_ne_nil d)
      rw [List.flatMap_cons, hd]
      exact List.nil_lt_cons _ _
  | cons c cs ih =>
    cases ds with
    | nil => exact absurd h (List.not_lt_nil _)
    | cons d ds =>
      rw [List.flatMap_cons, List.flatMap_cons]
      rcases List.cons_lt_cons_iff.1 h with hlt | ⟨rfl, hlt⟩
      · exact utf8EncodeChar_lt hlt _ _
      · exact List.append_left_lt (ih hlt)

theorem utf8_lt_of_lt {a b : String} (h : a < b) : a.toUTF8.toList < b.toUTF8.toList := by
  rw [utf8_eq_flatMap, utf8_eq_flatMap]
  exact flatMap_utf8EncodeChar_lt (String.lt_iff.1 h)

/-- **The order of texts is that of their bytes.** -/
theorem utf8_lt_iff {a b : String} : a.toUTF8.toList < b.toUTF8.toList ↔ a < b := by
  refine ⟨fun h => ?_, utf8_lt_of_lt⟩
  by_contra hlt
  by_cases hgt : b < a
  · exact List.lt_asymm h (utf8_lt_of_lt hgt)
  · obtain rfl := String.le_antisymm (String.not_lt.1 hgt) (String.not_lt.1 hlt)
    exact List.lt_irrefl _ h

end PropSchema
