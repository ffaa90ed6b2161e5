/-
PropSchema.Proofs.Number.Texts — what the texts of numbers are made of, and
that integers are read back from theirs.

§1 Characters — `IsTextChar` holds of every character that the texts of
   integers and doubles have: digits, minus signs, points and letters, but never
   the comma that separates the elements of a list.
§2 Integers   — `signedDecimal` is undone by `integer?`, and the machine ranges
   lose none of their own numbers.
-/
import PropSchema.Number.DoubleText

namespace PropSchema.Number

/-! ## §1 Characters -/

/-- The characters of the texts of numbers. -/
def IsTextChar (c : Char) : Prop :=
  c.isAlphanum = true ∨ c = '-' ∨ c = '.'

theorem IsTextChar.ne_comma {c : Char} (h : IsTextChar c) : c ≠ ',' := by
  rintro rfl
  rcases h with h | h | h <;> exact absurd h (by decide)

theorem isDigit_digitChar {d : Nat} (h : d < 10) : (digitChar d).isDigit = true := by
  have : ∀ d : Fin 10, (digitChar d.val).isDigit = true := by decide
  exact this ⟨d, h⟩

theorem isDigit_of_mem_decimal {n : Nat} {c : Char} (h : c ∈ decimal n) : c.isDigit = true := by
  induction n using Nat.strongRecOn with
  | _ n ih =>
    rw [decimal] at h
    split at h
    · rename_i hlt
      rw [List.mem_singleton.1 h]
      exact isDigit_digitChar hlt
    · rcases List.mem_append.1 h with h | h
      · exact ih (n / 10) (by omega) h
      · rw [List.mem_singleton.1 h]
        exact isDigit_digitChar (Nat.mod_lt n (by decide))

theorem isTextChar_of_isDigit {c : Char} (h : c.isDigit = true) : IsTextChar c :=
  .inl (by simp [Char.isAlphanum, h])

theorem isTextChar_of_mem_decimal {n : Nat} {c : Char} (h : c ∈ decimal n) : IsTextChar c :=
  isTextChar_of_isDigit (isDigit_of_mem_decimal h)

theorem isTextChar_of_mem_signedDecimal {n : Int} {c : Char} (h : c ∈ signedDecimal n) :
    IsTextChar c := by
  cases n with
  | ofNat n => exact isTextChar_of_mem_decimal h
  | negSucc n =>
    rcases List.mem_cons.1 h with rfl | h
    · exact .inr (.inl rfl)
    · exact isTextChar_of_mem_decimal h

theorem isTextChar_of_mem_positional {d : Decimal} {c : Char} (h : c ∈ d.positional) :
    IsTextChar c := by
  have hzero : IsTextChar '0' := isTextChar_of_isDigit (by decide)
  have hpoint : IsTextChar '.' := .inr (.inr rfl)
  unfold Decimal.positional at h
  split at h
  · rcases List.mem_append.1 h with h | h
    · exact isTextChar_of_mem_decimal h
    · rw [List.eq_of_mem_replicate h]
      exact hzero
  · dsimp only at h
    split at h
    · rcases List.mem_cons.1 h with rfl | h
      · exact hzero
      rcases List.mem_cons.1 h with rfl | h
      · exact hpoint
      rcases List.mem_append.1 h with h | h
      · rw [List.eq_of_mem_replicate h]
        exact hzero
      · exact isTextChar_of_mem_decimal h
    · rcases List.mem_append.1 h with h | h
      · exact isTextChar_of_mem_decimal (List.mem_of_mem_take h)
      rcases List.mem_cons.1 h with rfl | h
      · exact hpoint
      · exact isTextChar_of_mem_decimal (List.mem_of_mem_drop h)

theorem isTextChar_of_mem_scientific {d : Decimal} {c : Char} (h : c ∈ d.scientific) :
    IsTextChar c := by
  have he : IsTextChar 'e' := .inl (by decide)
  unfold Decimal.scientific at h
  split at h
  · simp at h
  · rename_i lead hlead
    rcases List.mem_cons.1 h with rfl | h
    · exact isTextChar_of_mem_decimal (n := d.coefficient) (by simp [hlead])
    rcases List.mem_cons.1 h with rfl | h
    · exact he
    · exact isTextChar_of_mem_signedDecimal h
  · rename_i lead places _ hdigits
    have hmem : ∀ x ∈ lead :: places, IsTextChar x := fun x hx =>
      isTextChar_of_mem_decimal (n := d.coefficient) (hdigits ▸ hx)
    rcases List.mem_cons.1 h with rfl | h
    · exact hmem _ List.mem_cons_self
    rcases List.mem_cons.1 h with rfl | h
    · exact .inr (.inr rfl)
    rcases List.mem_append.1 h with h | h
    · exact hmem _ (List.mem_cons_of_mem _ h)
    rcases List.mem_cons.1 h with rfl | h
    · exact he
    · exact isTextChar_of_mem_signedDecimal h

theorem isTextChar_of_mem_signed {negative : Bool} {text : List Char} {c : Char}
    (htext : ∀ c ∈ text, IsTextChar c) (h : c ∈ signed negative text) : IsTextChar c := by
  unfold signed at h
  split at h
  · rcases List.mem_cons.1 h with rfl | h
    · exact .inr (.inl rfl)
    · exact htext c h
  · exact htext c h

theorem isTextChar_of_mem_magnitudeText {rank : Nat} {c : Char} (h : c ∈ magnitudeText rank) :
    IsTextChar c := by
  unfold magnitudeText at h
  split at h
  · rw [List.mem_singleton.1 h]
    exact isTextChar_of_isDigit (by decide)
  · dsimp only at h
    split at h
    · exact isTextChar_of_mem_scientific h
    · exact isTextChar_of_mem_positional h

theorem isTextChar_of_mem_doubleText {x : Binary64} {c : Char} (h : c ∈ doubleText x) :
    IsTextChar c := by
  have hletters : ∀ cs : List Char, cs.all Char.isAlphanum = true → ∀ c ∈ cs, IsTextChar c :=
    fun _ hcs c hc => .inl (List.all_eq_true.1 hcs c hc)
  cases x with
  | nan => exact hletters _ (by decide) c h
  | infinite negative => exact isTextChar_of_mem_signed (hletters _ (by decide)) h
  | finite negative rank =>
    exact isTextChar_of_mem_signed (fun _ => isTextChar_of_mem_magnitudeText) h

/-! ## §2 Integers -/

/-- A text that starts with a digit has no sign for `integer?` to take. -/
theorem integer?_of_isDigit {c : Char} (hc : c.isDigit = true) (cs : List Char) :
    integer? (c :: cs) = (natural? 10 (c :: cs)).map Int.ofNat := by
  unfold integer?
  split
  · rename_i h
    rw [(List.cons.inj h).1] at hc
    exact absurd hc (by decide)
  · rename_i h
    rw [(List.cons.inj h).1] at hc
    exact absurd hc (by decide)
  · rfl

/-- A canonical integer is read back as its number. -/
theorem integer?_signedDecimal (n : Int) : integer? (signedDecimal n) = some n := by
  cases n with
  | ofNat n =>
    obtain ⟨c, cs, hcs⟩ := List.exists_cons_of_ne_nil (decimal_ne_nil n)
    have hc : c.isDigit = true := isDigit_of_mem_decimal (n := n) (by simp [hcs])
    rw [signedDecimal, hcs, integer?_of_isDigit hc, ← hcs, natural?_decimal]
    rfl
  | negSucc n =>
    rw [signedDecimal, integer?, natural?_decimal]
    rfl

theorem int32?_toInt (n : Int32) : int32? n.toInt = some n := by
  have hlow : -2147483648 ≤ n.toInt := Int32.le_toInt n
  have hhigh : n.toInt < 2147483648 := Int32.toInt_lt n
  rw [int32?, if_pos (by omega), Int32.ofInt_toInt]

theorem int64?_toInt (n : Int64) : int64? n.toInt = some n := by
  have hlow : -9223372036854775808 ≤ n.toInt := Int64.le_toInt n
  have hhigh : n.toInt < 9223372036854775808 := Int64.toInt_lt n
  rw [int64?, if_pos (by omega), Int64.ofInt_toInt]

end PropSchema.Number
