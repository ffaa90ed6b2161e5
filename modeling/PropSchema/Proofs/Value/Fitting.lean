/-
PropSchema.Proofs.Value.Fitting — the encoder decides which values fit.

Whether a value fits is said by `Descriptor.Fits`, kind by kind and without an encoder. The encoder
has a text for just the values that fit, however other values are nested, and says of the others
why they do not: a list is expected, or a single value is of another kind or the place of no
symbol. In a list it is the first element that does not fit that is named. The empty list has no
such element, and fits wherever lists do.

§1 Causes — `Misfits` for single values, and `Refuses` for all.
§2 Values — `encode_decides_fit`.
-/
import PropSchema.Proofs.Value.RoundTrip

namespace PropSchema

/-! ## §1 Causes -/

/-- The kind of a single value. A list has none. -/
def Value.kind? : Value → Option Kind
  | .bool _ => some .boolean
  | .int _ => some .int32
  | .long _ => some .int64
  | .double _ => some .double
  | .string _ => some .string
  | .ordinal _ => some .enumeration
  | .list _ => none

namespace Descriptor

/-- Why a single value does not fit: it is not of the descriptor's kind, or it is the place of no
symbol. -/
inductive Misfits (d : Descriptor) : Value → Misuse → Prop where
  | otherKind {item : Value} (h : item.kind? ≠ some d.type.kind) :
      Misfits d item (.otherKind item d.type.kind)
  | noSymbol {n : Nat} (kind : d.type.kind = .enumeration) (h : d.symbols.length ≤ n) :
      Misfits d (.ordinal n) (.noSymbol n d.symbols)

/-- Why a value does not fit: it is no list where one is needed, or a single value does not fit,
which of the elements of a list is the first that does not. -/
inductive Refuses (d : Descriptor) : Value → Misuse → Prop where
  | notList {value : Value} (list : d.type.isList = true) (h : ∀ items, value ≠ .list items) :
      Refuses d value (.notList value)
  | element {items : List Value} {item : Value} {misuse : Misuse} (list : d.type.isList = true)
      (first : IsFirst (¬ d.FitsItem ·) items item) (h : d.Misfits item misuse) :
      Refuses d (.list items) misuse
  | single {value : Value} {misuse : Misuse} (list : d.type.isList = false)
      (h : d.Misfits value misuse) : Refuses d value misuse

variable {d : Descriptor} {item value : Value} {misuse : Misuse}

theorem encodeItem_of_kind_ne (h : item.kind? ≠ some d.type.kind) :
    d.encodeItem item = .error (.otherKind item d.type.kind) := by
  cases hkind : d.type.kind <;> cases item <;> simp_all [encodeItem, Value.kind?]

/-- The place of a symbol is written as the symbol, any other place is refused. -/
theorem encodeItem_ordinal_eq_error_iff (hkind : d.type.kind = .enumeration) {n : Nat} :
    d.encodeItem (.ordinal n) = .error misuse ↔
      d.symbols.length ≤ n ∧ misuse = .noSymbol n d.symbols := by
  simp only [encodeItem, hkind, symbol?]
  cases hn : d.symbols[n]? with
  | none => simp [List.getElem?_eq_none_iff.1 hn, eq_comm]
  | some symbol =>
    obtain ⟨hlt, _⟩ := List.getElem?_eq_some_iff.1 hn
    simp [Nat.not_le.2 hlt]

theorem encodeItem_eq_error_iff : d.encodeItem item = .error misuse ↔ d.Misfits item misuse := by
  constructor
  · intro h
    by_cases hkind : item.kind? = some d.type.kind
    · cases item with
      | ordinal n =>
        have henum : d.type.kind = .enumeration := (Option.some.inj hkind).symm
        obtain ⟨hn, rfl⟩ := (encodeItem_ordinal_eq_error_iff henum).1 h
        exact .noSymbol henum hn
      | list items => nomatch hkind
      | _ => simp [encodeItem, ← Option.some.inj hkind] at h
    · rw [encodeItem_of_kind_ne hkind] at h
      obtain rfl := Except.error.inj h
      exact .otherKind hkind
  · intro h
    cases h with
    | otherKind h => exact encodeItem_of_kind_ne h
    | noSymbol kind h => exact (encodeItem_ordinal_eq_error_iff kind).2 ⟨h, rfl⟩

/-- The wording of a misfit: a value that is of another kind is named itself, and the place of no
symbol by its number. -/
theorem Misfits.message (h : d.Misfits item misuse) :
    misuse.message = "value " ++ item.text ++ " does not match " ++ d.type.kind.name ∨
      ∃ n, item = .ordinal n ∧ d.type.kind = .enumeration ∧
        misuse.message = "Invalid enum ordinal " ++ Number.decimalText n ++ " for symbols " ++
          Text.quoteList d.symbols := by
  cases h with
  | otherKind h => exact .inl rfl
  | noSymbol hkind h => exact .inr ⟨_, rfl, hkind, rfl⟩

/-! ## §2 Values -/

theorem encode_list_eq_error_iff (hlist : d.type.isList = true) {items : List Value} :
    d.encode (.list items) = .error misuse ↔
      ∃ item, IsFirst (¬ d.FitsItem ·) items item ∧ d.Misfits item misuse := by
  have hmap : ∀ r : Except Misuse (List String),
      r.map (Text.joined ',') = .error misuse ↔ r = .error misuse := by
    intro r
    cases r <;> simp [Except.map]
  rw [encode_list hlist, hmap, mapM_eq_error_iff]
  simp only [encodeItem_isOk_iff, encodeItem_eq_error_iff]

theorem encode_of_ne_list (hlist : d.type.isList = true) (h : ∀ items, value ≠ .list items) :
    d.encode value = .error (.notList value) := by
  cases value with
  | list items => exact absurd rfl (h items)
  | _ => simp [encode, hlist]

/-- Where lists are needed, a value is refused that is none, or has an element to blame. -/
theorem encode_eq_error_iff_of_isList (hlist : d.type.isList = true) :
    d.encode value = .error misuse ↔ d.Refuses value misuse := by
  by_cases hvalue : ∃ items, value = .list items
  · obtain ⟨items, rfl⟩ := hvalue
    rw [encode_list_eq_error_iff hlist]
    constructor
    · rintro ⟨item, hfirst, h⟩
      exact .element hlist hfirst h
    · intro h
      cases h with
      | notList _ h => exact absurd rfl (h items)
      | element _ hfirst h => exact ⟨_, hfirst, h⟩
      | single list => simp [hlist] at list
  · rw [not_exists] at hvalue
    rw [encode_of_ne_list hlist hvalue]
    constructor
    · intro h
      obtain rfl := Except.error.inj h
      exact .notList hlist hvalue
    · intro h
      cases h with
      | notList => rfl
      | element => exact absurd rfl (hvalue _)
      | single list => simp [hlist] at list

/-- What is refused is refused for the reason there is. -/
theorem encode_eq_error_iff_refuses :
    d.encode value = .error misuse ↔ d.Refuses value misuse := by
  cases hlist : d.type.isList with
  | true => exact encode_eq_error_iff_of_isList hlist
  | false =>
    have hencode : d.encode value = d.encodeItem value := by
      unfold encode
      simp [hlist]
    rw [hencode, encodeItem_eq_error_iff]
    constructor
    · intro h
      exact .single hlist h
    · intro h
      cases h with
      | notList list => simp [hlist] at list
      | element list => simp [hlist] at list
      | single _ h => exact h

/-- **The encoder decides which values fit.** It has a text for a value, of whatever nesting, just
if the value fits, and otherwise it refuses the value for the one reason there is: there is no
list where one is needed, or a single value is of another kind or the place of no symbol, which is
then named; of several elements that do not fit it is the first. The empty list is refused
nowhere that lists are needed. -/
theorem encode_decides_fit (d : Descriptor) (value : Value) :
    ((∃ text, d.encode value = .ok text) ↔ d.Fits value) ∧
    ((∃ misuse, d.encode value = .error misuse) ↔ ¬ d.Fits value) ∧
    (∀ misuse, d.encode value = .error misuse ↔ d.Refuses value misuse) ∧
    (∀ item misuse, d.Misfits item misuse →
      misuse.message = "value " ++ item.text ++ " does not match " ++ d.type.kind.name ∨
        ∃ n, item = .ordinal n ∧ d.type.kind = .enumeration ∧
          misuse.message = "Invalid enum ordinal " ++ Number.decimalText n ++ " for symbols " ++
            Text.quoteList d.symbols) ∧
    (d.type.isList = true → d.Fits (.list [])) := by
  refine ⟨encode_isOk_iff, ?_, ?_, ?_, ?_⟩
  · rw [Except.exists_error_iff, encode_isOk_iff]
  · intro misuse
    exact encode_eq_error_iff_refuses
  · intro item misuse h
    exact h.message
  · intro hlist
    rw [Fits, if_pos hlist]
    exact ⟨[], rfl, by simp⟩

/-- Of a list in a list of places and the place of no symbol behind it, the first is named; alone,
the second is. A number of 64 bits does not fit where one of 32 is needed. -/
theorem misfits_named :
    (∃ misuse, encode ⟨⟨.enumeration, true⟩, ["on", "off"]⟩
        (.list [.ordinal 1, .list [.ordinal 0], .ordinal 7]) = .error misuse ∧
      misuse.message = "value List([Enum(0)]) does not match Enum") ∧
    (∃ misuse, encode ⟨⟨.enumeration, true⟩, ["on", "off"]⟩ (.list [.ordinal 1, .ordinal 7]) =
        .error misuse ∧
      misuse.message = "Invalid enum ordinal 7 for symbols [\"on\", \"off\"]") ∧
    (∃ misuse, encode ⟨⟨.int32, false⟩, []⟩ (.long 1) = .error misuse) ∧
    ∃ text, encode ⟨⟨.int32, true⟩, []⟩ (.list []) = .ok text := by
  obtain ⟨_, _, hnested, hmessage, _⟩ :=
    encode_decides_fit ⟨⟨.enumeration, true⟩, ["on", "off"]⟩
      (.list [.ordinal 1, .list [.ordinal 0], .ordinal 7])
  obtain ⟨_, _, hplaces, _⟩ :=
    encode_decides_fit ⟨⟨.enumeration, true⟩, ["on", "off"]⟩ (.list [.ordinal 1, .ordinal 7])
  obtain ⟨_, hlong, _⟩ := encode_decides_fit ⟨⟨.int32, false⟩, []⟩ (.long 1)
  obtain ⟨hempty, _, _, _, hlists⟩ := encode_decides_fit ⟨⟨.int32, true⟩, []⟩ (.list [])
  have hlist : Misfits ⟨⟨.enumeration, true⟩, ["on", "off"]⟩ (.list [.ordinal 0])
      (.otherKind (.list [.ordinal 0]) .enumeration) := .otherKind (by decide)
  have hplace : Misfits ⟨⟨.enumeration, true⟩, ["on", "off"]⟩ (.ordinal 7)
      (.noSymbol 7 ["on", "off"]) := .noSymbol rfl (by decide)
  refine ⟨⟨_, (hnested _).2 (.element rfl ?_ hlist), ?_⟩,
    ⟨_, (hplaces _).2 (.element rfl ?_ hplace), ?_⟩, hlong.2 ?_, hempty.2 (hlists rfl)⟩
  · exact ⟨[.ordinal 1], [.ordinal 7], rfl, by simp [FitsItem], by simp [FitsItem]⟩
  · rcases hmessage _ _ hlist with h | ⟨_, h, _⟩
    · exact h.trans (by decide +kernel)
    · cases h
  · exact ⟨[.ordinal 1], [], rfl, by simp [FitsItem], by simp [FitsItem]⟩
  · rcases hmessage _ _ hplace with h | ⟨n, h, _, htext⟩
    · exact absurd h (by decide +kernel)
    · obtain rfl := Value.ordinal.inj h
      exact htext.trans (by decide +kernel)
  · simp [Fits, FitsItem]

end Descriptor

end PropSchema
