/-
PropSchema.Proofs.Value.RoundTrip — a value that fits a property is read back
from its stored text.

Two encoders face one decoder, and lists are joined by commas, so that three
things have to come together: each element is read back from its own text, no
element's text has a comma in it, and the list is not empty (the empty list and
the list of one empty text are stored alike). The first needs symbols that
differ, the second symbols without commas; valid properties have both.

§1 Fitting   — which values a descriptor takes, which lists can be cut again,
   and which accessors encode well.
§2 Elements  — one value and its text, by either encoder.
§3 Lists     — an encoder undone element by element is undone on lists.
§4 Accessors — `Accessor.decode_encode`.
-/
import PropSchema.Accessor
import PropSchema.Proofs.Number.Texts
import PropSchema.Proofs.Value.Elements

namespace PropSchema

/-! ## §1 Fitting -/

namespace Descriptor

/-- The single values of a descriptor's kind; a place needs a symbol. -/
def FitsItem (d : Descriptor) : Value → Prop
  | .bool _ => d.type.kind = .boolean
  | .int _ => d.type.kind = .int32
  | .long _ => d.type.kind = .int64
  | .double _ => d.type.kind = .double
  | .string _ => d.type.kind = .string
  | .ordinal n => d.type.kind = .enumeration ∧ n < d.symbols.length
  | .list _ => False

/-- The values a descriptor takes: lists of its single values, or those themselves. -/
def Fits (d : Descriptor) (value : Value) : Prop :=
  if d.type.isList then ∃ items, value = .list items ∧ ∀ item ∈ items, d.FitsItem item
  else d.FitsItem value

end Descriptor

namespace Value

/-- The elements of a list, and any other value as its only one. -/
def elements : Value → List Value
  | .list items => items
  | value => [value]

/-- Whether a list can be cut out of its text again: it is not empty, and no text
in it contains a comma. -/
def Separable : Value → Prop
  | .list items => items ≠ [] ∧ ∀ s, .string s ∈ items → ',' ∉ s.toList
  | _ => True

/-- Whether the doubles in a value are read back from their texts. -/
def DoublesReadBack (value : Value) : Prop :=
  ∀ x, .double x ∈ value.elements → Number.readDouble? (Number.doubleText x) = some x

end Value

/-- What an accessor needs to encode well: symbols that are different identifiers,
and no digits for anything but booleans. -/
structure Accessor.WellFormed (a : Accessor) : Prop where
  identifiers : ∀ symbol ∈ a.descriptor.symbols, IsIdentifier symbol
  distinct : a.descriptor.symbols.Nodup
  digits : a.integerAsBool = true → a.descriptor.type.kind = .boolean

theorem IsIdentifier.not_mem_comma {name : String} (h : IsIdentifier name) :
    ',' ∉ name.toList := by
  obtain ⟨c, cs, hname, hc, hcs⟩ := h
  have hword : Text.isWord ',' = false := by decide
  rw [hname, List.mem_cons]
  rintro (rfl | hmem)
  · have := Text.isWord_of_isWordStart (isWordStart_iff.2 hc)
    simp [hword] at this
  · have := isWord_iff.2 (hcs _ hmem)
    simp [hword] at this

theorem Property.Valid.wellFormed {owner : Owner} {p : Property} (h : p.Valid owner) :
    (Accessor.ofProperty owner p).WellFormed := by
  have hsymbols : p.descriptor.symbols = if p.type.kind = .enumeration then p.symbols else [] := by
    simp [Property.descriptor, ValueType.isEnum]
  by_cases henum : p.type.kind = .enumeration
  · obtain ⟨hident, hdiffer⟩ := h.symbols henum
    rw [if_pos henum] at hsymbols
    refine ⟨?_, ?_, h.digits⟩
    · intro symbol hmem
      exact hident symbol (by rwa [← hsymbols])
    · change p.descriptor.symbols.Nodup
      rw [hsymbols]
      exact hdiffer.imp fun hne heq => hne (by rw [heq]; rfl)
  · rw [if_neg henum] at hsymbols
    refine ⟨?_, ?_, h.digits⟩
    · intro symbol hmem
      rw [Accessor.ofProperty, hsymbols] at hmem
      simp at hmem
    · change p.descriptor.symbols.Nodup
      rw [hsymbols]
      exact List.nodup_nil

theorem Schema.Valid.wellFormed {s : Schema} (hs : s.Valid) {a : Accessor}
    (ha : a ∈ s.accessors) : a.WellFormed := by
  obtain ⟨p, hp, rfl⟩ := List.mem_map.1 ha
  exact (hs.props p hp).wellFormed

/-! ## §2 Elements -/

theorem booleanValue?_word (b : Bool) :
    booleanValue? (if b then "true" else "false").toList = some b := by
  cases b <;> decide

theorem booleanValue?_digit (b : Bool) :
    booleanValue? (if b then "1" else "0").toList = some b := by
  cases b <;> decide

/-- A canonical integer is not taken for a hexadecimal one. -/
theorem integerValueOf?_signedDecimal (n : Int) :
    integerValueOf? (Number.signedDecimal n) = some n := by
  have hx : ∀ {c : Char} {cs : List Char}, Number.signedDecimal n = '0' :: c :: cs →
      c ≠ 'x' ∧ c ≠ 'X' := by
    intro c cs h
    have hdigit : c.isDigit = true := by
      cases n with
      | ofNat n => exact Number.isDigit_of_mem_decimal (n := n) (by
          rw [Number.signedDecimal] at h; simp [h])
      | negSucc n => simp [Number.signedDecimal] at h
    constructor <;> rintro rfl <;> exact absurd hdigit (by decide)
  rw [← Number.integer?_signedDecimal n]
  generalize Number.signedDecimal n = text at hx
  unfold integerValueOf?
  split
  · exact absurd rfl (hx rfl).1
  · exact absurd rfl (hx rfl).2
  · rfl

theorem ordinal?_getElem {d : Descriptor} (h : d.symbols.Nodup) {n : Nat}
    (hn : n < d.symbols.length) : d.ordinal? d.symbols[n] = some n := by
  unfold Descriptor.ordinal?
  rw [List.findIdx?_eq_some_iff_getElem]
  refine ⟨hn, by simp, fun j hj => ?_⟩
  have hne := (List.pairwise_iff_getElem.1 h) j n (by omega) hn hj
  simpa using hne

/-- A single value has a text just if it fits. -/
theorem Descriptor.encodeItem_isOk_iff {d : Descriptor} {value : Value} :
    (∃ text, d.encodeItem value = .ok text) ↔ d.FitsItem value := by
  cases value with
  | ordinal n =>
    by_cases hkind : d.type.kind = .enumeration
    · by_cases hn : n < d.symbols.length
      · simp [encodeItem, FitsItem, symbol?, hkind, hn]
      · simp [encodeItem, FitsItem, symbol?, hkind, hn]
    · cases h : d.type.kind <;> simp_all [encodeItem, FitsItem]
  | _ => cases h : d.type.kind <;> simp [encodeItem, FitsItem, h]

theorem digitOf_isOk_iff {value : Value} :
    (∃ text, digitOf value = .ok text) ↔ ∃ b, value = .bool b := by
  cases value <;> simp [digitOf]

/-- A single value that fits is read back from its text, which has a comma only if
the value is a text with one. -/
theorem Descriptor.decodeItem_encodeItem {d : Descriptor}
    (hident : ∀ symbol ∈ d.symbols, IsIdentifier symbol) (hdistinct : d.symbols.Nodup)
    {value : Value} (hfit : d.FitsItem value) (hdouble : value.DoublesReadBack) :
    ∃ text, d.encodeItem value = .ok text ∧ d.decodeItem text = some value ∧
      ((∀ s, value = .string s → ',' ∉ s.toList) → ',' ∉ text.toList) := by
  have hnumber : ∀ n, ',' ∉ Number.signedDecimal n := fun n hmem =>
    (Number.isTextChar_of_mem_signedDecimal hmem).ne_comma rfl
  cases value with
  | bool b =>
    replace hfit : d.type.kind = .boolean := hfit
    refine ⟨if b then "true" else "false", by simp [encodeItem, hfit], ?_, fun _ => ?_⟩
    · simp only [decodeItem, hfit]
      rw [booleanValue?_word]
      rfl
    · cases b <;> decide
  | int n =>
    replace hfit : d.type.kind = .int32 := hfit
    refine ⟨Number.signedDecimalText n.toInt, by simp [encodeItem, hfit], ?_, fun _ => ?_⟩
    · simp [decodeItem, hfit, Number.signedDecimalText, integerValueOf?_signedDecimal,
        Number.int32?_toInt]
    · simpa [Number.signedDecimalText] using hnumber n.toInt
  | long n =>
    replace hfit : d.type.kind = .int64 := hfit
    refine ⟨Number.signedDecimalText n.toInt, by simp [encodeItem, hfit], ?_, fun _ => ?_⟩
    · simp [decodeItem, hfit, Number.signedDecimalText, integerValueOf?_signedDecimal,
        Number.int64?_toInt]
    · simpa [Number.signedDecimalText] using hnumber n.toInt
  | double x =>
    replace hfit : d.type.kind = .double := hfit
    refine ⟨String.ofList (Number.doubleText x), by simp [encodeItem, hfit], ?_, fun _ => ?_⟩
    · simp [decodeItem, hfit, hdouble x (by simp [Value.elements])]
    · rw [String.toList_ofList]
      exact fun hmem => (Number.isTextChar_of_mem_doubleText hmem).ne_comma rfl
  | string s =>
    replace hfit : d.type.kind = .string := hfit
    exact ⟨s, by simp [encodeItem, hfit], by simp [decodeItem, hfit], fun h => h s rfl⟩
  | ordinal n =>
    obtain ⟨hkind, hn⟩ : d.type.kind = .enumeration ∧ n < d.symbols.length := hfit
    refine ⟨d.symbols[n], ?_, ?_, fun _ => ?_⟩
    · simp [encodeItem, hkind, symbol?, List.getElem?_eq_getElem hn]
    · simp [decodeItem, hkind, ordinal?_getElem hdistinct hn]
    · exact (hident _ (List.getElem_mem hn)).not_mem_comma
  | list items => exact hfit.elim

theorem Descriptor.eq_bool_of_fitsItem {d : Descriptor} (hkind : d.type.kind = .boolean)
    {value : Value} (hfit : d.FitsItem value) : ∃ b, value = .bool b := by
  cases value <;> simp_all [FitsItem]

/-- A boolean is read back from its digit too. -/
theorem Descriptor.decodeItem_digitOf {d : Descriptor} (hkind : d.type.kind = .boolean)
    {value : Value} (hfit : d.FitsItem value) :
    ∃ text, digitOf value = .ok text ∧ d.decodeItem text = some value ∧ ',' ∉ text.toList := by
  obtain ⟨b, rfl⟩ := eq_bool_of_fitsItem hkind hfit
  refine ⟨if b then "1" else "0", by simp [digitOf], ?_, by cases b <;> decide⟩
  simp only [decodeItem, hkind]
  rw [booleanValue?_digit]
  rfl

/-! ## §3 Lists -/

theorem encodeItems_eq_mapM (d : Descriptor) (values : List Value) :
    d.encodeItems values = values.mapM d.encodeItem := by
  induction values with
  | nil => rfl
  | cons value values ih =>
    rw [List.mapM_cons, Descriptor.encodeItems, ih]
    cases d.encodeItem value with
    | error e => rfl
    | ok text => cases values.mapM d.encodeItem <;> rfl

theorem digitsOf_eq_mapM (values : List Value) : digitsOf values = values.mapM digitOf := by
  induction values with
  | nil => rfl
  | cons value values ih =>
    rw [List.mapM_cons, digitsOf, ih]
    cases digitOf value with
    | error e => rfl
    | ok text => cases values.mapM digitOf <;> rfl

theorem Descriptor.encode_list {d : Descriptor} (hlist : d.type.isList = true)
    (items : List Value) :
    d.encode (.list items) = (items.mapM d.encodeItem).map (Text.joined ',') := by
  rw [encode, if_pos hlist]
  simp only [encodeItems_eq_mapM]

theorem encodeAsDigits_list (items : List Value) :
    encodeAsDigits (.list items) = (items.mapM digitOf).map (Text.joined ',') := by
  rw [encodeAsDigits, digitsOf_eq_mapM]

/-- What a list descriptor decodes is a list, one element for each piece. -/
theorem Descriptor.decode_list_eq_some_iff {d : Descriptor} (hlist : d.type.isList = true)
    {raw : String} {value : Value} :
    d.decode raw = some value ↔
      ∃ items, (Text.pieces ',' raw).mapM d.decodeItem = some items ∧ value = .list items := by
  rw [decode, if_pos hlist, Option.map_eq_some_iff]
  simp only [eq_comm]

theorem Descriptor.decode_joined {d : Descriptor} (hlist : d.type.isList = true)
    {texts : List String} {items : List Value} (hdecode : texts.mapM d.decodeItem = some items)
    (hlength : texts.length = items.length) (hne : items ≠ [])
    (hcomma : ∀ text ∈ texts, ',' ∉ text.toList) :
    d.decode (Text.joined ',' texts) = some (.list items) := by
  have htexts : texts ≠ [] := by
    rintro rfl
    exact hne (List.length_eq_zero_iff.1 hlength.symm)
  rw [decode, if_pos hlist, Text.pieces_joined htexts hcomma, hdecode]
  rfl

/-! ## §4 Accessors -/

theorem Except.map_isOk_iff {ε α β : Type} {f : α → β} {r : Except ε α} :
    (∃ b, r.map f = .ok b) ↔ ∃ a, r = .ok a := by
  cases r <;> simp [Except.map]

theorem Except.exists_error_iff {ε α : Type} {r : Except ε α} :
    (∃ e, r = .error e) ↔ ¬ ∃ a, r = .ok a := by
  cases r <;> simp

/-- A value has a text just if it fits. -/
theorem Descriptor.encode_isOk_iff {d : Descriptor} {value : Value} :
    (∃ text, d.encode value = .ok text) ↔ d.Fits value := by
  unfold encode Fits
  by_cases hlist : d.type.isList = true
  · rw [if_pos hlist, if_pos hlist]
    cases value with
    | list items =>
      simp only [Except.map_isOk_iff, encodeItems_eq_mapM, mapM_isOk_iff, encodeItem_isOk_iff,
        Value.list.injEq, exists_eq_left']
    | _ => simp
  · rw [if_neg hlist, if_neg hlist, encodeItem_isOk_iff]

/-- A value has a text of digits just if it is a boolean or a list of booleans. -/
theorem encodeAsDigits_isOk_iff {value : Value} :
    (∃ text, encodeAsDigits value = .ok text) ↔ ∀ item ∈ value.elements, ∃ b, item = .bool b := by
  cases value with
  | list items =>
    simp only [encodeAsDigits, Except.map_isOk_iff, digitsOf_eq_mapM, mapM_isOk_iff,
      digitOf_isOk_iff, Value.elements]
  | _ => simp [encodeAsDigits, digitOf, Value.elements]

theorem Accessor.encode_isOk_of_fits {a : Accessor} (ha : a.WellFormed) {value : Value}
    (hfit : a.descriptor.Fits value) : ∃ text, a.encode value = .ok text := by
  unfold encode
  split
  · rename_i hdigits
    have hkind := ha.digits hdigits
    rw [encodeAsDigits_isOk_iff]
    intro item hitem
    unfold Descriptor.Fits at hfit
    split at hfit
    · obtain ⟨items, rfl, hitems⟩ := hfit
      exact Descriptor.eq_bool_of_fitsItem hkind (hitems item hitem)
    · obtain ⟨b, rfl⟩ := Descriptor.eq_bool_of_fitsItem hkind hfit
      exact ⟨b, List.mem_singleton.1 hitem⟩
  · exact Descriptor.encode_isOk_iff.2 hfit

/-- **A value that fits is stored, and read back from what is stored.** -/
theorem Accessor.decode_encode {a : Accessor} (ha : a.WellFormed) {value : Value}
    (hfit : a.descriptor.Fits value) (hsep : value.Separable) (hdouble : value.DoublesReadBack) :
    ∃ text, a.encode value = .ok text ∧ a.descriptor.decode text = some value := by
  by_cases hlist : a.descriptor.type.isList = true
  · rw [Descriptor.Fits, if_pos hlist] at hfit
    obtain ⟨items, rfl, hitems⟩ := hfit
    obtain ⟨hne, hstrings⟩ := hsep
    by_cases hdigits : a.integerAsBool = true
    · obtain ⟨texts, hencode, hdecode, hcomma, hlength⟩ := mapM_encode fun item hitem =>
        Descriptor.decodeItem_digitOf (ha.digits hdigits) (hitems item hitem)
      refine ⟨Text.joined ',' texts, ?_, Descriptor.decode_joined hlist hdecode hlength hne hcomma⟩
      rw [Accessor.encode, if_pos hdigits, encodeAsDigits_list, hencode]
      rfl
    · have hread : ∀ item ∈ items, item.DoublesReadBack := by
        intro item hitem x hx
        cases item with
        | list => exact (hitems _ hitem).elim
        | double y => exact hdouble x (by simp_all [Value.elements])
        | _ => simp [Value.elements] at hx
      obtain ⟨texts, hencode, hdecode, hcomma, hlength⟩ := mapM_encode
        (P := fun text : String => ',' ∉ text.toList) fun item hitem => by
        obtain ⟨text, hencode, hdecode, hcomma⟩ := Descriptor.decodeItem_encodeItem
          ha.identifiers ha.distinct (hitems item hitem) (hread item hitem)
        exact ⟨text, hencode, hdecode, hcomma fun s hs => hstrings s (hs ▸ hitem)⟩
      refine ⟨Text.joined ',' texts, ?_, Descriptor.decode_joined hlist hdecode hlength hne hcomma⟩
      rw [Accessor.encode, if_neg hdigits, Descriptor.encode_list hlist, hencode]
      rfl
  · rw [Descriptor.Fits, if_neg hlist] at hfit
    by_cases hdigits : a.integerAsBool = true
    · obtain ⟨text, hencode, hdecode, _⟩ := Descriptor.decodeItem_digitOf (ha.digits hdigits) hfit
      refine ⟨text, ?_, by rw [Descriptor.decode, if_neg hlist, hdecode]⟩
      cases value with
      | list => exact hfit.elim
      | _ => rw [Accessor.encode, if_pos hdigits, encodeAsDigits, hencode]; simp
    · obtain ⟨text, hencode, hdecode, _⟩ := Descriptor.decodeItem_encodeItem
        ha.identifiers ha.distinct hfit hdouble
      refine ⟨text, ?_, by rw [Descriptor.decode, if_neg hlist, hdecode]⟩
      unfold Accessor.encode Descriptor.encode
      rw [if_neg hdigits, if_neg hlist, hencode]

end PropSchema
