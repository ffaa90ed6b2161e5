/-
PropSchema.Proofs.Value.Canonical — encoding undoes decoding, up to the choice of text.

`stored_reads_back_iff` starts from values of valid properties. Here the start is any text and
any descriptor, valid or not: symbols may repeat, be empty or have commas in them. Whatever a
text is decoded to has a text of its own, which is decoded to the same value again, so that
going there and back twice changes nothing more. It is enough to look at what decoding can give:
elements of lists come from pieces without commas, and the place of a symbol is that of its first
occurrence.

§1 Elements — one piece of text.
§2 Lists    — pieces one after the other.
§3 Values   — `encode_canonical`.
-/
import PropSchema.Proofs.Rewriting

namespace PropSchema

namespace Descriptor

/-- The text that the value of a text is written as, if the text has a value. -/
def canonical? (d : Descriptor) (raw : String) : Option String :=
  (d.decode raw).bind fun value => (d.encode value).toOption

/-- Whether values are texts themselves or the places of texts. -/
def IsVerbatim (d : Descriptor) : Prop :=
  d.type.kind = .string ∨ d.type.kind = .enumeration

/-- What the text of a decoded value is to the text that it was decoded from: it is decoded to
the value again, and is the same text where values are texts. Booleans have a second text, made of
digits, which is decoded to the value too. -/
structure IsCanonical (d : Descriptor) (raw : String) (value : Value) (text : String) : Prop where
  encode : d.encode value = .ok text
  decode : d.decode text = some value
  verbatim : d.IsVerbatim → text = raw
  digits : d.type.kind = .boolean →
    ∃ digits, encodeAsDigits value = .ok digits ∧ d.decode digits = some value

variable {d : Descriptor} {raw : String} {value : Value}

/-! ## §1 Elements -/

/-- Without an enumeration the symbols make no difference. -/
theorem item_of_ne_enumeration (hkind : d.type.kind ≠ .enumeration) :
    decodeItem ⟨d.type, []⟩ = d.decodeItem ∧ encodeItem ⟨d.type, []⟩ = d.encodeItem := by
  constructor
  · funext raw
    cases h : d.type.kind <;> simp_all [decodeItem]
  · funext value
    cases h : d.type.kind <;> cases value <;> simp_all [encodeItem]

/-- The symbol at the place that a text is decoded to is that text. -/
theorem encodeItem_ordinal {n : Nat} (h : d.decodeItem raw = some (.ordinal n)) :
    d.encodeItem (.ordinal n) = .ok raw := by
  obtain ⟨hkind, hlt⟩ : d.type.kind = .enumeration ∧ n < d.symbols.length :=
    fitsItem_of_decodeItem h
  simp only [decodeItem, hkind, Option.map_eq_some_iff, Value.ordinal.injEq, exists_eq_right,
    ordinal?] at h
  obtain ⟨_, hsymbol, _⟩ := List.findIdx?_eq_some_iff_getElem.1 h
  have heq : d.symbols[n] = raw := by simpa using hsymbol
  simp [encodeItem, hkind, symbol?, List.getElem?_eq_getElem hlt, heq]

/-- What a text without commas is decoded to has a text without commas that is decoded to the
same value. -/
theorem encodeItem_of_decodeItem (h : d.decodeItem raw = some value) :
    ∃ text, d.encodeItem value = .ok text ∧ d.decodeItem text = some value ∧
      (',' ∉ raw.toList → ',' ∉ text.toList) := by
  have hfit := fitsItem_of_decodeItem h
  by_cases hkind : d.type.kind = .enumeration
  · cases value with
    | ordinal n => exact ⟨raw, encodeItem_ordinal h, h, id⟩
    | list items => exact hfit.elim
    | _ =>
      have hother := hkind.symm.trans hfit
      cases hother
  · obtain ⟨hdecode, hencode⟩ := item_of_ne_enumeration hkind
    have hfit' : FitsItem ⟨d.type, []⟩ value := by
      cases value with
      | ordinal n => exact absurd hfit.1 hkind
      | _ => exact hfit
    obtain ⟨text, htext, hback, hcomma⟩ := decodeItem_encodeItem (d := ⟨d.type, []⟩) (by simp)
      List.nodup_nil hfit' value.doublesReadBack
    rw [hencode] at htext
    rw [hdecode] at hback
    refine ⟨text, htext, hback, fun hraw => hcomma ?_⟩
    rintro s rfl
    rwa [← eq_of_decodeItem_string h]

/-- Where values are texts, a value is written as the text that it was decoded from. -/
theorem encodeItem_of_verbatim (hverbatim : d.IsVerbatim) (h : d.decodeItem raw = some value) :
    d.encodeItem value = .ok raw := by
  have hfit := fitsItem_of_decodeItem h
  cases value with
  | ordinal n => exact encodeItem_ordinal h
  | string s =>
    replace hfit : d.type.kind = .string := hfit
    rw [eq_of_decodeItem_string h]
    simp [encodeItem, hfit]
  | list items => exact hfit.elim
  | _ =>
    rcases hverbatim with hkind | hkind
    · have hother := hkind.symm.trans hfit
      cases hother
    · have hother := hkind.symm.trans hfit
      cases hother

end Descriptor

/-! ## §2 Lists -/

namespace Descriptor

variable {d : Descriptor} {raw : String} {items : List Value}

theorem items_of_decode (hlist : d.type.isList = true)
    (h : d.decode raw = some (.list items)) :
    (Text.pieces ',' raw).mapM d.decodeItem = some items ∧ items ≠ [] := by
  refine ⟨?_, (fits_of_decode h).2.1⟩
  obtain ⟨items', hitems, heq⟩ := (decode_list_eq_some_iff hlist).1 h
  rwa [Value.list.inj heq]

/-- Lists are written and decoded again if their elements are, by texts without commas. -/
theorem decode_joined_of_items {encode : Value → Except Misuse String}
    (hlist : d.type.isList = true) (hne : items ≠ [])
    (hitems : ∀ item ∈ items, ∃ text, encode item = .ok text ∧ d.decodeItem text = some item ∧
      ',' ∉ text.toList) :
    ∃ texts, items.mapM encode = .ok texts ∧
      d.decode (Text.joined ',' texts) = some (.list items) := by
  obtain ⟨texts, hencode, hdecode, hcomma, hlength⟩ :=
    mapM_encode (P := fun text : String => ',' ∉ text.toList) hitems
  exact ⟨texts, hencode, decode_joined hlist hdecode hlength hne hcomma⟩

/-- A list that is decoded is written as a text that is decoded to it. -/
theorem isCanonical_list (hlist : d.type.isList = true)
    (h : d.decode raw = some (.list items)) : ∃ text, d.IsCanonical raw (.list items) text := by
  obtain ⟨hpieces, hne⟩ := items_of_decode hlist h
  have hpiece : ∀ item ∈ items, ∃ piece, d.decodeItem piece = some item ∧ ',' ∉ piece.toList := by
    intro item hitem
    obtain ⟨piece, hmem, hdecode⟩ := exists_mem_of_mapM_eq_some hpieces item hitem
    exact ⟨piece, hdecode, Text.not_mem_of_mem_pieces hmem⟩
  obtain ⟨texts, hencode, hdecode⟩ : ∃ texts, items.mapM d.encodeItem = .ok texts ∧
      d.decode (Text.joined ',' texts) = some (.list items) := by
    refine decode_joined_of_items hlist hne fun item hitem => ?_
    obtain ⟨piece, hdecode, hcomma⟩ := hpiece item hitem
    obtain ⟨text, htext, hback, hkeep⟩ := encodeItem_of_decodeItem hdecode
    exact ⟨text, htext, hback, hkeep hcomma⟩
  refine ⟨Text.joined ',' texts, ?_, hdecode, fun hverbatim => ?_, fun hkind => ?_⟩
  · rw [encode_list hlist, hencode]
    rfl
  · have hsame := mapM_encode_of_mapM_decode hpieces fun _ _ => encodeItem_of_verbatim hverbatim
    obtain rfl := Except.ok.inj (hencode.symm.trans hsame)
    exact Text.joined_pieces ',' raw
  · obtain ⟨digits, hdigits, hback⟩ := decode_joined_of_items hlist hne fun item hitem => by
      obtain ⟨piece, hdecode, _⟩ := hpiece item hitem
      exact decodeItem_digitOf hkind (fitsItem_of_decodeItem hdecode)
    refine ⟨Text.joined ',' digits, ?_, hback⟩
    rw [encodeAsDigits_list, hdigits]
    rfl

/-! ## §3 Values -/

/-- Whatever is decoded is written as a text that is decoded to it. -/
theorem isCanonical_of_decode {value : Value} (h : d.decode raw = some value) :
    ∃ text, d.IsCanonical raw value text := by
  by_cases hlist : d.type.isList = true
  · obtain ⟨hfit, _⟩ := fits_of_decode h
    rw [Fits, if_pos hlist] at hfit
    obtain ⟨items, rfl, _⟩ := hfit
    exact isCanonical_list hlist h
  · have hdecode : d.decode = d.decodeItem := by
      funext text
      rw [decode, if_neg hlist]
    have hencode : d.encode = d.encodeItem := by
      funext value
      unfold encode
      rw [if_neg hlist]
    rw [hdecode] at h
    obtain ⟨text, htext, hback, _⟩ := encodeItem_of_decodeItem h
    refine ⟨text, by rw [hencode, htext], by rw [hdecode, hback], fun hverbatim => ?_,
      fun hkind => ?_⟩
    · exact Except.ok.inj (htext.symm.trans (encodeItem_of_verbatim hverbatim h))
    · have hfit := fitsItem_of_decodeItem h
      obtain ⟨b, rfl⟩ := eq_bool_of_fitsItem hkind hfit
      obtain ⟨digits, hdigits, hdecodes, _⟩ := decodeItem_digitOf hkind hfit
      exact ⟨digits, hdigits, by rw [hdecode, hdecodes]⟩

/-- The canonical text of a text is that of its value. -/
theorem canonical?_eq_some {value : Value} {text : String} (h : d.decode raw = some value)
    (htext : d.encode value = .ok text) : d.canonical? raw = some text := by
  rw [canonical?, h, Option.bind_some, htext]
  rfl

/-- **Encoding undoes decoding.** Whatever a text is decoded to, by any descriptor, can be encoded
without misuse, as a text that is decoded to the same value; where values are texts it is the
text that was decoded. So a canonical text is its own canonical text, and texts with the same
value have the same one. -/
theorem encode_canonical (d : Descriptor) :
    (∀ raw value, d.decode raw = some value → ∃ text, d.IsCanonical raw value text) ∧
    (∀ raw text, d.canonical? raw = some text → d.canonical? text = some text) ∧
    ∀ raw other value, d.decode raw = some value → d.decode other = some value →
      ∃ text, d.canonical? raw = some text ∧ d.canonical? other = some text := by
  refine ⟨fun raw value => isCanonical_of_decode, fun raw text h => ?_,
    fun raw other value hraw hother => ?_⟩
  · obtain ⟨value, hvalue, htext⟩ := Option.bind_eq_some_iff.1 h
    obtain ⟨text', hcanonical⟩ := isCanonical_of_decode hvalue
    obtain rfl : text' = text := by
      rw [hcanonical.encode] at htext
      exact Option.some.inj htext
    exact canonical?_eq_some hcanonical.decode hcanonical.encode
  · obtain ⟨text, hcanonical⟩ := isCanonical_of_decode hraw
    exact ⟨text, canonical?_eq_some hraw hcanonical.encode,
      canonical?_eq_some hother hcanonical.encode⟩

end Descriptor

/-- A descriptor of lists of symbols, of which one is empty, one has a comma and one is there
twice. -/
def oddSymbols : Descriptor := ⟨⟨.enumeration, true⟩, ["", "a,b", "a", "a"]⟩

/-- A list of odd symbols is written as it was read, the second of two like symbols never being
meant; two ways to write a list of integers have one canonical text. -/
theorem oddSymbols_canonical :
    oddSymbols.decode "a,,a" = some (.list [.ordinal 2, .ordinal 0, .ordinal 2]) ∧
      (∃ text, oddSymbols.IsCanonical "a,,a" (.list [.ordinal 2, .ordinal 0, .ordinal 2]) text) ∧
      ∃ text, Descriptor.canonical? ⟨⟨.int32, true⟩, []⟩ "0x1F,+007" = some text ∧
        Descriptor.canonical? ⟨⟨.int32, true⟩, []⟩ "31,7" = some text := by
  have hodd : oddSymbols.decode "a,,a" = some (.list [.ordinal 2, .ordinal 0, .ordinal 2]) := by
    rfl
  have hhexadecimal : Descriptor.decode ⟨⟨.int32, true⟩, []⟩ "0x1F,+007"
      = some (.list [.int 31, .int 7]) := by rfl
  have hdecimal : Descriptor.decode ⟨⟨.int32, true⟩, []⟩ "31,7"
      = some (.list [.int 31, .int 7]) := by rfl
  exact ⟨hodd, (Descriptor.encode_canonical oddSymbols).1 _ _ hodd,
    (Descriptor.encode_canonical ⟨⟨.int32, true⟩, []⟩).2.2 _ _ _ hhexadecimal hdecimal⟩

end PropSchema
