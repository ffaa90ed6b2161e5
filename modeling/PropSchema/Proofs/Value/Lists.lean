/-
PropSchema.Proofs.Value.Lists — lists are coded element by element.

Round trips do not see the order of elements, nor where the commas are: a codec that wrote lists
backwards and read them backwards would have them too. Here the two directions are taken apart.
Two texts with a comma between them are decoded as the list of the one and then the list of the
other, and as nothing as soon as one of the two is nothing; a text without commas is decoded as a
list of one, just if it is decoded as a single value. That leaves no choice for any text, as there
is one element more than there are commas. Encoding is the same the other way round, for both
encoders, except for the empty list, which is written as if it had an empty text in it.

§1 Decoding — the list of a text with commas, and of one without.
§2 Encoding — the text of two lists.
§3 Lists    — `lists_elementwise`.
-/
import PropSchema.Proofs.Value.Exactness

namespace PropSchema

/-! ## §1 Decoding -/

namespace Descriptor

/-- The descriptor of the elements of a list. -/
def single (d : Descriptor) : Descriptor :=
  ⟨⟨d.type.kind, false⟩, d.symbols⟩

variable {d : Descriptor}

theorem decode_single (d : Descriptor) (raw : String) : d.single.decode raw = d.decodeItem raw :=
  rfl

theorem decode_append_comma (hlist : d.type.isList = true) {a b : String} {value : Value} :
    d.decode (a ++ "," ++ b) = some value ↔
      ∃ xs ys, d.decode a = some (.list xs) ∧ d.decode b = some (.list ys) ∧
        value = .list (xs ++ ys) := by
  have hpieces : Text.pieces ',' (a ++ "," ++ b) = Text.pieces ',' a ++ Text.pieces ',' b :=
    Text.pieces_append ',' a b
  simp only [decode_list_eq_some_iff hlist, hpieces, mapM_append_eq_some_iff, Value.list.injEq]
  constructor
  · rintro ⟨_, ⟨xs, ys, hxs, hys, rfl⟩, rfl⟩
    exact ⟨xs, ys, ⟨xs, hxs, rfl⟩, ⟨ys, hys, rfl⟩, rfl⟩
  · rintro ⟨xs, ys, ⟨_, hxs, rfl⟩, ⟨_, hys, rfl⟩, rfl⟩
    exact ⟨xs ++ ys, ⟨xs, ys, hxs, hys, rfl⟩, rfl⟩

/-- A list is decoded as a whole or not at all. -/
theorem decode_append_comma_eq_none_iff (hlist : d.type.isList = true) {a b : String} :
    d.decode (a ++ "," ++ b) = none ↔ d.decode a = none ∨ d.decode b = none := by
  constructor
  · intro h
    cases ha : d.decode a with
    | none => exact .inl rfl
    | some x =>
      cases hb : d.decode b with
      | none => exact .inr rfl
      | some y =>
        obtain ⟨xs, _, rfl⟩ := (decode_list_eq_some_iff hlist).1 ha
        obtain ⟨ys, _, rfl⟩ := (decode_list_eq_some_iff hlist).1 hb
        have hboth := (decode_append_comma hlist).2 ⟨xs, ys, ha, hb, rfl⟩
        rw [h] at hboth
        nomatch hboth
  · intro h
    rw [Option.eq_none_iff_forall_ne_some]
    intro value hvalue
    obtain ⟨xs, ys, ha, hb, _⟩ := (decode_append_comma hlist).1 hvalue
    rcases h with h | h
    · rw [h] at ha
      nomatch ha
    · rw [h] at hb
      nomatch hb

/-- A text without commas is a list of one just if it is a single value. -/
theorem decode_of_not_mem_comma (hlist : d.type.isList = true) {raw : String}
    (h : ',' ∉ raw.toList) {value : Value} :
    d.decode raw = some value ↔
      ∃ item, d.single.decode raw = some item ∧ value = .list [item] := by
  rw [decode_list_eq_some_iff hlist, Text.pieces_of_not_mem h, decode_single]
  constructor
  · rintro ⟨items, hitems, rfl⟩
    rw [List.mapM_cons] at hitems
    obtain ⟨item, hitem, hitems⟩ := Option.bind_eq_some_iff.1 hitems
    exact ⟨item, hitem, by rw [← Option.some.inj hitems]; rfl⟩
  · rintro ⟨item, hitem, rfl⟩
    exact ⟨[item], by rw [List.mapM_cons, hitem]; rfl, rfl⟩

/-- A list that is decoded has one element more than its text has commas. -/
theorem length_of_decode (hlist : d.type.isList = true) {raw : String} {value : Value}
    (h : d.decode raw = some value) :
    ∃ items, value = .list items ∧ items.length = raw.toList.count ',' + 1 := by
  obtain ⟨items, hitems, rfl⟩ := (decode_list_eq_some_iff hlist).1 h
  exact ⟨items, rfl, by rw [length_of_mapM_eq_some hitems, Text.length_pieces]⟩

/-- The commas tell which part of a list is decoded from which of two texts. -/
theorem decode_append_comma_list (hlist : d.type.isList = true) {a b : String} {xs ys : List Value}
    (hlength : xs.length = a.toList.count ',' + 1) :
    d.decode (a ++ "," ++ b) = some (.list (xs ++ ys)) ↔
      d.decode a = some (.list xs) ∧ d.decode b = some (.list ys) := by
  rw [decode_append_comma hlist]
  constructor
  · rintro ⟨xs', ys', ha, hb, heq⟩
    obtain ⟨_, heq', hlength'⟩ := length_of_decode hlist ha
    obtain rfl := Value.list.inj heq'
    obtain ⟨rfl, rfl⟩ := List.append_inj (Value.list.inj heq) (hlength.trans hlength'.symm)
    exact ⟨ha, hb⟩
  · rintro ⟨ha, hb⟩
    exact ⟨xs, ys, ha, hb, rfl⟩

/-! ## §2 Encoding -/

/-- The join of the texts of values that are encoded one after the other. -/
theorem joined_texts_append {α ε : Type} {encode : α → Except ε String} {xs ys : List α}
    {s t : String} (hxs : xs ≠ []) (hys : ys ≠ [])
    (hs : (xs.mapM encode).map (Text.joined ',') = .ok s)
    (ht : (ys.mapM encode).map (Text.joined ',') = .ok t) :
    ((xs ++ ys).mapM encode).map (Text.joined ',') = .ok (s ++ "," ++ t) := by
  obtain ⟨ss, hss, rfl⟩ := Except.map_eq_ok_iff.1 hs
  obtain ⟨ts, hts, rfl⟩ := Except.map_eq_ok_iff.1 ht
  have hlength := (texts_of_mapM_eq_ok hss).1
  have hlength' := (texts_of_mapM_eq_ok hts).1
  have hne : ss ≠ [] := fun h => hxs (List.length_eq_zero_iff.1 (by rw [← hlength, h]; rfl))
  have hne' : ts ≠ [] := fun h => hys (List.length_eq_zero_iff.1 (by rw [← hlength', h]; rfl))
  have hjoined := Text.joined_append ',' hne hne'
  rw [List.mapM_append, hss, hts]
  exact congrArg Except.ok hjoined

/-- Lists that fit are written one behind the other, with a comma in between. -/
theorem encode_append (hlist : d.type.isList = true) {xs ys : List Value} (hxs : xs ≠ [])
    (hys : ys ≠ []) (hfit : d.Fits (.list xs)) (hfit' : d.Fits (.list ys)) :
    ∃ s t, d.encode (.list xs) = .ok s ∧ d.encode (.list ys) = .ok t ∧
      d.encode (.list (xs ++ ys)) = .ok (s ++ "," ++ t) := by
  obtain ⟨s, hs⟩ := encode_isOk_iff.2 hfit
  obtain ⟨t, ht⟩ := encode_isOk_iff.2 hfit'
  refine ⟨s, t, hs, ht, ?_⟩
  rw [encode_list hlist] at hs ht ⊢
  exact joined_texts_append hxs hys hs ht

/-- And so are booleans as digits. -/
theorem encodeAsDigits_append {xs ys : List Value} (hxs : xs ≠ []) (hys : ys ≠ [])
    (hbools : ∀ x ∈ xs, ∃ b, x = .bool b) (hbools' : ∀ y ∈ ys, ∃ b, y = .bool b) :
    ∃ s t, encodeAsDigits (.list xs) = .ok s ∧ encodeAsDigits (.list ys) = .ok t ∧
      encodeAsDigits (.list (xs ++ ys)) = .ok (s ++ "," ++ t) := by
  obtain ⟨s, hs⟩ : ∃ s, encodeAsDigits (.list xs) = .ok s := encodeAsDigits_isOk_iff.2 hbools
  obtain ⟨t, ht⟩ : ∃ t, encodeAsDigits (.list ys) = .ok t := encodeAsDigits_isOk_iff.2 hbools'
  refine ⟨s, t, hs, ht, ?_⟩
  rw [encodeAsDigits_list] at hs ht ⊢
  exact joined_texts_append hxs hys hs ht

/-! ## §3 Lists -/

/-- **Lists are coded element by element**, in order, and as a whole or not at all. With a comma
between two texts, the list of the first and the list of the second are decoded one behind the
other, if there are both, and nothing otherwise; the commas tell which part of a list is whose. A
text without commas is a single value or nothing, so that a list has one element more than its
text has commas. The other way round, lists of values that fit are written with a comma in
between, and so are lists of booleans as digits. -/
theorem lists_elementwise (hlist : d.type.isList = true) :
    (∀ a b value, d.decode (a ++ "," ++ b) = some value ↔
      ∃ xs ys, d.decode a = some (.list xs) ∧ d.decode b = some (.list ys) ∧
        value = .list (xs ++ ys)) ∧
    (∀ a b, d.decode (a ++ "," ++ b) = none ↔ d.decode a = none ∨ d.decode b = none) ∧
    (∀ a b xs ys, xs.length = a.toList.count ',' + 1 →
      (d.decode (a ++ "," ++ b) = some (.list (xs ++ ys)) ↔
        d.decode a = some (.list xs) ∧ d.decode b = some (.list ys))) ∧
    (∀ raw, ',' ∉ raw.toList → ∀ value, d.decode raw = some value ↔
      ∃ item, d.single.decode raw = some item ∧ value = .list [item]) ∧
    (∀ raw value, d.decode raw = some value →
      ∃ items, value = .list items ∧ items.length = raw.toList.count ',' + 1) ∧
    (∀ xs ys, xs ≠ [] → ys ≠ [] → d.Fits (.list xs) → d.Fits (.list ys) →
      ∃ s t, d.encode (.list xs) = .ok s ∧ d.encode (.list ys) = .ok t ∧
        d.encode (.list (xs ++ ys)) = .ok (s ++ "," ++ t)) ∧
    ∀ xs ys, xs ≠ [] → ys ≠ [] → (∀ x ∈ xs, ∃ b, x = .bool b) → (∀ y ∈ ys, ∃ b, y = .bool b) →
      ∃ s t, encodeAsDigits (.list xs) = .ok s ∧ encodeAsDigits (.list ys) = .ok t ∧
        encodeAsDigits (.list (xs ++ ys)) = .ok (s ++ "," ++ t) := by
  refine ⟨?_, ?_, ?_, ?_, ?_, ?_, ?_⟩
  · intro a b value
    exact decode_append_comma hlist
  · intro a b
    exact decode_append_comma_eq_none_iff hlist
  · intro a b xs ys hlength
    exact decode_append_comma_list hlist hlength
  · intro raw hraw value
    exact decode_of_not_mem_comma hlist hraw
  · intro raw value hvalue
    exact length_of_decode hlist hvalue
  · intro xs ys hxs hys hfit hfit'
    exact encode_append hlist hxs hys hfit hfit'
  · intro xs ys hxs hys hbools hbools'
    exact encodeAsDigits_append hxs hys hbools hbools'

/-- Empty texts at the ends of a list are elements like any other, and one element that is no
integer leaves nothing of its list. -/
theorem lists_cut_at_commas :
    decode ⟨⟨.string, true⟩, []⟩ ("," ++ "," ++ "") =
      some (.list [.string "", .string "", .string ""]) ∧
    decode ⟨⟨.int32, true⟩, []⟩ ("1,0x2" ++ "," ++ "x") = none ∧
    (∃ s t, encode ⟨⟨.string, true⟩, []⟩ (.list [.string ""]) = .ok s ∧
      encode ⟨⟨.string, true⟩, []⟩ (.list [.string "", .string "a,b"]) = .ok t ∧
      encode ⟨⟨.string, true⟩, []⟩ (.list [.string "", .string "", .string "a,b"]) =
        .ok (s ++ "," ++ t)) ∧
    ∃ s t, encodeAsDigits (.list [.bool true]) = .ok s ∧
      encodeAsDigits (.list [.bool false]) = .ok t ∧
      encodeAsDigits (.list [.bool true, .bool false]) = .ok (s ++ "," ++ t) := by
  obtain ⟨hcut, _, _, _, _, hencode, hdigits⟩ :=
    lists_elementwise (d := ⟨⟨.string, true⟩, []⟩) rfl
  obtain ⟨_, hnone, _⟩ := lists_elementwise (d := ⟨⟨.int32, true⟩, []⟩) rfl
  refine ⟨?_, ?_, ?_, ?_⟩
  · exact (hcut "," "" _).2 ⟨[.string "", .string ""], [.string ""], by rfl, by rfl, rfl⟩
  · exact (hnone "1,0x2" "x").2 (.inr (by rfl))
  · exact hencode [.string ""] [.string "", .string "a,b"] (by simp) (by simp)
      (by simp [Fits, FitsItem]) (by simp [Fits, FitsItem])
  · exact hdigits [.bool true] [.bool false] (by simp) (by simp) (by simp) (by simp)

end Descriptor

end PropSchema
