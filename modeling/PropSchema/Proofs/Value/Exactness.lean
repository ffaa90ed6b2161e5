/-
PropSchema.Proofs.Value.Exactness — which values that fit come back exactly,
and which do not.

`Accessor.decode_encode` says that a value is read back if its list can be cut
out of its text again. Here is the converse: a decoded list has one element
more than the text has commas, so that neither the empty list nor a list with
a comma inside one of its texts can be what is decoded. No other value that
fits is lost.

§1 Pieces — how many pieces a join is cut into.
§2 Lists  — the text of a list that is read back.
§3 Values — `decode_eq_some_iff`, and `stored_reads_back_iff` for the
   properties of a valid schema.
-/
import PropSchema.Proofs.Value.Doubles

namespace PropSchema

/-! ## §1 Pieces -/

namespace Text

/-- A text is cut into more than one piece just if the separator occurs. -/
theorem length_split_eq_one_iff {sep : Char} {cs : List Char} :
    (split sep cs).length = 1 ↔ sep ∉ cs := by
  rw [length_split, ← List.count_eq_zero]
  omega

theorem length_le_length_split_join {sep : Char} {pieces : List (List Char)} (hne : pieces ≠ []) :
    pieces.length ≤ (split sep (join sep pieces)).length := by
  induction pieces with
  | nil => exact absurd rfl hne
  | cons piece rest ih =>
    have hpiece := List.length_pos_iff.2 (split_ne_nil sep piece)
    cases rest with
    | nil => exact hpiece
    | cons p ps =>
      have hrest := ih (by simp)
      rw [join_cons_of_ne_nil _ _ (by simp), split_append_cons, List.length_append,
        List.length_cons]
      omega

/-- A join is cut into as many pieces as were joined just if none had the separator
in it. -/
theorem length_split_join_eq_iff {sep : Char} {pieces : List (List Char)} (hne : pieces ≠ []) :
    (split sep (join sep pieces)).length = pieces.length ↔ ∀ piece ∈ pieces, sep ∉ piece := by
  constructor
  · intro hlength
    induction pieces with
    | nil => exact absurd rfl hne
    | cons piece rest ih =>
      cases rest with
      | nil =>
        rw [List.forall_mem_singleton, ← length_split_eq_one_iff]
        exact hlength
      | cons p ps =>
        have hpiece := List.length_pos_iff.2 (split_ne_nil sep piece)
        have hrest : (p :: ps).length ≤ (split sep (join sep (p :: ps))).length :=
          length_le_length_split_join (List.cons_ne_nil p ps)
        rw [join_cons_of_ne_nil _ _ (by simp), split_append_cons, List.length_append,
          List.length_cons] at hlength
        rw [List.forall_mem_cons, ← length_split_eq_one_iff]
        exact ⟨by omega, ih (by simp) (by omega)⟩
  · intro h
    rw [split_join hne h]

end Text

/-! ## §2 Lists -/

/-- If a list is read back from the join of its texts, there are texts, and none has a
comma in it. -/
theorem Descriptor.comma_not_mem_of_decode {d : Descriptor} (hlist : d.type.isList = true)
    {texts : List String} {items : List Value} (hlength : texts.length = items.length)
    (hdecode : d.decode (Text.joined ',' texts) = some (.list items)) :
    items ≠ [] ∧ ∀ text ∈ texts, ',' ∉ text.toList := by
  obtain ⟨items', hitems, heq⟩ := (decode_list_eq_some_iff hlist).1 hdecode
  obtain rfl := Value.list.inj heq
  have hpieces := length_of_mapM_eq_some hitems
  rw [← hlength, Text.pieces, Text.joined, String.toList_ofList, List.length_map] at hpieces
  have hne : texts ≠ [] := by
    rintro rfl
    simp [Text.join, Text.split] at hpieces
  have hne' : texts.map String.toList ≠ [] := by simpa using hne
  have hcommas := (Text.length_split_join_eq_iff hne').1 (by simpa using hpieces.symm)
  constructor
  · rintro rfl
    exact hne (List.length_eq_zero_iff.1 hlength)
  · simpa using hcommas

theorem Descriptor.isList_of_fits_list {d : Descriptor} {items : List Value}
    (h : d.Fits (.list items)) : d.type.isList = true := by
  unfold Fits at h
  split at h
  · rename_i hlist
    exact hlist
  · exact h.elim

theorem Except.map_eq_ok_iff {ε α β : Type} {f : α → β} {r : Except ε α} {b : β} :
    r.map f = .ok b ↔ ∃ a, r = .ok a ∧ b = f a := by
  cases r <;> simp [Except.map, eq_comm]

/-- What is stored for a list is the join of one text for each element, and the text of
a string is that string. -/
theorem Accessor.texts_of_encode {a : Accessor} (ha : a.WellFormed) {items : List Value}
    {text : String} (hfit : a.descriptor.Fits (.list items))
    (hencode : a.encode (.list items) = .ok text) :
    ∃ texts, text = Text.joined ',' texts ∧ texts.length = items.length ∧
      ∀ s, .string s ∈ items → s ∈ texts := by
  have hlist := Descriptor.isList_of_fits_list hfit
  rw [Descriptor.Fits, if_pos hlist] at hfit
  obtain ⟨items', heq, hitems⟩ := hfit
  obtain rfl := Value.list.inj heq
  rw [encode] at hencode
  split at hencode
  · rename_i hdigits
    rw [encodeAsDigits_list] at hencode
    obtain ⟨texts, htexts, rfl⟩ := Except.map_eq_ok_iff.1 hencode
    refine ⟨texts, rfl, (texts_of_mapM_eq_ok htexts).1, fun s hs => ?_⟩
    have hstring : a.descriptor.type.kind = .string := hitems _ hs
    rw [ha.digits hdigits] at hstring
    simp at hstring
  · rw [Descriptor.encode_list hlist] at hencode
    obtain ⟨texts, htexts, rfl⟩ := Except.map_eq_ok_iff.1 hencode
    obtain ⟨hlength, hmem⟩ := texts_of_mapM_eq_ok htexts
    refine ⟨texts, rfl, hlength, fun s hs => ?_⟩
    have hstring : a.descriptor.type.kind = .string := hitems _ hs
    obtain ⟨t, ht, hs'⟩ := hmem _ hs
    simp only [Descriptor.encodeItem, hstring, Except.ok.injEq] at hs'
    rwa [hs']

/-! ## §3 Values -/

/-- **A value that fits is read back from what is stored for it just if its list can
be cut out of its text again.** -/
theorem Accessor.decode_eq_some_iff {a : Accessor} (ha : a.WellFormed) {value : Value}
    {text : String} (hfit : a.descriptor.Fits value) (hencode : a.encode value = .ok text) :
    a.descriptor.decode text = some value ↔ value.Separable := by
  constructor
  · intro hdecode
    cases value with
    | list items =>
      obtain ⟨texts, rfl, hlength, hstrings⟩ := texts_of_encode ha hfit hencode
      obtain ⟨hne, hcomma⟩ := Descriptor.comma_not_mem_of_decode
        (Descriptor.isList_of_fits_list hfit) hlength hdecode
      exact ⟨hne, fun s hs => hcomma s (hstrings s hs)⟩
    | _ => trivial
  · intro hsep
    obtain ⟨text', hencode', hdecode⟩ := decode_encode ha hfit hsep value.doublesReadBack
    obtain rfl := Except.ok.inj (hencode'.symm.trans hencode)
    exact hdecode

/-- **What is set is what is got, but for two kinds of lists.** A value that fits a
property of a valid schema is always stored as some text, and that text is decoded to
the value just if the value is not the empty list and not a list with a comma in one of
its texts. So it is with a set that was taken and the next get. -/
theorem Schema.stored_reads_back_iff {s : Schema} (hs : s.verify = .ok ()) {p : Property}
    (hp : p ∈ s.props) {value : Value} (hfit : p.descriptor.Fits value) :
    ∃ text, (Accessor.ofProperty s.owner p).encode value = .ok text ∧
      (p.descriptor.decode text = some value ↔ value.Separable) ∧
      ∀ store next, (Accessor.ofProperty s.owner p).set store value = .ok (some next) →
        ((Accessor.ofProperty s.owner p).get next = some value ↔ value.Separable) := by
  have ha := ((verify_eq_ok_iff_valid.1 hs).props p hp).wellFormed
  obtain ⟨text, hencode⟩ := Accessor.encode_isOk_of_fits ha hfit
  have hiff := Accessor.decode_eq_some_iff ha hfit hencode
  refine ⟨text, hencode, hiff, fun store next hset => ?_⟩
  rw [Accessor.set, hencode] at hset
  obtain ⟨_, rfl⟩ := Store.write?_eq_some_iff.1 (Except.ok.inj hset)
  rw [Accessor.get, Store.read_put, if_pos rfl]
  exact hiff

/-- A property that takes lists of texts. -/
def shelfLabels : Property where
  apiName := "labels"
  type := ⟨.string, true⟩
  access := .readWrite

/-- A schema of a shelf, with labels. -/
def shelf : Schema where
  modulePath := "home.Shelf"
  props := [shelfLabels]

/-- Two labels, one of them blank, are read back; one label with a comma is not. -/
theorem shelf_reads_back :
    shelf.verify = .ok () ∧ shelfLabels ∈ shelf.props ∧
      shelfLabels.descriptor.Fits (.list [.string "tea", .string ""]) ∧
      shelfLabels.descriptor.Fits (.list [.string "tea,"]) ∧
      (∃ text, (Accessor.ofProperty shelf.owner shelfLabels).encode
          (.list [.string "tea", .string ""]) = .ok text ∧
        shelfLabels.descriptor.decode text = some (.list [.string "tea", .string ""])) ∧
      ∃ text, (Accessor.ofProperty shelf.owner shelfLabels).encode (.list [.string "tea,"])
          = .ok text ∧
        shelfLabels.descriptor.decode text ≠ some (.list [.string "tea,"]) := by
  have hvalid : shelf.verify = .ok () := by decide +kernel
  have hmem : shelfLabels ∈ shelf.props := by decide +kernel
  have hfits : shelfLabels.descriptor.Fits (.list [.string "tea", .string ""]) := by
    simp [Descriptor.Fits, Descriptor.FitsItem, Property.descriptor, shelfLabels]
  have hfits' : shelfLabels.descriptor.Fits (.list [.string "tea,"]) := by
    simp [Descriptor.Fits, Descriptor.FitsItem, Property.descriptor, shelfLabels]
  obtain ⟨text, hencode, hiff, _⟩ := Schema.stored_reads_back_iff hvalid hmem hfits
  obtain ⟨text', hencode', hiff', _⟩ := Schema.stored_reads_back_iff hvalid hmem hfits'
  refine ⟨hvalid, hmem, hfits, hfits', ⟨text, hencode, hiff.2 ?_⟩, text', hencode', ?_⟩
  · simp [Value.Separable]
  · rw [Ne, hiff']
    simp [Value.Separable]

end PropSchema
