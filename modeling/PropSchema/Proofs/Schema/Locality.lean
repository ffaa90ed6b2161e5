/-
PropSchema.Proofs.Schema.Locality — a reader looks one token ahead and no further.

What a reader takes, and what it makes of it, is settled by the tokens that it takes and the one
behind them: a run of literals ends at the first other token, and nothing else looks ahead at all.
Where the tokens stand has no part in it, nor what follows later on. It holds of the readers of
single values and is kept by what is done with a value that is read, so it holds of the readers of
all fields.

§1 Fronts     — `IsLocal`, and what it is shown by.
§2 Values     — the readers of strings, constants and booleans.
§3 Fields     — the readers of the fields of blocks and schemas.
§4 Separators — what may stand behind a field.
-/
import PropSchema.Proofs.Schema.Grammar

namespace PropSchema.Grammar

variable {α β : Type}

/-! ## §1 Fronts -/

/-- Whether a reader that succeeds takes a front of the tokens, and takes it, with the same result,
from all tokens that begin with it and go on with the same token as these. -/
def IsLocal (read : Position → List Located → Reading α) : Prop :=
  ∀ finish ts rest a, read finish ts = .ok (a, rest) →
    ∃ front, ts = front ++ rest ∧
      ∀ finish' other vs, tokens other = tokens front ++ vs → vs.head? = (tokens rest).head? →
        ∃ rest', read finish' other = .ok (a, rest') ∧ tokens rest' = vs

theorem IsLocal.suffix {read : Position → List Located → Reading α} (h : IsLocal read)
    {finish : Position} {ts rest : List Located} {a : α} (hread : read finish ts = .ok (a, rest)) :
    rest <:+ ts := by
  obtain ⟨front, rfl, _⟩ := h finish ts rest a hread
  exact List.suffix_append front rest

theorem IsLocal.map {read : Position → List Located → Reading α} (h : IsLocal read) (f : α → β) :
    IsLocal fun finish ts => (read finish ts).map fun (value, rest) => (f value, rest) := by
  intro finish ts rest b hmap
  obtain ⟨a, hread, rfl⟩ := of_map_pair hmap
  obtain ⟨front, hts, hlocal⟩ := h finish ts rest a hread
  refine ⟨front, hts, fun finish' other vs hother hhead => ?_⟩
  obtain ⟨rest', hread', hrest'⟩ := hlocal finish' other vs hother hhead
  exact ⟨rest', map_pair_of_ok hread', hrest'⟩

theorem tokens_append (ts us : List Located) : tokens (ts ++ us) = tokens ts ++ tokens us :=
  List.map_append

/-- A reader is local if it leaves an end of the tokens and takes what it takes there from all
tokens that have it in front. -/
theorem isLocal_of_complete {read : Position → List Located → Reading α}
    (h : ∀ finish ts rest a, read finish ts = .ok (a, rest) → rest <:+ ts ∧
      ∃ us, tokens ts = us ++ tokens rest ∧
        ∀ finish' other vs, tokens other = us ++ vs → vs.head? = (tokens rest).head? →
          ∃ rest', read finish' other = .ok (a, rest') ∧ tokens rest' = vs) :
    IsLocal read := by
  intro finish ts rest a hread
  obtain ⟨⟨front, rfl⟩, us, hts, hcomplete⟩ := h finish ts rest a hread
  rw [tokens_append] at hts
  obtain rfl := List.append_cancel_right hts
  exact ⟨front, rfl, hcomplete⟩

/-! ## §2 Values -/

theorem suffix_expect {finish : Position} {t : Token} {ts rest : List Located}
    (h : expect finish t ts = .ok rest) : rest <:+ ts := by
  obtain ⟨position, rfl⟩ := expect_eq_ok_iff.1 h
  exact List.suffix_cons _ _

theorem suffix_literals (ts : List Located) : (literals ts).2 <:+ ts := by
  fun_induction literals ts with
  | case1 value position ts values rest h ih =>
    rw [h] at ih
    exact ih.trans (List.suffix_cons _ _)
  | case2 => exact List.suffix_rfl

/-- A run of literals ends where the next token is none. -/
theorem notString_literals (ts : List Located) : NotString (tokens (literals ts).2) := by
  fun_induction literals ts with
  | case1 value position ts values rest h ih =>
    rw [h] at ih
    exact ih
  | case2 ts hnone =>
    intro value us hts
    obtain ⟨position, rest, rfl, _⟩ := exists_of_tokens_cons hts
    exact hnone value position rest rfl

theorem NotString.congr {us vs : List Token} (h : NotString us) (hhead : vs.head? = us.head?) :
    NotString vs := by
  rintro value ws rfl
  obtain ⟨us', rfl⟩ := List.head?_eq_some_iff.1 hhead.symm
  exact h value us' rfl

theorem readString_rest {finish : Position} {ts rest : List Located} {value : String}
    (h : readString finish ts = .ok (value, rest)) : rest <:+ ts ∧ NotString (tokens rest) := by
  unfold readString at h
  split at h
  · cases h
  · rename_i ts' hcolon
    have hsuffix := suffix_literals ts'
    have hend := notString_literals ts'
    split at h
    · cases h
    · rename_i values rest' _ heq
      obtain ⟨_, rfl⟩ := Prod.mk.inj (Except.ok.inj h)
      rw [heq] at hsuffix hend
      exact ⟨hsuffix.trans (suffix_expect hcolon), hend⟩

theorem isLocal_readString : IsLocal readString := by
  refine isLocal_of_complete fun finish ts rest value h => ?_
  obtain ⟨us, hus, hts⟩ := readString_sound h
  obtain ⟨hrest, hend⟩ := readString_rest h
  exact ⟨hrest, .colon :: us, hts, fun finish' other vs hother hhead =>
    readString_complete hus (hend.congr hhead) hother⟩

theorem suffix_readConstant [Vocabulary α] {finish : Position} {field : String}
    {ts rest : List Located} {c : α} (h : readConstant finish field ts = .ok (c, rest)) :
    rest <:+ ts := by
  unfold readConstant at h
  split at h
  · cases h
  · rename_i ts' hcolon
    have hsuffix := suffix_expect hcolon
    split at h
    · split at h
      · obtain ⟨_, rfl⟩ := Prod.mk.inj (Except.ok.inj h)
        exact (List.suffix_cons _ _).trans hsuffix
      · cases h
    · split at h
      · obtain ⟨_, rfl⟩ := Prod.mk.inj (Except.ok.inj h)
        exact (List.suffix_cons _ _).trans hsuffix
      · cases h
    · cases h

theorem suffix_readBoolean {finish : Position} {field : String} {ts rest : List Located} {b : Bool}
    (h : readBoolean finish field ts = .ok (b, rest)) : rest <:+ ts := by
  unfold readBoolean at h
  split at h
  · cases h
  · cases h
  · rename_i next rest' hcolon
    split at h
    · obtain ⟨_, rfl⟩ := Prod.mk.inj (Except.ok.inj h)
      exact (List.suffix_cons _ _).trans (suffix_expect hcolon)
    · cases h

theorem isLocal_readConstant [Vocabulary α]
    (hnames : ∀ c : α, Vocabulary.ofName? (Vocabulary.name c) = some c) (field : String) :
    IsLocal fun finish ts => (readConstant finish field ts : Reading α) := by
  refine isLocal_of_complete fun finish ts rest c h => ?_
  obtain ⟨t, ht, hts⟩ := readConstant_sound h
  exact ⟨suffix_readConstant h, [.colon, t], hts, fun finish' other vs hother _ =>
    readConstant_complete hnames ht hother⟩

theorem isLocal_readBoolean (field : String) :
    IsLocal fun finish ts => readBoolean finish field ts := by
  refine isLocal_of_complete fun finish ts rest b h => ?_
  obtain ⟨t, ht, hts⟩ := readBoolean_sound h
  exact ⟨suffix_readBoolean h, [.colon, t], hts, fun finish' other vs hother _ =>
    readBoolean_complete ht hother⟩

/-! ## §3 Fields -/

theorem isLocal_readAssignment (f : PropertyField) :
    IsLocal fun finish ts => readAssignment finish f ts := by
  cases f with
  | apiName => exact isLocal_readString.map _
  | propName => exact isLocal_readString.map _
  | enumValues => exact isLocal_readString.map _
  | type => exact (isLocal_readConstant ValueType.ofName?_name _).map _
  | access => exact (isLocal_readConstant Access.ofName?_name _).map _
  | scope => exact (isLocal_readConstant Scope.ofName?_name _).map _
  | integerAsBool => exact (isLocal_readBoolean _).map _

theorem suffix_skipSeparator (ts : List Located) : skipSeparator ts <:+ ts := by
  cases ts with
  | nil => exact List.suffix_rfl
  | cons next ts =>
    rw [skipSeparator]
    split
    · exact List.suffix_cons _ _
    · exact List.suffix_rfl

theorem suffix_dropIf (t : Token) (ts : List Located) : dropIf t ts <:+ ts := by
  cases ts with
  | nil => exact List.suffix_rfl
  | cons next ts =>
    rw [dropIf]
    split
    · exact List.suffix_cons _ _
    · exact List.suffix_rfl

theorem suffix_readBlock {finish opening : Position} {seen : List PropertyField}
    {ts rest : List Located} {as : List Assignment}
    (h : readBlock finish opening seen ts = .ok (as, rest)) : rest <:+ ts := by
  induction hn : ts.length using Nat.strongRecOn generalizing ts seen as with
  | _ n ih =>
    cases ts with
    | nil => simp [readBlock] at h
    | cons next ts =>
      rcases readBlock_cons_cases h with ⟨_, _, rfl⟩ | ⟨f, a, mid, others, _, _, ha, hothers, _⟩
      · exact List.suffix_cons _ _
      · have hlt := length_readAssignment ha
        have hle := length_skipSeparator mid
        rw [List.length_cons] at hn
        have hrest := ih (skipSeparator mid).length (by omega) hothers rfl
        have hmid := (isLocal_readAssignment f).suffix ha
        exact ((hrest.trans (suffix_skipSeparator mid)).trans hmid).trans (List.suffix_cons _ _)

theorem suffix_readProperty {finish : Position} {ts rest : List Located} {as : List Assignment}
    (h : readProperty finish ts = .ok (as, rest)) : rest <:+ ts := by
  simp only [readProperty] at h
  split at h
  · cases h
  · rename_i body hbrace
    exact ((suffix_readBlock h).trans (suffix_expect hbrace)).trans (suffix_dropIf .colon ts)

theorem isLocal_readProperty : IsLocal readProperty := by
  refine isLocal_of_complete fun finish ts rest as h => ⟨suffix_readProperty h, ?_⟩
  obtain ⟨us, hus, hts | hts⟩ := readProperty_sound h
  · exact ⟨us, hts, fun finish' other vs hother _ => readProperty_complete hus (.inl hother)⟩
  · exact ⟨.colon :: us, hts, fun finish' other vs hother _ =>
      readProperty_complete hus (.inr hother)⟩

theorem isLocal_readEntry (f : SchemaField) :
    IsLocal fun finish ts => readEntry finish f ts := by
  cases f with
  | owner => exact (isLocal_readConstant Owner.ofName?_name _).map _
  | modulePath => exact isLocal_readString.map _
  | property => exact isLocal_readProperty.map _

/-! ## §4 Separators -/

/-- What is taken of a separator is settled by the token that is looked at. -/
theorem skipSeparator_local (ts : List Located) :
    ∃ sep, Separator (tokens sep) ∧ ts = sep ++ skipSeparator ts ∧
      ∀ (other : List Located) (vs : List Token), tokens other = tokens sep ++ vs →
        vs.head? = (tokens (skipSeparator ts)).head? → tokens (skipSeparator other) = vs := by
  cases ts with
  | nil =>
    refine ⟨[], .none, rfl, fun other vs hother hhead => ?_⟩
    obtain rfl := List.head?_eq_none_iff.1 hhead
    obtain rfl := List.map_eq_nil_iff.1 hother
    rfl
  | cons next ts =>
    rw [skipSeparator]
    split
    · rename_i hnext
      have hsep : Separator (tokens [next]) := by
        rcases hnext with hnext | hnext <;> rw [tokens_cons, hnext]
        · exact .comma
        · exact .semicolon
      refine ⟨[next], hsep, rfl, fun other vs hother _ => ?_⟩
      obtain ⟨position, rest, rfl, hrest⟩ := exists_of_tokens_cons hother
      rw [skipSeparator, if_pos hnext]
      exact hrest
    · rename_i hnext
      refine ⟨[], .none, rfl, fun other vs hother hhead => ?_⟩
      obtain ⟨us, rfl⟩ := List.head?_eq_some_iff.1 hhead
      obtain ⟨position, rest, rfl, hrest⟩ := exists_of_tokens_cons hother
      rw [skipSeparator, if_neg hnext, tokens_cons, hrest]

/-- What a reader takes with the separator behind it is settled in the same way. -/
theorem IsLocal.withSeparator {read : Position → List Located → Reading α} (h : IsLocal read)
    {finish : Position} {ts mid : List Located} {a : α} {us : List Token}
    (hread : read finish ts = .ok (a, mid)) (hts : tokens ts = us ++ tokens mid) :
    ∃ front, ts = front ++ skipSeparator mid ∧
      (∃ sep, Separator sep ∧ tokens front = us ++ sep) ∧
      ∀ finish' other vs, tokens other = tokens front ++ vs →
        vs.head? = (tokens (skipSeparator mid)).head? →
          ∃ mid', read finish' other = .ok (a, mid') ∧ tokens (skipSeparator mid') = vs := by
  obtain ⟨front, hfront, hlocal⟩ := h finish ts mid a hread
  obtain ⟨sep, hsep, hmid, hskip⟩ := skipSeparator_local mid
  have hus : tokens front = us := by
    rw [hfront, tokens_append] at hts
    exact List.append_cancel_right hts
  refine ⟨front ++ sep, ?_, ⟨_, hsep, by rw [tokens_append, hus]⟩, ?_⟩
  · rw [List.append_assoc, ← hmid]
    exact hfront
  · intro finish' other vs hother hhead
    rw [tokens_append, List.append_assoc] at hother
    have hhead' : (tokens sep ++ vs).head? = (tokens mid).head? := by
      rw [hmid, tokens_append, List.head?_append, List.head?_append, hhead]
    obtain ⟨mid', hread', hmid'⟩ := hlocal finish' other _ hother hhead'
    exact ⟨mid', hread', hskip mid' vs hmid' hhead⟩

end PropSchema.Grammar
