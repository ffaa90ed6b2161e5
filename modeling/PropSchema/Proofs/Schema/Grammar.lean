/-
PropSchema.Proofs.Schema.Grammar — schema text means what its grammar says.

The readers of `Schema.Declaration` are compared with a grammar on token lists
that knows nothing of them: which lists are derivable, and which schema a
derivation denotes. A text is read as a schema just if it can be cut into tokens
that derive it; every other text is an error.

§1 Grammar      — `Schema.IsDeclaredBy`: derivations of token lists.
§2 Denotations  — every field by itself, against the effect of all in order.
§3 Values       — the readers of strings, constants and booleans.
§4 Blocks       — the readers of property blocks.
§5 Schemas      — `Schema.ofText_decides`.
-/
import PropSchema.Schema.Load

namespace PropSchema

/-! ## §1 Grammar -/

namespace Grammar

/-- `','` or `';'` or nothing. -/
inductive Separator : List Token → Prop where
  | none : Separator []
  | comma : Separator [.comma]
  | semicolon : Separator [.semicolon]

/-- `STRING+`: one or more literals, which denote their concatenation. -/
def Strings (ts : List Token) (value : String) : Prop :=
  ∃ values, values ≠ [] ∧ ts = values.map .string ∧ value = String.join values

/-- A constant by its exact name, or by its place, counted from zero. -/
inductive Constant {α : Type} [Vocabulary α] : Token → α → Prop where
  | name (c : α) : Constant (.word (Vocabulary.name c)) c
  | place {i : Nat} {c : α} (h : (Vocabulary.constants : List α)[i]? = some c) :
      Constant (.integer i) c

/-- The words and digits for the two booleans. -/
inductive Boolean : Token → Bool → Prop where
  | yes {name : String} (h : name ∈ ["true", "True", "t"]) : Boolean (.word name) true
  | no {name : String} (h : name ∈ ["false", "False", "f"]) : Boolean (.word name) false
  | one : Boolean (.integer 1) true
  | zero : Boolean (.integer 0) false

/-- Any number of members, each followed by at most one separator. -/
inductive Sequence {α : Type} (Member : List Token → α → Prop) : List Token → List α → Prop where
  | nil : Sequence Member [] []
  | cons {ts sep rest : List Token} {a : α} {as : List α} (head : Member ts a)
      (separator : Separator sep) (tail : Sequence Member rest as) :
      Sequence Member (ts ++ (sep ++ rest)) (a :: as)

/-- A field of a property block. -/
inductive PropField : List Token → Assignment → Prop where
  | apiName {ts : List Token} {value : String} (h : Strings ts value) :
      PropField (.word "api_name" :: .colon :: ts) (.apiName value)
  | propName {ts : List Token} {value : String} (h : Strings ts value) :
      PropField (.word "prop_name" :: .colon :: ts) (.propName value)
  | enumValues {ts : List Token} {value : String} (h : Strings ts value) :
      PropField (.word "enum_values" :: .colon :: ts) (.enumValues value)
  | type {t : Token} {c : ValueType} (h : Constant t c) :
      PropField [.word "type", .colon, t] (.type c)
  | access {t : Token} {c : Access} (h : Constant t c) :
      PropField [.word "access", .colon, t] (.access c)
  | scope {t : Token} {c : Scope} (h : Constant t c) :
      PropField [.word "scope", .colon, t] (.scope c)
  | integerAsBool {t : Token} {b : Bool} (h : Boolean t b) :
      PropField [.word "integer_as_bool", .colon, t] (.integerAsBool b)

/-- A property block: fields in braces, none of them twice. -/
inductive Block : List Token → List Assignment → Prop where
  | braces {ts : List Token} {as : List Assignment} (fields : Sequence PropField ts as)
      (once : ∀ f, (as.map Assignment.field).count f ≤ 1) :
      Block (.openBrace :: (ts ++ [.closeBrace])) as

/-- A field of a schema. The colon before a block may be left out. -/
inductive Field : List Token → Entry → Prop where
  | owner {t : Token} {c : Owner} (h : Constant t c) :
      Field [.word "owner", .colon, t] (.owner c)
  | modulePath {ts : List Token} {value : String} (h : Strings ts value) :
      Field (.word "module" :: .colon :: ts) (.modulePath value)
  | prop {ts : List Token} {as : List Assignment} (h : Block ts as) :
      Field (.word "prop" :: ts) (.property as)
  | propColon {ts : List Token} {as : List Assignment} (h : Block ts as) :
      Field (.word "prop" :: .colon :: ts) (.property as)

/-- The property that a block denotes: each field as it is given, and its zero value
if it is not. An empty key counts as none. -/
def property (as : List Assignment) : Property where
  apiName := (as.findSome? fun | .apiName value => some value | _ => none).getD ""
  type := (as.findSome? fun | .type c => some c | _ => none).getD ⟨.boolean, false⟩
  access := (as.findSome? fun | .access c => some c | _ => none).getD .readonly
  scope := (as.findSome? fun | .scope c => some c | _ => none).getD .exported
  propName := (as.findSome? fun
    | .propName value => some (if value = "" then none else some value)
    | _ => none).getD none
  enumValues := (as.findSome? fun | .enumValues value => some value | _ => none).getD ""
  integerAsBool := (as.findSome? fun | .integerAsBool b => some b | _ => none).getD false

/-- The schema that fields denote, its properties in their order. -/
def schema (es : List Entry) : Schema where
  owner := (es.findSome? fun | .owner c => some c | _ => none).getD .platform
  modulePath := (es.findSome? fun | .modulePath value => some value | _ => none).getD ""
  props := es.filterMap fun | .property as => some (property as) | _ => none

end Grammar

/-- Whether tokens are derivable as fields that denote the schema, with one owner
and one module at most. -/
def Schema.IsDeclaredBy (s : Schema) (ts : List Token) : Prop :=
  ∃ es, Grammar.Sequence Grammar.Field ts es ∧
    (∀ f, f ≠ .property → (es.map Entry.field).count f ≤ 1) ∧ s = Grammar.schema es

namespace Grammar

/-! ## §2 Denotations -/

/-- Where one member at most gives a value, the last to give it is the first. -/
theorem get_foldl {σ α β φ : Type} [BEq φ] [LawfulBEq φ] {apply : σ → α → σ} {get : σ → β}
    {given : α → Option β} {field : α → φ} {f : φ}
    (hget : ∀ s a, get (apply s a) = (given a).getD (get s))
    (hgiven : ∀ a b, given a = some b → field a = f) {as : List α}
    (honce : (as.map field).count f ≤ 1) (s : σ) :
    get (as.foldl apply s) = (as.findSome? given).getD (get s) := by
  induction as generalizing s with
  | nil => rfl
  | cons a as ih =>
    rw [List.map_cons, List.count_cons] at honce
    rw [List.foldl_cons, ih (by omega), hget]
    cases hb : given a with
    | none => simp [hb]
    | some b =>
      have hf : field a = f := hgiven a b hb
      have hnone : as.findSome? given = none := by
        rw [List.findSome?_eq_none_iff]
        intro x hx
        rw [Option.eq_none_iff_forall_ne_some]
        intro c hc
        have hmem : f ∈ as.map field := List.mem_map.2 ⟨x, hx, hgiven x c hc⟩
        have hpos := List.count_pos_iff.2 hmem
        rw [hf, beq_self_eq_true] at honce
        simp only [if_true] at honce
        omega
      simp [hb, hnone]

/-- The effect of a block's assignments, in order, is what the block denotes. -/
theorem ofAssignments_eq_property {as : List Assignment}
    (honce : ∀ f, (as.map Assignment.field).count f ≤ 1) :
    Property.ofAssignments as = property as := by
  have happly {β : Type} (get : Property → β) (given : Assignment → Option β) (f : PropertyField)
      (hget : ∀ p a, get (Assignment.apply p a) = (given a).getD (get p))
      (hgiven : ∀ a b, given a = some b → a.field = f) :
      get (Property.ofAssignments as) = (as.findSome? given).getD (get {}) :=
    get_foldl hget hgiven (honce f) {}
  apply Property.ext
  case apiName =>
    refine happly Property.apiName _ .apiName ?_ ?_
    · intro p a
      cases a <;> rfl
    · intro a b h
      cases a with
      | apiName value => rfl
      | _ => cases h
  case type =>
    refine happly Property.type _ .type ?_ ?_
    · intro p a
      cases a <;> rfl
    · intro a b h
      cases a with
      | type value => rfl
      | _ => cases h
  case access =>
    refine happly Property.access _ .access ?_ ?_
    · intro p a
      cases a <;> rfl
    · intro a b h
      cases a with
      | access value => rfl
      | _ => cases h
  case scope =>
    refine happly Property.scope _ .scope ?_ ?_
    · intro p a
      cases a <;> rfl
    · intro a b h
      cases a with
      | scope value => rfl
      | _ => cases h
  case propName =>
    refine happly Property.propName _ .propName ?_ ?_
    · intro p a
      cases a <;> rfl
    · intro a b h
      cases a with
      | propName value => rfl
      | _ => cases h
  case enumValues =>
    refine happly Property.enumValues _ .enumValues ?_ ?_
    · intro p a
      cases a <;> rfl
    · intro a b h
      cases a with
      | enumValues value => rfl
      | _ => cases h
  case integerAsBool =>
    refine happly Property.integerAsBool _ .integerAsBool ?_ ?_
    · intro p a
      cases a <;> rfl
    · intro a b h
      cases a with
      | integerAsBool value => rfl
      | _ => cases h

theorem props_foldl {es : List Entry} (s : Schema)
    (hblocks : ∀ as, .property as ∈ es → ∀ f, (as.map Assignment.field).count f ≤ 1) :
    (es.foldl Entry.apply s).props =
      s.props ++ es.filterMap fun | .property as => some (property as) | _ => none := by
  induction es generalizing s with
  | nil => simp
  | cons e es ih =>
    rw [List.foldl_cons, ih _ fun as has => hblocks as (List.mem_cons_of_mem e has)]
    cases e with
    | owner c => rfl
    | modulePath value => rfl
    | property as =>
      have heq := ofAssignments_eq_property (hblocks as List.mem_cons_self)
      simp [Entry.apply, heq]

/-- The effect of a schema's entries, in order, is what the fields denote. -/
theorem ofEntries_eq_schema {es : List Entry}
    (honce : ∀ f, f ≠ .property → (es.map Entry.field).count f ≤ 1)
    (hblocks : ∀ as, .property as ∈ es → ∀ f, (as.map Assignment.field).count f ≤ 1) :
    Schema.ofEntries es = schema es := by
  have happly {β : Type} (get : Schema → β) (given : Entry → Option β) (f : SchemaField)
      (hf : f ≠ .property) (hget : ∀ s e, get (Entry.apply s e) = (given e).getD (get s))
      (hgiven : ∀ e b, given e = some b → e.field = f) :
      get (Schema.ofEntries es) = (es.findSome? given).getD (get {}) :=
    get_foldl hget hgiven (honce f hf) {}
  apply Schema.ext
  case owner =>
    refine happly Schema.owner _ .owner (by decide) ?_ ?_
    · intro s e
      cases e <;> rfl
    · intro e b h
      cases e with
      | owner value => rfl
      | _ => cases h
  case modulePath =>
    refine happly Schema.modulePath _ .modulePath (by decide) ?_ ?_
    · intro s e
      cases e <;> rfl
    · intro e b h
      cases e with
      | modulePath value => rfl
      | _ => cases h
  case props => exact props_foldl {} hblocks

/-! ## §3 Values -/

/-- The tokens without their places. -/
def tokens (ts : List Located) : List Token :=
  ts.map Located.token

@[simp] theorem tokens_cons (t : Located) (ts : List Located) :
    tokens (t :: ts) = t.token :: tokens ts :=
  rfl

theorem exists_of_tokens_cons {ts : List Located} {t : Token} {us : List Token}
    (h : tokens ts = t :: us) : ∃ position rest, ts = ⟨t, position⟩ :: rest ∧ tokens rest = us := by
  obtain ⟨next, rest, rfl, rfl, hrest⟩ := List.map_eq_cons_iff.1 h
  exact ⟨next.position, rest, rfl, hrest⟩

/-- What may follow a field: the name of another field, the end of the block, or the
end of the text. -/
def AtBoundary (ts : List Token) : Prop :=
  ∀ t us, ts = t :: us → (∃ name, t = .word name) ∨ t = .closeBrace

/-- What ends a run of literals. -/
def NotString (ts : List Token) : Prop :=
  ∀ value us, ts ≠ .string value :: us

theorem Separator.notString {sep us : List Token} (hsep : Separator sep) (hus : AtBoundary us) :
    NotString (sep ++ us) := by
  intro value vs h
  cases hsep with
  | none =>
    rcases hus _ _ h with ⟨name, hname⟩ | hbrace
    · cases hname
    · cases hbrace
  | comma => cases h
  | semicolon => cases h

theorem expect_eq_ok_iff {finish : Position} {t : Token} {ts rest : List Located} :
    expect finish t ts = .ok rest ↔ ∃ position, ts = ⟨t, position⟩ :: rest := by
  cases ts with
  | nil => simp [expect]
  | cons next ts =>
    obtain ⟨token, position⟩ := next
    by_cases h : token = t
    · simp [expect, h]
    · simp [expect, h]

theorem skipSeparator_sound (ts : List Located) :
    ∃ sep, Separator sep ∧ tokens ts = sep ++ tokens (skipSeparator ts) := by
  cases ts with
  | nil => exact ⟨[], .none, rfl⟩
  | cons next ts =>
    rw [skipSeparator]
    split
    · rename_i h
      rcases h with h | h
      · exact ⟨_, .comma, by rw [tokens_cons, h]; rfl⟩
      · exact ⟨_, .semicolon, by rw [tokens_cons, h]; rfl⟩
    · exact ⟨_, .none, rfl⟩

theorem skipSeparator_complete {ts : List Located} {sep us : List Token} (hsep : Separator sep)
    (hus : AtBoundary us) (h : tokens ts = sep ++ us) : tokens (skipSeparator ts) = us := by
  cases hsep with
  | none =>
    cases ts with
    | nil => exact h
    | cons next ts =>
      have hnext : ¬ (next.token = .comma ∨ next.token = .semicolon) := by
        rcases hus _ _ h.symm with ⟨name, hname⟩ | hbrace
        · simp [hname]
        · simp [hbrace]
      rw [skipSeparator, if_neg hnext]
      exact h
  | comma =>
    obtain ⟨position, rest, rfl, hrest⟩ := exists_of_tokens_cons h
    simpa [skipSeparator] using hrest
  | semicolon =>
    obtain ⟨position, rest, rfl, hrest⟩ := exists_of_tokens_cons h
    simpa [skipSeparator] using hrest

theorem literals_sound (ts : List Located) :
    tokens ts = (literals ts).1.map .string ++ tokens (literals ts).2 := by
  fun_induction literals ts with
  | case1 value position ts values rest h ih =>
    rw [h] at ih
    simp [ih]
  | case2 => rfl

theorem literals_complete {ts : List Located} {values : List String} {us : List Token}
    (hus : NotString us) (h : tokens ts = values.map .string ++ us) :
    (literals ts).1 = values ∧ tokens (literals ts).2 = us := by
  induction values generalizing ts with
  | nil =>
    rw [literals]
    · exact ⟨rfl, h⟩
    · intro value position rest hts
      exact hus value (tokens rest) (by rw [← List.nil_append us, ← List.map_nil, ← h, hts]; rfl)
  | cons value values ih =>
    obtain ⟨position, rest, rfl, hrest⟩ := exists_of_tokens_cons h
    obtain ⟨hvalues, hus⟩ := ih hrest
    simp [literals, hvalues, hus]

theorem readString_sound {finish : Position} {ts rest : List Located} {value : String}
    (h : readString finish ts = .ok (value, rest)) :
    ∃ us, Strings us value ∧ tokens ts = .colon :: (us ++ tokens rest) := by
  unfold readString at h
  split at h
  · simp at h
  · rename_i ts' hcolon
    obtain ⟨position, rfl⟩ := expect_eq_ok_iff.1 hcolon
    have hliterals := literals_sound ts'
    split at h
    · simp at h
    · rename_i values rest' hne heq
      simp only [Except.ok.injEq, Prod.mk.injEq] at h
      obtain ⟨rfl, rfl⟩ := h
      rw [heq] at hliterals
      have hvalues : values ≠ [] := by
        rintro rfl
        exact hne rfl
      exact ⟨_, ⟨values, hvalues, rfl, rfl⟩, by rw [tokens_cons, hliterals]⟩

theorem readString_complete {finish : Position} {ts : List Located} {us vs : List Token}
    {value : String} (hus : Strings us value) (hvs : NotString vs)
    (h : tokens ts = .colon :: (us ++ vs)) :
    ∃ rest, readString finish ts = .ok (value, rest) ∧ tokens rest = vs := by
  obtain ⟨values, hne, rfl, rfl⟩ := hus
  obtain ⟨position, ts', rfl, hts⟩ := exists_of_tokens_cons h
  obtain ⟨hvalues, hrest⟩ := literals_complete hvs hts
  refine ⟨(literals ts').2, ?_, hrest⟩
  rw [readString, expect_eq_ok_iff.2 ⟨position, rfl⟩]
  simp only
  split
  · rename_i rest heq
    rw [heq] at hvalues
    exact absurd hvalues.symm hne
  · rename_i values' rest' _ heq
    rw [heq] at hvalues ⊢
    rw [← hvalues]

theorem readConstant_sound {α : Type} [Vocabulary α] {finish : Position} {field : String}
    {ts rest : List Located} {c : α} (h : readConstant finish field ts = .ok (c, rest)) :
    ∃ t, Constant t c ∧ tokens ts = .colon :: t :: tokens rest := by
  unfold readConstant at h
  split at h
  · simp at h
  · rename_i ts' hcolon
    obtain ⟨position, rfl⟩ := expect_eq_ok_iff.1 hcolon
    split at h
    · rename_i name place rest'
      split at h
      · rename_i c' hname
        simp only [Except.ok.injEq, Prod.mk.injEq] at h
        obtain ⟨rfl, rfl⟩ := h
        have heq : Vocabulary.name c' = name := by
          simpa using List.find?_some hname
        exact ⟨_, heq ▸ .name c', rfl⟩
      · simp at h
    · rename_i i place rest'
      split at h
      · rename_i c' hplace
        simp only [Except.ok.injEq, Prod.mk.injEq] at h
        obtain ⟨rfl, rfl⟩ := h
        cases i with
        | ofNat i => exact ⟨_, .place hplace, rfl⟩
        | negSucc i => simp [Vocabulary.ofIndex?] at hplace
      · simp at h
    · simp at h

theorem readConstant_complete {α : Type} [Vocabulary α] {finish : Position} {field : String}
    (hnames : ∀ c : α, Vocabulary.ofName? (Vocabulary.name c) = some c) {ts : List Located}
    {t : Token} {vs : List Token} {c : α} (ht : Constant t c) (h : tokens ts = .colon :: t :: vs) :
    ∃ rest, readConstant finish field ts = .ok (c, rest) ∧ tokens rest = vs := by
  obtain ⟨colon, ts', rfl, hts⟩ := exists_of_tokens_cons h
  obtain ⟨place, rest, rfl, hrest⟩ := exists_of_tokens_cons hts
  refine ⟨rest, ?_, hrest⟩
  rw [readConstant, expect_eq_ok_iff.2 ⟨colon, rfl⟩]
  cases ht with
  | name => simp [hnames c]
  | place hplace => simp [Vocabulary.ofIndex?, hplace]

theorem booleanOf?_eq_some_iff {t : Token} {b : Bool} :
    booleanOf? t = some b ↔ Boolean t b := by
  constructor
  · intro h
    unfold booleanOf? at h
    split at h
    · split at h
      · rename_i hname
        cases h
        exact .yes (by simpa using hname)
      · split at h
        · rename_i hname
          cases h
          exact .no (by simpa using hname)
        · simp at h
    · split at h
      · rename_i hone
        cases h
        exact hone ▸ .one
      · split at h
        · rename_i hzero
          cases h
          exact hzero ▸ .zero
        · simp at h
    · simp at h
  · intro h
    cases h with
    | yes hname =>
      simp only [List.mem_cons, List.not_mem_nil, or_false] at hname
      rcases hname with rfl | rfl | rfl <;> rfl
    | no hname =>
      simp only [List.mem_cons, List.not_mem_nil, or_false] at hname
      rcases hname with rfl | rfl | rfl <;> rfl
    | one => rfl
    | zero => rfl

theorem readBoolean_sound {finish : Position} {field : String} {ts rest : List Located} {b : Bool}
    (h : readBoolean finish field ts = .ok (b, rest)) :
    ∃ t, Boolean t b ∧ tokens ts = .colon :: t :: tokens rest := by
  unfold readBoolean at h
  split at h
  · simp at h
  · simp at h
  · rename_i next rest' hcolon
    obtain ⟨position, rfl⟩ := expect_eq_ok_iff.1 hcolon
    split at h
    · rename_i b' hb
      simp only [Except.ok.injEq, Prod.mk.injEq] at h
      obtain ⟨rfl, rfl⟩ := h
      exact ⟨next.token, booleanOf?_eq_some_iff.1 hb, rfl⟩
    · simp at h

theorem readBoolean_complete {finish : Position} {field : String} {ts : List Located} {t : Token}
    {vs : List Token} {b : Bool} (ht : Boolean t b) (h : tokens ts = .colon :: t :: vs) :
    ∃ rest, readBoolean finish field ts = .ok (b, rest) ∧ tokens rest = vs := by
  obtain ⟨colon, ts', rfl, hts⟩ := exists_of_tokens_cons h
  obtain ⟨place, rest, rfl, hrest⟩ := exists_of_tokens_cons hts
  refine ⟨rest, ?_, hrest⟩
  rw [readBoolean, expect_eq_ok_iff.2 ⟨colon, rfl⟩]
  simp [booleanOf?_eq_some_iff.2 ht]

/-! ## §4 Blocks -/

theorem Sequence.atBoundary {α : Type} {Member : List Token → α → Prop} {ts us : List Token}
    {as : List α} (hname : ∀ ts a, Member ts a → ∃ name body, ts = .word name :: body)
    (h : Sequence Member ts as) (hus : AtBoundary us) : AtBoundary (ts ++ us) := by
  cases h with
  | nil => exact hus
  | cons head separator tail =>
    obtain ⟨name, body, rfl⟩ := hname _ _ head
    intro t vs heq
    exact .inl ⟨name, (List.cons.inj heq).1.symm⟩

theorem PropField.name {ts : List Token} {a : Assignment} (h : PropField ts a) :
    ∃ body, ts = .word a.field.name :: body := by
  cases h with
  | apiName h => exact ⟨_, rfl⟩
  | propName h => exact ⟨_, rfl⟩
  | enumValues h => exact ⟨_, rfl⟩
  | type h => exact ⟨_, rfl⟩
  | access h => exact ⟨_, rfl⟩
  | scope h => exact ⟨_, rfl⟩
  | integerAsBool h => exact ⟨_, rfl⟩

theorem ofName?_eq_some {name : String} {f : PropertyField}
    (h : PropertyField.ofName? name = some f) : f.name = name := by
  simpa using List.find?_some h

theorem ofName?_name (f : PropertyField) : PropertyField.ofName? f.name = some f := by
  cases f <;> rfl

theorem readAssignment_sound {finish : Position} {f : PropertyField} {ts rest : List Located}
    {a : Assignment} (h : readAssignment finish f ts = .ok (a, rest)) :
    a.field = f ∧ ∃ us, PropField (.word f.name :: us) a ∧ tokens ts = us ++ tokens rest := by
  cases f with
  | apiName =>
    obtain ⟨value, hread, rfl⟩ := of_map_pair h
    obtain ⟨us, hus, hts⟩ := readString_sound hread
    exact ⟨rfl, .colon :: us, .apiName hus, hts⟩
  | propName =>
    obtain ⟨value, hread, rfl⟩ := of_map_pair h
    obtain ⟨us, hus, hts⟩ := readString_sound hread
    exact ⟨rfl, .colon :: us, .propName hus, hts⟩
  | enumValues =>
    obtain ⟨value, hread, rfl⟩ := of_map_pair h
    obtain ⟨us, hus, hts⟩ := readString_sound hread
    exact ⟨rfl, .colon :: us, .enumValues hus, hts⟩
  | type =>
    obtain ⟨c, hread, rfl⟩ := of_map_pair h
    obtain ⟨t, ht, hts⟩ := readConstant_sound hread
    exact ⟨rfl, [.colon, t], .type ht, hts⟩
  | access =>
    obtain ⟨c, hread, rfl⟩ := of_map_pair h
    obtain ⟨t, ht, hts⟩ := readConstant_sound hread
    exact ⟨rfl, [.colon, t], .access ht, hts⟩
  | scope =>
    obtain ⟨c, hread, rfl⟩ := of_map_pair h
    obtain ⟨t, ht, hts⟩ := readConstant_sound hread
    exact ⟨rfl, [.colon, t], .scope ht, hts⟩
  | integerAsBool =>
    obtain ⟨b, hread, rfl⟩ := of_map_pair h
    obtain ⟨t, ht, hts⟩ := readBoolean_sound hread
    exact ⟨rfl, [.colon, t], .integerAsBool ht, hts⟩

theorem map_pair_of_ok {ε α β γ : Type} {r : Except ε (α × γ)} {f : α → β} {a : α} {c : γ}
    (h : r = .ok (a, c)) : (r.map fun (a, c) => (f a, c)) = .ok (f a, c) := by
  rw [h]
  rfl

theorem readAssignment_complete {finish : Position} {ts : List Located} {name : Token}
    {us vs : List Token} {a : Assignment} (ha : PropField (name :: us) a) (hvs : NotString vs)
    (hts : tokens ts = us ++ vs) :
    ∃ rest, readAssignment finish a.field ts = .ok (a, rest) ∧ tokens rest = vs := by
  cases ha with
  | apiName h =>
    obtain ⟨rest, hread, hrest⟩ := readString_complete h hvs hts
    exact ⟨rest, map_pair_of_ok hread, hrest⟩
  | propName h =>
    obtain ⟨rest, hread, hrest⟩ := readString_complete h hvs hts
    exact ⟨rest, map_pair_of_ok hread, hrest⟩
  | enumValues h =>
    obtain ⟨rest, hread, hrest⟩ := readString_complete h hvs hts
    exact ⟨rest, map_pair_of_ok hread, hrest⟩
  | type h =>
    obtain ⟨rest, hread, hrest⟩ := readConstant_complete ValueType.ofName?_name h hts
    exact ⟨rest, map_pair_of_ok hread, hrest⟩
  | access h =>
    obtain ⟨rest, hread, hrest⟩ := readConstant_complete Access.ofName?_name h hts
    exact ⟨rest, map_pair_of_ok hread, hrest⟩
  | scope h =>
    obtain ⟨rest, hread, hrest⟩ := readConstant_complete Scope.ofName?_name h hts
    exact ⟨rest, map_pair_of_ok hread, hrest⟩
  | integerAsBool h =>
    obtain ⟨rest, hread, hrest⟩ := readBoolean_complete h hts
    exact ⟨rest, map_pair_of_ok hread, hrest⟩

/-- A field goes on top of the fields already seen just as it stands before the ones
to come. -/
theorem count_cons_append {φ : Type} [BEq φ] [LawfulBEq φ] (f g : φ) (fields seen : List φ) :
    (fields ++ f :: seen).count g = (f :: fields ++ seen).count g := by
  rw [List.count_append, List.cons_append, List.count_cons, List.count_cons, List.count_append]
  omega

/-- Where members of a kind are seen once at most, and the next one is new if it is of
that kind, they still are. -/
theorem count_cons_le_one {φ : Type} [BEq φ] [LawfulBEq φ] {f g : φ} {seen : List φ}
    (hseen : seen.count g ≤ 1) (hnew : f = g → g ∉ seen) : (f :: seen).count g ≤ 1 := by
  rw [List.count_cons]
  split
  · rename_i heq
    have hzero := List.count_eq_zero.2 (hnew (eq_of_beq heq))
    omega
  · exact hseen

theorem not_mem_of_count_le_one {φ : Type} [BEq φ] [LawfulBEq φ] {f : φ} {fields seen : List φ}
    (h : (f :: fields ++ seen).count f ≤ 1) : f ∉ seen := by
  intro hmem
  have hpos := List.count_pos_iff.2 hmem
  rw [List.cons_append, List.count_cons_self, List.count_append] at h
  omega

/-- What a block that is read begins with: its closing brace, or a field that is
new. -/
theorem readBlock_cons_cases {finish opening : Position} {seen : List PropertyField}
    {next : Located} {ts rest : List Located} {as : List Assignment}
    (h : readBlock finish opening seen (next :: ts) = .ok (as, rest)) :
    (next.token = .closeBrace ∧ as = [] ∧ rest = ts) ∨
      ∃ f a mid others, next.token = .word f.name ∧ f ∉ seen ∧
        readAssignment finish f ts = .ok (a, mid) ∧
        readBlock finish opening (f :: seen) (skipSeparator mid) = .ok (others, rest) ∧
        as = a :: others := by
  rw [readBlock] at h
  split at h
  · rename_i hbrace
    obtain ⟨rfl, rfl⟩ := Prod.mk.inj (Except.ok.inj h)
    exact .inl ⟨hbrace, rfl, rfl⟩
  · rename_i name hname
    split at h
    · cases h
    · rename_i f hf
      split at h
      · cases h
      · rename_i hnew
        split at h
        · cases h
        · rename_i a mid ha
          obtain ⟨others, hothers, rfl⟩ := of_map_pair h
          rw [← ofName?_eq_some hf] at hname
          exact .inr ⟨f, a, mid, others, hname, hnew, ha, hothers, rfl⟩
  · cases h

/-- What is read as a block is one. The fields read and those seen before have none
in common, and none twice. -/
theorem readBlock_sound {finish opening : Position} {seen : List PropertyField}
    {ts rest : List Located} {as : List Assignment}
    (h : readBlock finish opening seen ts = .ok (as, rest)) (hseen : ∀ f, seen.count f ≤ 1) :
    (∃ us, Sequence PropField us as ∧ tokens ts = us ++ .closeBrace :: tokens rest) ∧
      ∀ f, (as.map Assignment.field ++ seen).count f ≤ 1 := by
  induction hn : ts.length using Nat.strongRecOn generalizing ts seen as with
  | _ n ih =>
    cases ts with
    | nil => simp [readBlock] at h
    | cons next ts =>
      rcases readBlock_cons_cases h with ⟨hbrace, rfl, rfl⟩ |
        ⟨f, a, mid, others, hname, hnew, ha, hothers, rfl⟩
      · refine ⟨⟨[], .nil, ?_⟩, hseen⟩
        rw [tokens_cons, hbrace]
        rfl
      · obtain ⟨rfl, us, hus, hts⟩ := readAssignment_sound ha
        obtain ⟨sep, hsep, hmid⟩ := skipSeparator_sound mid
        have hseen' : ∀ g, (a.field :: seen).count g ≤ 1 := by
          intro g
          refine count_cons_le_one (hseen g) ?_
          rintro rfl
          exact hnew
        have hlt := length_readAssignment ha
        have hle := length_skipSeparator mid
        rw [List.length_cons] at hn
        obtain ⟨⟨vs, hvs, hrest⟩, honce⟩ :=
          ih (skipSeparator mid).length (by omega) hothers hseen' rfl
        refine ⟨⟨_, .cons hus hsep hvs, ?_⟩, fun g => ?_⟩
        · rw [tokens_cons, hname, hts, hmid, hrest]
          simp
        · rw [List.map_cons, ← count_cons_append]
          exact honce g

/-- What is a block behind its brace is read as it. -/
theorem readBlock_complete {finish opening : Position} {us vs : List Token}
    {as : List Assignment} (h : Sequence PropField us as) {seen : List PropertyField}
    (honce : ∀ f, (as.map Assignment.field ++ seen).count f ≤ 1) {ts : List Located}
    (hts : tokens ts = us ++ .closeBrace :: vs) :
    ∃ rest, readBlock finish opening seen ts = .ok (as, rest) ∧ tokens rest = vs := by
  induction h generalizing seen ts with
  | nil =>
    obtain ⟨position, rest, rfl, hrest⟩ := exists_of_tokens_cons hts
    exact ⟨rest, by rw [readBlock], hrest⟩
  | @cons head sep tail a as ha hsep htail ih =>
    obtain ⟨body, rfl⟩ := ha.name
    obtain ⟨position, ts', rfl, hts'⟩ := exists_of_tokens_cons (by simpa using hts)
    have hboundary : AtBoundary (tail ++ .closeBrace :: vs) := by
      refine htail.atBoundary (fun ts a h => ⟨_, h.name⟩) ?_
      intro t us heq
      exact .inr (List.cons.inj heq).1.symm
    obtain ⟨mid, hread, hmid⟩ : ∃ mid, readAssignment finish a.field ts' = .ok (a, mid) ∧
        tokens mid = sep ++ (tail ++ .closeBrace :: vs) :=
      readAssignment_complete ha (hsep.notString hboundary) hts'
    have hskip := skipSeparator_complete hsep hboundary hmid
    have honce' : ∀ g, (as.map Assignment.field ++ a.field :: seen).count g ≤ 1 := by
      intro g
      rw [count_cons_append]
      exact honce g
    obtain ⟨rest, hblock, hrest⟩ := ih honce' hskip
    refine ⟨rest, ?_, hrest⟩
    have hnew : a.field ∉ seen := not_mem_of_count_le_one (honce a.field)
    rw [readBlock]
    simp only [ofName?_name, if_neg hnew]
    split
    · rename_i e he
      simp [hread] at he
    · rename_i b rest' hb
      obtain ⟨rfl, rfl⟩ := Prod.mk.inj (Except.ok.inj (hread.symm.trans hb))
      exact map_pair_of_ok hblock

theorem readProperty_sound {finish : Position} {ts rest : List Located} {as : List Assignment}
    (h : readProperty finish ts = .ok (as, rest)) :
    ∃ us, Block us as ∧
      (tokens ts = us ++ tokens rest ∨ tokens ts = .colon :: (us ++ tokens rest)) := by
  simp only [readProperty] at h
  split at h
  · simp at h
  · rename_i body hbrace
    obtain ⟨position, hopen⟩ := expect_eq_ok_iff.1 hbrace
    obtain ⟨⟨us, hus, hbody⟩, honce⟩ := readBlock_sound h (by simp)
    rw [List.append_nil] at honce
    refine ⟨_, .braces hus honce, ?_⟩
    have hblock : tokens (⟨.openBrace, position⟩ :: body) =
        .openBrace :: (us ++ [.closeBrace]) ++ tokens rest := by
      rw [tokens_cons, hbody]
      simp
    cases ts with
    | nil => simp [dropIf] at hopen
    | cons next ts =>
      rw [dropIf] at hopen
      split at hopen
      · rename_i hcolon
        exact .inr (by rw [tokens_cons, hcolon, hopen, hblock])
      · exact .inl (by rw [hopen, hblock])

theorem readProperty_complete {finish : Position} {us vs : List Token} {as : List Assignment}
    (h : Block us as) {ts : List Located}
    (hts : tokens ts = us ++ vs ∨ tokens ts = .colon :: (us ++ vs)) :
    ∃ rest, readProperty finish ts = .ok (as, rest) ∧ tokens rest = vs := by
  obtain ⟨hfields, honce⟩ := h
  rename_i us
  obtain ⟨position, body, hopen, hbody⟩ : ∃ position body,
      dropIf .colon ts = ⟨.openBrace, position⟩ :: body ∧
        tokens body = us ++ .closeBrace :: vs := by
    rcases hts with hts | hts
    · obtain ⟨position, body, rfl, hbody⟩ := exists_of_tokens_cons hts
      exact ⟨position, body, rfl, by rw [hbody]; simp⟩
    · obtain ⟨colon, ts', rfl, hts'⟩ := exists_of_tokens_cons hts
      obtain ⟨position, body, rfl, hbody⟩ := exists_of_tokens_cons hts'
      exact ⟨position, body, rfl, by rw [hbody]; simp⟩
  obtain ⟨rest, hblock, hrest⟩ : ∃ rest,
      readBlock finish position [] body = .ok (as, rest) ∧ tokens rest = vs :=
    readBlock_complete hfields (by simpa using honce) hbody
  refine ⟨rest, ?_, hrest⟩
  simp only [readProperty, hopen, expect_eq_ok_iff.2 ⟨position, rfl⟩]
  exact hblock

/-! ## §5 Schemas -/

theorem Field.name {ts : List Token} {e : Entry} (h : Field ts e) :
    ∃ body, ts = .word e.field.name :: body := by
  cases h with
  | owner h => exact ⟨_, rfl⟩
  | modulePath h => exact ⟨_, rfl⟩
  | prop h => exact ⟨_, rfl⟩
  | propColon h => exact ⟨_, rfl⟩

theorem entryName_of_ofName? {name : String} {f : SchemaField}
    (h : SchemaField.ofName? name = some f) : f.name = name := by
  simpa using List.find?_some h

theorem ofName?_entryName (f : SchemaField) : SchemaField.ofName? f.name = some f := by
  cases f <;> rfl

theorem isRepeatable_iff {f : SchemaField} : f.isRepeatable = true ↔ f = .property := by
  cases f <;> simp [SchemaField.isRepeatable]

theorem readEntry_sound {finish : Position} {f : SchemaField} {ts rest : List Located} {e : Entry}
    (h : readEntry finish f ts = .ok (e, rest)) :
    e.field = f ∧ ∃ us, Field (.word f.name :: us) e ∧ tokens ts = us ++ tokens rest := by
  cases f with
  | owner =>
    obtain ⟨c, hread, rfl⟩ := of_map_pair h
    obtain ⟨t, ht, hts⟩ := readConstant_sound hread
    exact ⟨rfl, [.colon, t], .owner ht, hts⟩
  | modulePath =>
    obtain ⟨value, hread, rfl⟩ := of_map_pair h
    obtain ⟨us, hus, hts⟩ := readString_sound hread
    exact ⟨rfl, .colon :: us, .modulePath hus, hts⟩
  | property =>
    obtain ⟨as, hread, rfl⟩ := of_map_pair h
    obtain ⟨us, hus, hts⟩ := readProperty_sound hread
    rcases hts with hts | hts
    · exact ⟨rfl, us, .prop hus, hts⟩
    · exact ⟨rfl, .colon :: us, .propColon hus, hts⟩

theorem readEntry_complete {finish : Position} {ts : List Located} {name : Token}
    {us vs : List Token} {e : Entry} (he : Field (name :: us) e) (hvs : NotString vs)
    (hts : tokens ts = us ++ vs) :
    ∃ rest, readEntry finish e.field ts = .ok (e, rest) ∧ tokens rest = vs := by
  cases he with
  | owner h =>
    obtain ⟨rest, hread, hrest⟩ := readConstant_complete Owner.ofName?_name h hts
    exact ⟨rest, map_pair_of_ok hread, hrest⟩
  | modulePath h =>
    obtain ⟨rest, hread, hrest⟩ := readString_complete h hvs hts
    exact ⟨rest, map_pair_of_ok hread, hrest⟩
  | prop h =>
    obtain ⟨rest, hread, hrest⟩ := readProperty_complete h (.inl hts)
    exact ⟨rest, map_pair_of_ok hread, hrest⟩
  | propColon h =>
    obtain ⟨rest, hread, hrest⟩ := readProperty_complete h (.inr hts)
    exact ⟨rest, map_pair_of_ok hread, hrest⟩

/-- The blocks of derivable entries have no field twice. -/
theorem Sequence.once_of_mem {ts : List Token} {es : List Entry} (h : Sequence Field ts es)
    {as : List Assignment} (has : .property as ∈ es) (f : PropertyField) :
    (as.map Assignment.field).count f ≤ 1 := by
  induction h with
  | nil => simp at has
  | cons head separator tail ih =>
    rcases List.mem_cons.1 has with rfl | has
    · cases head with
      | prop h =>
        obtain ⟨_, honce⟩ := h
        exact honce f
      | propColon h =>
        obtain ⟨_, honce⟩ := h
        exact honce f
    · exact ih has

/-- What a schema that is read begins with: a field that is new, unless it may be
repeated. -/
theorem readEntries_cons_cases {finish : Position} {seen : List SchemaField} {next : Located}
    {ts : List Located} {es : List Entry} (h : readEntries finish seen (next :: ts) = .ok es) :
    ∃ f e mid others, next.token = .word f.name ∧ (f ≠ .property → f ∉ seen) ∧
      readEntry finish f ts = .ok (e, mid) ∧
      readEntries finish (f :: seen) (skipSeparator mid) = .ok others ∧ es = e :: others := by
  rw [readEntries] at h
  split at h
  · rename_i name hname
    split at h
    · cases h
    · rename_i f hf
      split at h
      · cases h
      · rename_i hnew
        have hnew' : f ≠ .property → f ∉ seen := by
          intro hf hmem
          have hsingular : f.isRepeatable = false :=
            Bool.eq_false_iff.2 fun h => hf (isRepeatable_iff.1 h)
          simp [hsingular, hmem] at hnew
        split at h
        · cases h
        · rename_i e mid he
          rw [← entryName_of_ofName? hf] at hname
          cases hothers : readEntries finish (f :: seen) (skipSeparator mid) with
          | error x =>
            rw [hothers] at h
            cases h
          | ok others =>
            rw [hothers] at h
            obtain rfl := Except.ok.inj h
            exact ⟨f, e, mid, others, hname, hnew', he, hothers, rfl⟩
  · cases h

theorem readEntries_sound {finish : Position} {seen : List SchemaField} {ts : List Located}
    {es : List Entry} (h : readEntries finish seen ts = .ok es)
    (hseen : ∀ f, f ≠ .property → seen.count f ≤ 1) :
    Sequence Field (tokens ts) es ∧
      ∀ f, f ≠ .property → (es.map Entry.field ++ seen).count f ≤ 1 := by
  induction hn : ts.length using Nat.strongRecOn generalizing ts seen es with
  | _ n ih =>
    cases ts with
    | nil =>
      rw [readEntries] at h
      obtain rfl := Except.ok.inj h
      exact ⟨.nil, hseen⟩
    | cons next ts =>
      obtain ⟨f, e, mid, others, hname, hnew, he, hothers, rfl⟩ := readEntries_cons_cases h
      obtain ⟨rfl, us, hus, hts⟩ := readEntry_sound he
      obtain ⟨sep, hsep, hmid⟩ := skipSeparator_sound mid
      have hseen' : ∀ g, g ≠ .property → (e.field :: seen).count g ≤ 1 := by
        intro g hg
        refine count_cons_le_one (hseen g hg) ?_
        rintro rfl
        exact hnew hg
      have hlt := length_readEntry he
      have hle := length_skipSeparator mid
      rw [List.length_cons] at hn
      obtain ⟨htail, honce⟩ := ih (skipSeparator mid).length (by omega) hothers hseen' rfl
      refine ⟨?_, fun g hg => ?_⟩
      · rw [tokens_cons, hname, hts, hmid]
        exact .cons hus hsep htail
      · rw [List.map_cons, ← count_cons_append]
        exact honce g hg

theorem readEntries_complete {finish : Position} {us : List Token} {es : List Entry}
    (h : Sequence Field us es) {seen : List SchemaField}
    (honce : ∀ f, f ≠ .property → (es.map Entry.field ++ seen).count f ≤ 1) {ts : List Located}
    (hts : tokens ts = us) : readEntries finish seen ts = .ok es := by
  induction h generalizing seen ts with
  | nil =>
    obtain rfl := List.map_eq_nil_iff.1 hts
    rw [readEntries]
  | @cons head sep tail e es he hsep htail ih =>
    obtain ⟨body, rfl⟩ := he.name
    obtain ⟨position, ts', rfl, hts'⟩ := exists_of_tokens_cons (by simpa using hts)
    have hboundary : AtBoundary tail := by
      have h : AtBoundary (tail ++ []) :=
        htail.atBoundary (fun ts e h => ⟨_, h.name⟩) (by intro t us h; cases h)
      rwa [List.append_nil] at h
    obtain ⟨mid, hread, hmid⟩ : ∃ mid, readEntry finish e.field ts' = .ok (e, mid) ∧
        tokens mid = sep ++ tail :=
      readEntry_complete he (hsep.notString hboundary) hts'
    have hskip := skipSeparator_complete hsep hboundary hmid
    have honce' : ∀ g, g ≠ .property →
        (es.map Entry.field ++ e.field :: seen).count g ≤ 1 := by
      intro g hg
      rw [count_cons_append]
      exact honce g hg
    have hnew : ¬ ((!e.field.isRepeatable && decide (e.field ∈ seen)) = true) := by
      intro hold
      rw [Bool.and_eq_true, Bool.not_eq_true', decide_eq_true_eq] at hold
      obtain ⟨hsingular, hmem⟩ := hold
      have hproperty : e.field ≠ .property := by
        rw [ne_eq, ← isRepeatable_iff, hsingular]
        decide
      exact not_mem_of_count_le_one (honce e.field hproperty) hmem
    rw [readEntries]
    simp only [ofName?_entryName, if_neg hnew]
    split
    · rename_i x hx
      rw [hread] at hx
      cases hx
    · rename_i e' rest hrest
      obtain ⟨rfl, rfl⟩ := Prod.mk.inj (Except.ok.inj (hread.symm.trans hrest))
      rw [ih honce' hskip]
      rfl

end Grammar

namespace Schema

open Grammar

/-- The token readers accept the derivable token lists, with what they denote. -/
theorem ofTokens_eq_ok_iff {sequence : TokenSequence} {s : Schema} :
    ofTokens sequence = .ok s ↔ s.IsDeclaredBy (tokens sequence.items) := by
  constructor
  · intro h
    unfold ofTokens at h
    cases hes : readEntries sequence.finish [] sequence.items with
    | error e => simp [hes, Except.map] at h
    | ok es =>
      rw [hes] at h
      obtain rfl := Except.ok.inj h
      obtain ⟨hfields, honce⟩ := readEntries_sound hes (by simp)
      rw [List.append_nil] at honce
      exact ⟨es, hfields, honce, ofEntries_eq_schema honce fun as => hfields.once_of_mem⟩
  · intro h
    obtain ⟨es, hfields, honce, rfl⟩ := h
    have hes : readEntries sequence.finish [] sequence.items = .ok es :=
      readEntries_complete hfields (by simpa using honce) rfl
    rw [ofTokens, hes, ← ofEntries_eq_schema honce fun as => hfields.once_of_mem]
    rfl

theorem ofText_eq_ok_iff {text : String} {s : Schema} :
    ofText text = .ok s ↔
      ∃ sequence, scan text = .ok sequence ∧ s.IsDeclaredBy (tokens sequence.items) := by
  unfold ofText
  cases scan text with
  | error e => simp
  | ok sequence =>
    simp only [Except.ok.injEq, exists_eq_left', ← ofTokens_eq_ok_iff]
    cases ofTokens sequence with
    | error e => simp
    | ok d => simp

/-- A text that declares no schema has an error of its characters or of its tokens. -/
theorem ofText_error_cases {text : String} {e : SchemaError} (h : ofText text = .error e) :
    (∃ x, e = .lexical x ∧ scan text = .error x) ∨
      ∃ x, e = .grammatical x ∧ ∃ sequence, scan text = .ok sequence := by
  unfold ofText at h
  split at h
  · rename_i x hscan
    exact .inl ⟨x, (Except.error.inj h).symm, hscan⟩
  · rename_i sequence hscan
    split at h
    · rename_i x _
      exact .inr ⟨x, (Except.error.inj h).symm, sequence, hscan⟩
    · cases h

/-- **Schema text means what its grammar says.** A text declares a schema just if it
can be cut into tokens that derive the schema; every other text is an error, of its
characters if they cannot be cut into tokens and of its tokens if they can. -/
theorem ofText_decides (text : String) :
    (∀ s, ofText text = .ok s ↔
      ∃ sequence, scan text = .ok sequence ∧ s.IsDeclaredBy (tokens sequence.items)) ∧
    ((∃ s sequence, scan text = .ok sequence ∧ IsDeclaredBy s (tokens sequence.items)) ∨
      (∃ x, scan text = .error x ∧ ofText text = .error (.lexical x)) ∨
      ∃ sequence x, scan text = .ok sequence ∧ ofText text = .error (.grammatical x)) := by
  refine ⟨fun s => ofText_eq_ok_iff, ?_⟩
  cases h : ofText text with
  | ok s => exact .inl ⟨s, ofText_eq_ok_iff.1 h⟩
  | error e =>
    rcases ofText_error_cases h with ⟨x, rfl, hscan⟩ | ⟨x, rfl, sequence, hscan⟩
    · exact .inr (.inl ⟨x, hscan, rfl⟩)
    · exact .inr (.inr ⟨sequence, x, hscan, rfl⟩)

end Schema

end PropSchema
