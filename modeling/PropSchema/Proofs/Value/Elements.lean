/-
PropSchema.Proofs.Value.Elements — functions that may fail, run along a list.

Lists are coded by running a coder of single values along them. What such a run gives is said here
once, as a relation between the elements and what they give; and a run that fails does so for the
first element that has nothing to give. What other modules know of lists comes from these two.

§1 Pairs    — a relation between the elements of two lists.
§2 Runs     — `mapM_eq_some_iff_forall₂`, `mapM_eq_ok_iff_forall₂`, and runs back.
§3 Failures — `mapM_eq_error_iff`.
-/
import PropSchema.Proofs.Schema.Rules
import Mathlib.Data.List.Forall2

namespace PropSchema

variable {α β ε : Type}

/-! ## §1 Pairs -/

/-- Every element has another one beside it. -/
theorem exists_mem_of_forall₂ {R : α → β → Prop} {as : List α} {bs : List β}
    (h : List.Forall₂ R as bs) : ∀ a ∈ as, ∃ b ∈ bs, R a b := by
  induction h with
  | nil => simp
  | cons hab _ ih =>
    rw [List.forall_mem_cons]
    refine ⟨⟨_, List.mem_cons_self, hab⟩, fun a ha => ?_⟩
    obtain ⟨b, hb, hR⟩ := ih a ha
    exact ⟨b, List.mem_cons_of_mem _ hb, hR⟩

/-- There is a list beside another one just if there is an element beside each of its own. -/
theorem exists_forall₂_iff {R : α → β → Prop} {as : List α} :
    (∃ bs, List.Forall₂ R as bs) ↔ ∀ a ∈ as, ∃ b, R a b := by
  induction as with
  | nil => exact ⟨fun _ => by simp, fun _ => ⟨[], .nil⟩⟩
  | cons a as ih =>
    rw [List.forall_mem_cons, ← ih]
    constructor
    · rintro ⟨_, h⟩
      cases h with
      | cons hab h => exact ⟨⟨_, hab⟩, _, h⟩
    · rintro ⟨⟨b, hab⟩, bs, h⟩
      exact ⟨b :: bs, .cons hab h⟩

/-! ## §2 Runs -/

theorem mapM_eq_some_iff_forall₂ {f : α → Option β} {as : List α} {bs : List β} :
    as.mapM f = some bs ↔ List.Forall₂ (fun a b => f a = some b) as bs := by
  induction as generalizing bs with
  | nil =>
    rw [List.forall₂_nil_left_iff, List.mapM_nil]
    exact Option.some_inj.trans eq_comm
  | cons a as ih =>
    rw [List.mapM_cons, List.forall₂_cons_left_iff]
    constructor
    · intro h
      obtain ⟨b, hb, h⟩ := Option.bind_eq_some_iff.1 h
      obtain ⟨bs', hbs, h⟩ := Option.bind_eq_some_iff.1 h
      exact ⟨b, bs', hb, ih.1 hbs, (Option.some.inj h).symm⟩
    · rintro ⟨b, bs', hb, hbs, rfl⟩
      rw [hb, ih.2 hbs]
      rfl

theorem Except.bind_eq_ok_iff {r : Except ε α} {f : α → Except ε β} {b : β} :
    (r >>= f) = .ok b ↔ ∃ a, r = .ok a ∧ f a = .ok b := by
  cases r <;> simp [bind, Except.bind]

theorem mapM_eq_ok_iff_forall₂ {f : α → Except ε β} {as : List α} {bs : List β} :
    as.mapM f = .ok bs ↔ List.Forall₂ (fun a b => f a = .ok b) as bs := by
  induction as generalizing bs with
  | nil =>
    rw [List.forall₂_nil_left_iff, List.mapM_nil]
    simp [pure, Except.pure, eq_comm]
  | cons a as ih =>
    rw [List.mapM_cons, List.forall₂_cons_left_iff]
    constructor
    · intro h
      obtain ⟨b, hb, h⟩ := Except.bind_eq_ok_iff.1 h
      obtain ⟨bs', hbs, h⟩ := Except.bind_eq_ok_iff.1 h
      exact ⟨b, bs', hb, ih.1 hbs, (Except.ok.inj h).symm⟩
    · rintro ⟨b, bs', hb, hbs, rfl⟩
      rw [hb, ih.2 hbs]
      rfl

theorem length_of_mapM_eq_some {f : α → Option β} {as : List α} {bs : List β}
    (h : as.mapM f = some bs) : bs.length = as.length :=
  (mapM_eq_some_iff_forall₂.1 h).length_eq.symm

theorem exists_mem_of_mapM_eq_some {f : α → Option β} {as : List α} {bs : List β}
    (h : as.mapM f = some bs) : ∀ b ∈ bs, ∃ a ∈ as, f a = some b :=
  exists_mem_of_forall₂ (mapM_eq_some_iff_forall₂.1 h).flip

/-- Runs one after the other have results just if both have, and these one after the other. -/
theorem mapM_append_eq_some_iff {f : α → Option β} {as bs : List α} {cs : List β} :
    (as ++ bs).mapM f = some cs ↔
      ∃ xs ys, as.mapM f = some xs ∧ bs.mapM f = some ys ∧ cs = xs ++ ys := by
  rw [List.mapM_append]
  constructor
  · intro h
    obtain ⟨xs, hxs, h⟩ := Option.bind_eq_some_iff.1 h
    obtain ⟨ys, hys, h⟩ := Option.bind_eq_some_iff.1 h
    exact ⟨xs, ys, hxs, hys, (Option.some.inj h).symm⟩
  · rintro ⟨xs, ys, hxs, hys, rfl⟩
    rw [hxs, hys]
    rfl

/-- A list has texts just if every element has one. -/
theorem mapM_isOk_iff {encode : α → Except ε β} {values : List α} :
    (∃ texts, values.mapM encode = .ok texts) ↔
      ∀ value ∈ values, ∃ text, encode value = .ok text := by
  simp only [mapM_eq_ok_iff_forall₂, exists_forall₂_iff]

/-- The texts of a list's elements: one for each, the text of an element being among
them. -/
theorem texts_of_mapM_eq_ok {encode : α → Except ε β} {values : List α} {texts : List β}
    (h : values.mapM encode = .ok texts) :
    texts.length = values.length ∧
      ∀ value ∈ values, ∃ text ∈ texts, encode value = .ok text := by
  have hpairs := mapM_eq_ok_iff_forall₂.1 h
  exact ⟨hpairs.length_eq.symm, exists_mem_of_forall₂ hpairs⟩

/-- What holds of every element and its text holds of a list and its texts. -/
theorem mapM_encode {encode : α → Except ε β} {decode : β → Option α} {P : β → Prop}
    {values : List α}
    (h : ∀ value ∈ values, ∃ text, encode value = .ok text ∧ decode text = some value ∧ P text) :
    ∃ texts, values.mapM encode = .ok texts ∧ texts.mapM decode = some values ∧
      (∀ text ∈ texts, P text) ∧ texts.length = values.length := by
  obtain ⟨texts, hpairs⟩ := exists_forall₂_iff.2 h
  refine ⟨texts, ?_, ?_, fun text htext => ?_, hpairs.length_eq.symm⟩
  · exact mapM_eq_ok_iff_forall₂.2 (hpairs.imp fun _ _ hpair => hpair.1)
  · exact mapM_eq_some_iff_forall₂.2 (hpairs.imp fun _ _ hpair => hpair.2.1).flip
  · obtain ⟨_, _, _, _, hP⟩ := exists_mem_of_forall₂ hpairs.flip text htext
    exact hP

/-- If what each text is decoded to is written as that text, lists are written as the texts that
they were decoded from. -/
theorem mapM_encode_of_mapM_decode {encode : α → Except ε β} {decode : β → Option α}
    {texts : List β} {values : List α} (h : texts.mapM decode = some values)
    (hback : ∀ text value, decode text = some value → encode value = .ok text) :
    values.mapM encode = .ok texts :=
  mapM_eq_ok_iff_forall₂.2 ((mapM_eq_some_iff_forall₂.1 h).imp hback).flip

/-! ## §3 Failures -/

theorem isFirst_cons_iff {p : α → Prop} {a b : α} {as : List α} :
    IsFirst p (a :: as) b ↔ p a ∧ a = b ∨ ¬ p a ∧ IsFirst p as b := by
  constructor
  · rintro ⟨before, after, heq, hbefore, hb⟩
    cases before with
    | nil =>
      obtain ⟨rfl, _⟩ := List.cons.inj heq
      exact .inl ⟨hb, rfl⟩
    | cons c before =>
      obtain ⟨rfl, rfl⟩ := List.cons.inj heq
      rw [List.forall_mem_cons] at hbefore
      exact .inr ⟨hbefore.1, before, after, rfl, hbefore.2, hb⟩
  · rintro (⟨ha, rfl⟩ | ⟨ha, before, after, rfl, hbefore, hb⟩)
    · exact ⟨[], as, rfl, by simp, ha⟩
    · exact ⟨a :: before, after, rfl, List.forall_mem_cons.2 ⟨ha, hbefore⟩, hb⟩

theorem Except.bind_eq_error_iff {r : Except ε α} {f : α → Except ε β} {e : ε} :
    (r >>= f) = .error e ↔ r = .error e ∨ ∃ a, r = .ok a ∧ f a = .error e := by
  cases r <;> simp [bind, Except.bind]

/-- A run fails for the first element that has nothing to give. -/
theorem mapM_eq_error_iff {encode : α → Except ε β} {values : List α} {e : ε} :
    values.mapM encode = .error e ↔
      ∃ value, IsFirst (fun v => ¬ ∃ text, encode v = .ok text) values value ∧
        encode value = .error e := by
  induction values with
  | nil =>
    constructor
    · intro h
      nomatch h
    · rintro ⟨_, ⟨_, _, h, _⟩, _⟩
      simp at h
  | cons v values ih =>
    -- putting an element before a result cannot fail
    have hcons : ∀ (t : β) (ts : List β), (pure (t :: ts) : Except ε (List β)) ≠ .error e := by
      intro t ts h
      nomatch h
    simp only [isFirst_cons_iff, List.mapM_cons, Except.bind_eq_error_iff, hcons, ih]
    cases hv : encode v with
    | error e' => simp [hv]
    | ok text => simp

end PropSchema
