/-
PropSchema.Proofs.Session — typed access to a store, step after step.

A session starts with the empty store and gets and sets values through the
accessors of a schema. What a property reads as depends on the history alone:
nothing before its first set, and from then on the first value set through it
if its key is written once, the last one if it is not. That holds of properties
that share their key with no other; for the others it is still known which
sets are taken.

§1 Steps     — what a step does, and the store a history leads to.
§2 Histories — the value a history leaves, and which keys it has written.
§3 Invariant — `Reflects`, the texts in the store against the history: a step
   keeps it (`Reflects.step`), hence so does a run (`Reflects.run`).
§4 Sessions  — `Schema.session_of_load`, for every history of a loaded schema.
-/
import PropSchema.Proofs.Schema.Loading
import PropSchema.Proofs.Value.Doubles
import Mathlib.Control.Monad.Basic

namespace PropSchema

namespace Session

/-! ## §1 Steps -/

/-- A use of an accessor. -/
inductive Step where
  | get (a : Accessor)
  | set (a : Accessor) (value : Value)

/-- What a step answers: the value that was read, or whether a value was taken. -/
inductive Answer where
  | value (v : Option Value)
  | taken (b : Bool)

/-- A step's answer and the store after it, which is the one before it unless a
value was taken. -/
def Step.run (store : Store) : Step → Except Misuse (Answer × Store)
  | .get a => .ok (.value (a.get store), store)
  | .set a value =>
    match a.set store value with
    | .error e => .error e
    | .ok none => .ok (.taken false, store)
    | .ok (some next) => .ok (.taken true, next)

/-- The answers of steps one after the other, and the store after them. -/
def run (store : Store) : List Step → Except Misuse (List Answer × Store)
  | [] => .ok ([], store)
  | step :: steps =>
    match step.run store with
    | .error e => .error e
    | .ok (answer, next) => (run next steps).map fun (answers, last) => (answer :: answers, last)

/-- A run goes through the store that its beginning leads to. -/
theorem run_append {store mid : Store} {before after : List Step} {answers : List Answer}
    (h : run store before = .ok (answers, mid)) :
    run store (before ++ after) =
      (run mid after).map fun (later, last) => (answers ++ later, last) := by
  induction before generalizing store answers with
  | nil =>
    obtain ⟨rfl, rfl⟩ := Prod.mk.inj (Except.ok.inj h)
    rw [List.nil_append]
    cases run store after <;> rfl
  | cons step before ih =>
    rw [List.cons_append, run]
    rw [run] at h
    cases hstep : step.run store with
    | error e => simp [hstep] at h
    | ok result =>
      obtain ⟨answer, next⟩ := result
      simp only [hstep] at h ⊢
      cases hrun : run next before with
      | error e => simp [hrun, Except.map] at h
      | ok rest =>
        obtain ⟨others, last⟩ := rest
        simp only [hrun, Except.map, Except.ok.injEq, Prod.mk.injEq] at h
        obtain ⟨rfl, rfl⟩ := h
        rw [ih hrun]
        cases run last after <;> rfl

/-! ## §2 Histories -/

/-- The value that a step sets through an accessor. -/
def Step.valueFor? (a : Accessor) : Step → Option Value
  | .get _ => none
  | .set b value => if b = a then some value else none

/-- The values set through an accessor, in order. -/
def valuesFor (a : Accessor) (history : List Step) : List Value :=
  history.filterMap (Step.valueFor? a)

/-- The value that a property has after a history: the first one set if its key is
written once, and the last one if it is not. -/
def valueAfter (a : Accessor) (history : List Step) : Option Value :=
  if Store.isWriteOnce a.key then (valuesFor a history).head? else (valuesFor a history).getLast?

/-- Whether a value was set under a key, through any accessor. -/
def Sets (key : String) (history : List Step) : Prop :=
  ∃ a value, .set a value ∈ history ∧ a.key = key

theorem sets_append_singleton {key : String} {history : List Step} {step : Step} :
    Sets key (history ++ [step]) ↔ Sets key history ∨ Sets key [step] := by
  simp only [Sets, List.mem_append]
  constructor
  · rintro ⟨a, value, h | h, hkey⟩
    · exact .inl ⟨a, value, h, hkey⟩
    · exact .inr ⟨a, value, h, hkey⟩
  · rintro (⟨a, value, h, hkey⟩ | ⟨a, value, h, hkey⟩)
    · exact ⟨a, value, .inl h, hkey⟩
    · exact ⟨a, value, .inr h, hkey⟩

theorem sets_set {key : String} {a : Accessor} {value : Value} :
    Sets key [.set a value] ↔ a.key = key := by
  simp [Sets]

theorem not_sets_get {key : String} {a : Accessor} : ¬ Sets key [.get a] := by
  simp [Sets]

theorem valuesFor_append_self {a : Accessor} {value : Value} {history : List Step} :
    valuesFor a (history ++ [.set a value]) = valuesFor a history ++ [value] := by
  simp [valuesFor, Step.valueFor?]

theorem valueAfter_append_of_ne {a b : Accessor} (h : b ≠ a) {value : Value}
    {history : List Step} : valueAfter a (history ++ [.set b value]) = valueAfter a history := by
  simp [valueAfter, valuesFor, Step.valueFor?, h]

theorem valueAfter_append_get {a b : Accessor} {history : List Step} :
    valueAfter a (history ++ [.get b]) = valueAfter a history := by
  simp [valueAfter, valuesFor, Step.valueFor?]

theorem set_mem_of_mem_valuesFor {a : Accessor} {history : List Step} {value : Value}
    (h : value ∈ valuesFor a history) : .set a value ∈ history := by
  obtain ⟨step, hstep, hvalue⟩ := List.mem_filterMap.1 h
  cases step with
  | get b => simp [Step.valueFor?] at hvalue
  | set b v =>
    by_cases hb : b = a
    · simp only [Step.valueFor?, hb, if_true, Option.some.injEq] at hvalue
      rwa [← hb, ← hvalue]
    · simp [Step.valueFor?, hb] at hvalue

theorem mem_valuesFor_of_valueAfter {a : Accessor} {history : List Step} {value : Value}
    (h : valueAfter a history = some value) : value ∈ valuesFor a history := by
  unfold valueAfter at h
  split at h
  · exact List.mem_of_head? h
  · exact List.mem_of_getLast? h

theorem valuesFor_eq_nil_of_valueAfter {a : Accessor} {history : List Step}
    (h : valueAfter a history = none) : valuesFor a history = [] := by
  unfold valueAfter at h
  split at h
  · exact List.head?_eq_none_iff.1 h
  · exact List.getLast?_eq_none_iff.1 h

end Session

open Session

namespace Schema

/-- Whether no other property of a schema has the same key. -/
def OwnsKey (s : Schema) (a : Accessor) : Prop :=
  ∀ b ∈ s.accessors, b.key = a.key → b = a

instance (s : Schema) (a : Accessor) : Decidable (s.OwnsKey a) :=
  inferInstanceAs (Decidable (∀ b ∈ s.accessors, b.key = a.key → b = a))

/-- The steps that a schema's users may take: any get, and setting a value that
fits its property and can be cut out of its text again. -/
def Allows (s : Schema) : Step → Prop
  | .get a => a ∈ s.accessors
  | .set a value => a ∈ s.accessors ∧ a.descriptor.Fits value ∧ value.Separable

end Schema

namespace Session

/-! ## §3 Invariant -/

/-- What a store has to do with the history that led to it: it has texts under just
the keys that were set, and under a key of its own a property has the text of the
value that the history leaves it. -/
structure Reflects (s : Schema) (history : List Step) (store : Store) : Prop where
  allowed : ∀ step ∈ history, s.Allows step
  keys : ∀ key, (store.read key).isSome = true ↔ Sets key history
  texts : ∀ a ∈ s.accessors, s.OwnsKey a → ∀ value, valueAfter a history = some value →
    ∃ text, a.encode value = .ok text ∧ store.read a.key = some text

theorem reflects_nil (s : Schema) : Reflects s [] .empty :=
  ⟨by simp, by simp [Sets], by simp [valueAfter, valuesFor]⟩

/-- Under a property's own key there is something just if it was set itself. -/
theorem Reflects.valuesFor_ne_nil {s : Schema} {history : List Step} {store : Store}
    (h : Reflects s history store) {a : Accessor} (hown : s.OwnsKey a)
    (hsets : Sets a.key history) : valuesFor a history ≠ [] := by
  obtain ⟨b, value, hmem, hkey⟩ := hsets
  obtain rfl := hown b (h.allowed _ hmem).1 hkey
  have hvalue : value ∈ valuesFor b history :=
    List.mem_filterMap.2 ⟨_, hmem, by simp [Step.valueFor?]⟩
  exact List.ne_nil_of_mem hvalue

theorem Reflects.not_sets {s : Schema} {history : List Step} {store : Store}
    (h : Reflects s history store) {a : Accessor} (hown : s.OwnsKey a)
    (hnone : valueAfter a history = none) : ¬ Sets a.key history :=
  fun hsets => h.valuesFor_ne_nil hown hsets (valuesFor_eq_nil_of_valueAfter hnone)

theorem Reflects.get {s : Schema} {history : List Step} {store : Store}
    (h : Reflects s history store) {a : Accessor} (ha : a ∈ s.accessors) :
    Reflects s (history ++ [.get a]) store := by
  refine ⟨?_, fun key => ?_, fun b hb hown value hvalue => ?_⟩
  · intro step hstep
    rcases List.mem_append.1 hstep with hstep | hstep
    · exact h.allowed step hstep
    · rw [List.mem_singleton.1 hstep]
      exact ha
  · rw [h.keys, sets_append_singleton]
    simp [not_sets_get]
  · rw [valueAfter_append_get] at hvalue
    exact h.texts b hb hown value hvalue

/-- A write to a key that takes only one, and has it, changes nothing: the first
value stays the first. -/
theorem Reflects.refuse {s : Schema} {history : List Step} {store : Store}
    (h : Reflects s history store) {a : Accessor} {value : Value} (hallows : s.Allows (.set a value))
    (honce : Store.isWriteOnce a.key = true) (hsets : Sets a.key history) :
    Reflects s (history ++ [.set a value]) store := by
  refine ⟨?_, fun key => ?_, fun b hb hown v hv => ?_⟩
  · intro step hstep
    rcases List.mem_append.1 hstep with hstep | hstep
    · exact h.allowed step hstep
    · rw [List.mem_singleton.1 hstep]
      exact hallows
  · rw [h.keys, sets_append_singleton, sets_set]
    constructor
    · exact .inl
    · rintro (hkey | rfl)
      · exact hkey
      · exact hsets
  · by_cases hab : a = b
    · subst hab
      refine h.texts a hb hown v ?_
      obtain ⟨w, ws, hvalues⟩ := List.exists_cons_of_ne_nil (h.valuesFor_ne_nil hown hsets)
      rw [valueAfter, if_pos honce, valuesFor_append_self, hvalues] at hv
      rw [valueAfter, if_pos honce, hvalues]
      exact hv
    · rw [valueAfter_append_of_ne hab] at hv
      exact h.texts b hb hown v hv

/-- A write that is taken makes its value the one that the history leaves. -/
theorem Reflects.take {s : Schema} {history : List Step} {store : Store}
    (h : Reflects s history store) {a : Accessor} {value : Value} (hallows : s.Allows (.set a value))
    {text : String} (hencode : a.encode value = .ok text)
    (hfree : ¬ (Store.isWriteOnce a.key = true ∧ Sets a.key history)) :
    Reflects s (history ++ [.set a value]) (store.put a.key text) := by
  refine ⟨?_, fun key => ?_, fun b hb hown v hv => ?_⟩
  · intro step hstep
    rcases List.mem_append.1 hstep with hstep | hstep
    · exact h.allowed step hstep
    · rw [List.mem_singleton.1 hstep]
      exact hallows
  · rw [Store.read_put, sets_append_singleton, sets_set, ← h.keys]
    split
    · rename_i hkey
      simp [hkey]
    · rename_i hkey
      simp [Ne.symm hkey]
  · rw [Store.read_put]
    by_cases hab : a = b
    · subst hab
      have hlast : valueAfter a (history ++ [.set a value]) = some value := by
        rw [valueAfter, valuesFor_append_self]
        split
        · rename_i honce
          have hnil : valuesFor a history = [] := List.eq_nil_iff_forall_not_mem.2 fun w hw =>
            hfree ⟨honce, a, w, set_mem_of_mem_valuesFor hw, rfl⟩
          simp [hnil]
        · simp
      obtain rfl := Option.some.inj (hlast.symm.trans hv)
      exact ⟨text, hencode, if_pos rfl⟩
    · have hkey : b.key ≠ a.key := fun e => hab (hown a hallows.1 e.symm)
      rw [valueAfter_append_of_ne hab] at hv
      rw [if_neg hkey]
      exact h.texts b hb hown v hv

/-- What a set does: it is refused, without any change, just if its key takes one
write and has it. -/
theorem Step.run_set {store : Store} {a : Accessor} {value : Value} {text : String}
    (hencode : a.encode value = .ok text) :
    (Step.set a value).run store =
      if Store.isWriteOnce a.key = true ∧ (store.read a.key).isSome = true then
        .ok (.taken false, store)
      else .ok (.taken true, store.put a.key text) := by
  have hset : a.set store value = .ok (store.write? a.key text) := by
    rw [Accessor.set, hencode]
    rfl
  by_cases hno : Store.isWriteOnce a.key = true ∧ (store.read a.key).isSome = true
  · rw [Store.write?_eq_none_iff.2 hno] at hset
    rw [if_pos hno, Step.run, hset]
  · rw [Store.write?_eq_some_iff.2 ⟨hno, rfl⟩] at hset
    rw [if_neg hno, Step.run, hset]

/-- A step that is allowed is taken or refused, and the store goes on reflecting
the history. -/
theorem Reflects.step {s : Schema} (hs : s.Valid) {history : List Step} {store : Store}
    (h : Reflects s history store) {step : Step} (hstep : s.Allows step) :
    ∃ answer next, step.run store = .ok (answer, next) ∧ Reflects s (history ++ [step]) next := by
  cases step with
  | get a => exact ⟨_, _, rfl, h.get hstep⟩
  | set a value =>
    obtain ⟨text, hencode⟩ := Accessor.encode_isOk_of_fits (hs.wellFormed hstep.1) hstep.2.1
    by_cases hno : Store.isWriteOnce a.key = true ∧ (store.read a.key).isSome = true
    · refine ⟨_, _, (Step.run_set hencode).trans (if_pos hno), ?_⟩
      exact h.refuse hstep hno.1 ((h.keys a.key).1 hno.2)
    · refine ⟨_, _, (Step.run_set hencode).trans (if_neg hno), ?_⟩
      exact h.take hstep hencode fun hfree => hno ⟨hfree.1, (h.keys a.key).2 hfree.2⟩

/-- Steps that are allowed run through, and the store reflects them all. -/
theorem Reflects.run {s : Schema} (hs : s.Valid) {history steps : List Step} {store : Store}
    (h : Reflects s history store) (hsteps : ∀ step ∈ steps, s.Allows step) :
    ∃ answers next, Session.run store steps = .ok (answers, next) ∧
      Reflects s (history ++ steps) next := by
  induction steps generalizing history store with
  | nil => exact ⟨[], store, rfl, by simpa using h⟩
  | cons step steps ih =>
    obtain ⟨answer, mid, hstep, hmid⟩ := h.step hs (hsteps step List.mem_cons_self)
    obtain ⟨answers, next, hrun, hnext⟩ := ih hmid fun t ht => hsteps t (List.mem_cons_of_mem _ ht)
    refine ⟨answer :: answers, next, ?_, by simpa using hnext⟩
    rw [Session.run, hstep]
    simp only [hrun]
    rfl

/-- A property with a key of its own reads as the value that the history leaves it. -/
theorem Reflects.get_eq {s : Schema} (hs : s.Valid) {history : List Step} {store : Store}
    (h : Reflects s history store) {a : Accessor} (ha : a ∈ s.accessors) (hown : s.OwnsKey a) :
    a.get store = valueAfter a history := by
  unfold Accessor.get
  cases hv : valueAfter a history with
  | none =>
    have hread : store.read a.key = none := by
      rw [← Option.not_isSome_iff_eq_none, h.keys]
      exact h.not_sets hown hv
    rw [hread]
    rfl
  | some value =>
    have hmem := set_mem_of_mem_valuesFor (mem_valuesFor_of_valueAfter hv)
    obtain ⟨_, hfit, hsep⟩ := h.allowed _ hmem
    obtain ⟨text, hencode, hread⟩ := h.texts a ha hown value hv
    obtain ⟨text', hencode', hdecode⟩ :=
      Accessor.decode_encode (hs.wellFormed ha) hfit hsep value.doublesReadBack
    obtain rfl := Except.ok.inj (hencode'.symm.trans hencode)
    rw [hread]
    exact hdecode

end Session

/-! ## §4 Sessions -/

namespace Schema

/-- **What a session sees is decided by its history.** After any history of a loaded
schema's steps, a property with a key of its own reads as nothing if it was never
set, and otherwise as the first or the last value set through it. The next set
is taken and leaves what is under other keys alone, unless its key is written
once and was set before; then it changes nothing at all. A run goes through the
stores that its beginnings lead to (`run_append`), so this is so at each step. -/
theorem session_of_load {text : String} {s : Schema} (hload : load text = .ok s)
    {history : List Step} (hallowed : ∀ step ∈ history, s.Allows step) :
    ∃ answers store, Session.run .empty history = .ok (answers, store) ∧
      (∀ a ∈ s.accessors, ∃ v, (Step.get a).run store = .ok (.value v, store) ∧
        (s.OwnsKey a → v = valueAfter a history)) ∧
      ∀ a ∈ s.accessors, ∀ value, a.descriptor.Fits value → value.Separable →
        (Store.isWriteOnce a.key = true ∧ Sets a.key history →
          (Step.set a value).run store = .ok (.taken false, store)) ∧
        (¬ (Store.isWriteOnce a.key = true ∧ Sets a.key history) →
          ∃ next, (Step.set a value).run store = .ok (.taken true, next) ∧
            ∀ b : Accessor, b.key ≠ a.key → b.get next = b.get store) := by
  have hs := valid_of_load hload
  obtain ⟨answers, store, hrun, hreflects⟩ := (reflects_nil s).run hs hallowed
  rw [List.nil_append] at hreflects
  refine ⟨answers, store, hrun, fun a ha => ?_, fun a ha value hfit _ => ?_⟩
  · exact ⟨_, rfl, fun hown => hreflects.get_eq hs ha hown⟩
  · obtain ⟨text, hencode⟩ := Accessor.encode_isOk_of_fits (hs.wellFormed ha) hfit
    rw [← hreflects.keys]
    constructor
    · intro hno
      exact (Step.run_set hencode).trans (if_pos hno)
    · intro hno
      refine ⟨_, (Step.run_set hencode).trans (if_neg hno), fun b hb => ?_⟩
      rw [Accessor.get, Accessor.get, Store.read_put, if_neg hb]

end Schema

/-- A schema of a lamp: a level that is set again and again, a gain, and modes that
are chosen once. -/
def lampText : String :=
  "module: \"home.Lamp\"\n" ++
  "prop \x7b api_name: \"level\" type: Integer access: ReadWrite \x7d\n" ++
  "prop \x7b api_name: \"gain\" type: Double access: ReadWrite \x7d\n" ++
  "prop \x7b api_name: \"modes\" type: EnumList enum_values: \"day|night\" \x7d\n"

/-- What the lamp's text loads as. -/
def lamp : Schema where
  modulePath := "home.Lamp"
  props := [
    { apiName := "level", type := ⟨.int32, false⟩, access := .readWrite, propName := some "level" },
    { apiName := "gain", type := ⟨.double, false⟩, access := .readWrite, propName := some "gain" },
    { apiName := "modes", type := ⟨.enumeration, true⟩, enumValues := "day|night",
      propName := some "ro.modes" }]

/-- The accessors of the lamp. -/
def lampLevel : Accessor := ⟨"level", "level", ⟨⟨.int32, false⟩, []⟩, false⟩

def lampGain : Accessor := ⟨"gain", "gain", ⟨⟨.double, false⟩, []⟩, false⟩

def lampModes : Accessor := ⟨"modes", "ro.modes", ⟨⟨.enumeration, true⟩, ["day", "night"]⟩, false⟩

/-- A tenth, which is not a double: the one nearest to it. -/
def tenth : Number.Binary64 := .ofBits 0x3fb999999999999a

/-- A use of the lamp in which both the level and the modes are set twice. -/
def lampHistory : List Step := [
  .set lampLevel (.int 1), .set lampModes (.list [.ordinal 1, .ordinal 0]), .get lampModes,
  .set lampGain (.double tenth), .set lampModes (.list [.ordinal 0]), .set lampLevel (.int (-2))]

theorem lamp_session :
    Schema.load lampText = .ok lamp ∧ (∀ step ∈ lampHistory, lamp.Allows step) ∧
      ∃ answers store, Session.run .empty lampHistory = .ok (answers, store) ∧
        (Step.get lampLevel).run store = .ok (.value (some (.int (-2))), store) ∧
        (Step.get lampGain).run store = .ok (.value (some (.double tenth)), store) ∧
        (Step.get lampModes).run store =
          .ok (.value (some (.list [.ordinal 1, .ordinal 0])), store) ∧
        (Step.set lampModes (.list [.ordinal 0])).run store = .ok (.taken false, store) := by
  have hload : Schema.load lampText = .ok lamp := by decide +kernel
  have hmem : lampLevel ∈ lamp.accessors ∧ lampGain ∈ lamp.accessors ∧
      lampModes ∈ lamp.accessors := by decide +kernel
  obtain ⟨hlevel, hgain, hmodes⟩ := hmem
  have hchoice : lampModes.descriptor.Fits (.list [.ordinal 0]) := by
    simp [Descriptor.Fits, Descriptor.FitsItem, lampModes]
  have hallowed : ∀ step ∈ lampHistory, lamp.Allows step := by
    intro step hstep
    simp only [lampHistory, List.mem_cons, List.not_mem_nil, or_false] at hstep
    rcases hstep with rfl | rfl | rfl | rfl | rfl | rfl
    · exact ⟨hlevel, by simp [Descriptor.Fits, Descriptor.FitsItem, lampLevel],
        by simp [Value.Separable]⟩
    · exact ⟨hmodes, by simp [Descriptor.Fits, Descriptor.FitsItem, lampModes],
        by simp [Value.Separable]⟩
    · exact hmodes
    · exact ⟨hgain, by simp [Descriptor.Fits, Descriptor.FitsItem, lampGain],
        by simp [Value.Separable]⟩
    · exact ⟨hmodes, hchoice, by simp [Value.Separable]⟩
    · exact ⟨hlevel, by simp [Descriptor.Fits, Descriptor.FitsItem, lampLevel],
        by simp [Value.Separable]⟩
  obtain ⟨answers, store, hrun, hgets, hsets⟩ := Schema.session_of_load hload hallowed
  have hreads {a : Accessor} {value : Value} (ha : a ∈ lamp.accessors) (hown : lamp.OwnsKey a)
      (hvalue : valueAfter a lampHistory = some value) :
      (Step.get a).run store = .ok (.value (some value), store) := by
    obtain ⟨v, hget, hv⟩ := hgets a ha
    rw [hget, hv hown, hvalue]
  refine ⟨hload, hallowed, answers, store, hrun, hreads hlevel (by decide +kernel) rfl,
    hreads hgain (by decide +kernel) rfl, hreads hmodes (by decide +kernel) rfl, ?_⟩
  have honce : Store.isWriteOnce lampModes.key = true := by decide +kernel
  have hset : Sets lampModes.key lampHistory :=
    ⟨lampModes, .list [.ordinal 0], by simp [lampHistory], rfl⟩
  exact (hsets lampModes hmodes _ hchoice (by simp [Value.Separable])).1 ⟨honce, hset⟩

end PropSchema
