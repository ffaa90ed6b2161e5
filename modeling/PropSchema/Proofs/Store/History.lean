/-
PropSchema.Proofs.Store.History — a store tells what was written to it, key by key.

A store that was empty is determined by the texts written under each key, in their order:
the first of them is what a key that is opened by `ro.` holds, the last what any other key
holds. Nothing else about the calls matters, not how those to different keys are mixed nor
where keys are read in between; so calls may be put in any order that keeps, for each key,
the order of the writes to it.

§1 Calls    — reads and writes, their answers, and the store after them.
§2 Entries  — a store is its readings, in the order of its keys.
§3 History  — the invariant between calls and store, over one call and over a run.
§4 Answers  — what one call is answered, and what the writes to one key are.
§5 Laws     — `Store.history_determines_store`.
-/
import PropSchema.Proofs.Schema.Rules
import PropSchema.Proofs.Text.Order
import PropSchema.Store
import Mathlib.Data.List.Sort

namespace PropSchema

namespace Store

/-! ## §1 Calls -/

/-- A call to a store: a key is read, or a text is written under it. -/
inductive Call where
  | read (key : String)
  | write (key text : String)

/-- What a call is answered: the text that was found, or whether the write took effect. -/
inductive Answer where
  | found (text : Option String)
  | taken (yes : Bool)
  deriving DecidableEq

namespace Call

/-- What a store answers to a call. -/
def answer (store : Store) : Call → Answer
  | .read key => .found (store.read key)
  | .write key text => .taken (store.write? key text).isSome

/-- The store after a call, which is the one before it unless a write was taken. -/
def next (store : Store) : Call → Store
  | .read _ => store
  | .write key text => (store.write? key text).getD store

/-- The text that a call writes under a key, taken or not. -/
def textFor? (key : String) : Call → Option String
  | .read _ => none
  | .write other text => if other = key then some text else none

theorem textFor?_eq_some_iff {key text : String} {call : Call} :
    call.textFor? key = some text ↔ call = .write key text := by
  cases call with
  | read other => simp [textFor?]
  | write other written => simp [textFor?]

end Call

/-- The answers to calls one after the other. -/
def answers (store : Store) : List Call → List Answer
  | [] => []
  | call :: calls => call.answer store :: (call.next store).answers calls

/-- The store after calls one after the other. -/
def afterCalls (store : Store) : List Call → Store
  | [] => store
  | call :: calls => (call.next store).afterCalls calls

/-- The texts that are written under a key, in order, taken or not. -/
def textsFor (key : String) (calls : List Call) : List String :=
  calls.filterMap (Call.textFor? key)

/-- The answers to the writes under a key, in order. -/
def answersFor (key : String) (store : Store) (calls : List Call) : List Answer :=
  ((calls.zip (store.answers calls)).filter fun (pair : Call × Answer) =>
    (pair.1.textFor? key).isSome).map (·.2)

theorem afterCalls_append (store : Store) (before later : List Call) :
    store.afterCalls (before ++ later) = (store.afterCalls before).afterCalls later := by
  induction before generalizing store with
  | nil => rfl
  | cons call before ih => exact ih _

/-- The answer at a call is that of the store which the calls before it lead to. -/
theorem getElem?_answers (store : Store) (before : List Call) (call : Call) (later : List Call) :
    (store.answers (before ++ call :: later))[before.length]? =
      some (call.answer (store.afterCalls before)) := by
  induction before generalizing store with
  | nil => rfl
  | cons first before ih => exact ih _

theorem mem_textsFor_iff {key text : String} {calls : List Call} :
    text ∈ textsFor key calls ↔ .write key text ∈ calls := by
  simp [textsFor, List.mem_filterMap, Call.textFor?_eq_some_iff]

theorem textsFor_eq_nil_iff {key : String} {calls : List Call} :
    textsFor key calls = [] ↔ ∀ text, .write key text ∉ calls := by
  simp [List.eq_nil_iff_forall_not_mem, mem_textsFor_iff]

theorem textsFor_cons_of_none {key : String} {call : Call} (h : call.textFor? key = none)
    (calls : List Call) : textsFor key (call :: calls) = textsFor key calls :=
  List.filterMap_cons_none h

theorem textsFor_cons_of_some {key text : String} {call : Call}
    (h : call.textFor? key = some text) (calls : List Call) :
    textsFor key (call :: calls) = text :: textsFor key calls :=
  List.filterMap_cons_some h

theorem textsFor_append (key : String) (before later : List Call) :
    textsFor key (before ++ later) = textsFor key before ++ textsFor key later :=
  List.filterMap_append

/-! ## §2 Entries -/

/-- An entry is what is read under its key. -/
theorem mem_entries_iff {store : Store} {key text : String} :
    (key, text) ∈ store.entries ↔ store.read key = some text := by
  constructor
  · intro hmem
    obtain ⟨before, after, hentries⟩ := List.append_of_mem hmem
    have hsorted := store.sorted
    rw [hentries, List.pairwise_append] at hsorted
    obtain ⟨_, _, hbefore⟩ := hsorted
    have hnot : ∀ e ∈ before, ¬ e.1 = key := fun e he heq =>
      String.lt_irrefl key (heq ▸ hbefore e he (key, text) List.mem_cons_self)
    rw [read, hentries, List.find?_append, List.find?_eq_none.2 (by simpa using hnot)]
    simp
  · intro hread
    obtain ⟨⟨other, found⟩, hfound, rfl⟩ := Option.map_eq_some_iff.1 hread
    obtain rfl : other = key := by simpa using List.find?_some hfound
    exact List.mem_of_find?_eq_some hfound

/-- Stores in which the same is read under every key are the same. -/
theorem eq_of_read_eq {s t : Store} (h : ∀ key, s.read key = t.read key) : s = t := by
  have hmem : ∀ e, e ∈ s.entries ↔ e ∈ t.entries := fun e => by
    rw [mem_entries_iff, mem_entries_iff, h]
  have : Std.Antisymm fun a b : String × String => a.1 < b.1 :=
    ⟨fun _ _ hab hba => absurd hba (String.lt_asymm hab)⟩
  have : Std.Irrefl fun a b : String × String => a.1 < b.1 := ⟨fun a => String.lt_irrefl a.1⟩
  have hentries := s.sorted.eq_of_mem_iff t.sorted hmem
  cases s
  cases t
  rwa [Store.mk.injEq]

/-- What is read under a key stays the same over a call that does not write under it. -/
theorem read_next_of_textFor? {key : String} {call : Call} (h : call.textFor? key = none)
    (store : Store) : (call.next store).read key = store.read key := by
  cases call with
  | read other => rfl
  | write other text =>
    have hkey : key ≠ other := fun heq => by simp [Call.textFor?, heq] at h
    rw [Call.next]
    cases hwrite : store.write? other text with
    | none => rfl
    | some next =>
      obtain ⟨_, rfl⟩ := write?_eq_some_iff.1 hwrite
      rw [Option.getD_some, read_put, if_neg hkey]

/-- After a write there is its text under its key, unless the key takes one write and held a
text. -/
theorem read_next_write (store : Store) (key text : String) :
    ((Call.write key text).next store).read key =
      if isWriteOnce key ∧ (store.read key).isSome then store.read key else some text := by
  rw [Call.next]
  cases hwrite : store.write? key text with
  | none => rw [Option.getD_none, if_pos (write?_eq_none_iff.1 hwrite)]
  | some next =>
    obtain ⟨htaken, rfl⟩ := write?_eq_some_iff.1 hwrite
    rw [Option.getD_some, read_put, if_pos rfl, if_neg htaken]

/-! ## §3 History -/

/-- The text that lasts of those written under a key. -/
def lasting (key : String) (calls : List Call) : Option String :=
  if isWriteOnce key then (textsFor key calls).head? else (textsFor key calls).getLast?

theorem lasting_eq_none_iff {key : String} {calls : List Call} :
    lasting key calls = none ↔ ∀ text, .write key text ∉ calls := by
  rw [← textsFor_eq_nil_iff, lasting]
  split <;> simp

/-- What lasts is not changed by a call that does not write under the key. -/
theorem lasting_append_of_textFor? {key : String} {call : Call} (h : call.textFor? key = none)
    (calls : List Call) : lasting key (calls ++ [call]) = lasting key calls := by
  rw [lasting, textsFor_append, textsFor_cons_of_none h, lasting]
  simp [textsFor]

/-- A text written under a key lasts, unless the key takes one write and was written before. -/
theorem lasting_append_write (key text : String) (calls : List Call) :
    lasting key (calls ++ [.write key text]) =
      if isWriteOnce key ∧ (lasting key calls).isSome then lasting key calls else some text := by
  have htexts : textsFor key [.write key text] = [text] :=
    textsFor_cons_of_some (Call.textFor?_eq_some_iff.2 rfl) []
  rw [lasting, lasting, textsFor_append, htexts]
  cases isWriteOnce key with
  | false => simp
  | true => cases textsFor key calls <;> simp

/-- Whether a store holds under every key the text that lasts of a history. -/
def Records (store : Store) (history : List Call) : Prop :=
  ∀ key, store.read key = lasting key history

theorem records_empty : Records empty [] :=
  fun _ => (lasting_eq_none_iff.2 fun _ => List.not_mem_nil).symm

/-- The step: one more call is recorded. -/
theorem Records.next {store : Store} {history : List Call} (h : store.Records history)
    (call : Call) : Records (call.next store) (history ++ [call]) := by
  intro key
  cases htext : call.textFor? key with
  | none => rw [read_next_of_textFor? htext, lasting_append_of_textFor? htext, h]
  | some text =>
    obtain rfl := Call.textFor?_eq_some_iff.1 htext
    rw [read_next_write, lasting_append_write, h]

/-- The run: calls one after the other are recorded. -/
theorem Records.afterCalls {store : Store} {history : List Call} (h : store.Records history)
    (calls : List Call) : Records (store.afterCalls calls) (history ++ calls) := by
  induction calls generalizing store history with
  | nil => rwa [List.append_nil]
  | cons call calls ih =>
    rw [List.append_cons]
    exact ih (h.next call)

/-- A store that was empty records the calls made to it. -/
theorem records_afterCalls_empty (calls : List Call) : Records (empty.afterCalls calls) calls :=
  records_empty.afterCalls calls

/-- What is left of a store that was empty is told by the texts written under each key. -/
theorem afterCalls_eq_of_textsFor_eq {calls other : List Call}
    (h : ∀ key, textsFor key other = textsFor key calls) :
    empty.afterCalls other = empty.afterCalls calls :=
  eq_of_read_eq fun key => by
    rw [records_afterCalls_empty, records_afterCalls_empty, lasting, lasting, h]

/-! ## §4 Answers -/

theorem isSome_write? (store : Store) (key text : String) :
    (store.write? key text).isSome = !(isWriteOnce key && (store.read key).isSome) := by
  rw [write?]
  cases isWriteOnce key && (store.read key).isSome <;> rfl

/-- A write is refused just if its key takes one write and was written before. -/
theorem Records.isSome_write?_eq_false_iff {store : Store} {history : List Call}
    (h : store.Records history) (key text : String) :
    (store.write? key text).isSome = false ↔
      isWriteOnce key = true ∧ ∃ earlier, .write key earlier ∈ history := by
  have hheld : (store.read key).isSome = true ↔ ∃ earlier, .write key earlier ∈ history := by
    rw [h key, ← Option.ne_none_iff_isSome, Ne, lasting_eq_none_iff, not_forall_not]
  rw [isSome_write?, Bool.not_eq_false', Bool.and_eq_true, hheld]

theorem answersFor_cons (key : String) (store : Store) (call : Call) (calls : List Call) :
    answersFor key store (call :: calls) =
      if (call.textFor? key).isSome then call.answer store :: answersFor key (call.next store) calls
      else answersFor key (call.next store) calls := by
  rw [answersFor, answers, List.zip_cons_cons, List.filter_cons]
  split <;> rfl

/-- The writes to a key that takes many are all taken. Of those to a key that takes one, the
first is, if the store held no text under it, and no other. -/
theorem answersFor_eq (key : String) (store : Store) (calls : List Call) :
    answersFor key store calls = (textsFor key calls).mapIdx fun i _ =>
      .taken (!(isWriteOnce key && ((store.read key).isSome || 0 < i))) := by
  induction calls generalizing store with
  | nil => rfl
  | cons call calls ih =>
    rw [answersFor_cons, ih]
    cases htext : call.textFor? key with
    | none =>
      rw [read_next_of_textFor? htext, textsFor_cons_of_none htext]
      rfl
    | some text =>
      obtain rfl := Call.textFor?_eq_some_iff.1 htext
      have hheld : (((Call.write key text).next store).read key).isSome = true := by
        rw [read_next_write]
        split <;> simp_all
      rw [textsFor_cons_of_some htext, List.mapIdx_cons, hheld, Call.answer, isSome_write?]
      simp

/-! ## §5 Laws -/

/-- **A store that was empty tells the history of the calls made to it**, whatever keys they
read and write, and in whatever order.
What is read under a key is nothing just if it was never written, the first text written if
the key is opened by `ro.`, and the last one otherwise. Each read is answered so by what was
written before it. A write is refused just if its key is opened by `ro.` and was written
before, and then changes nothing. The entries are the written keys, each once and in the order
of its bytes, with what is read under them. And calls in any other order, that keeps the order
of the texts written under each key, leave the same entries, and get the same answers for the
writes to each key. -/
theorem history_determines_store (calls : List Call) :
    (∀ key, (empty.afterCalls calls).read key = none ↔ ∀ text, .write key text ∉ calls) ∧
    (∀ rest, (empty.afterCalls calls).read ("ro." ++ rest) =
      (textsFor ("ro." ++ rest) calls).head?) ∧
    (∀ key, (∀ rest, key ≠ "ro." ++ rest) →
      (empty.afterCalls calls).read key = (textsFor key calls).getLast?) ∧
    (∀ before key later, calls = before ++ .read key :: later →
      (empty.answers calls)[before.length]? =
        some (.found ((empty.afterCalls before).read key))) ∧
    (∀ before key text later, calls = before ++ .write key text :: later →
      ∃ yes, (empty.answers calls)[before.length]? = some (.taken yes) ∧
        (yes = false ↔ (∃ rest, key = "ro." ++ rest) ∧ ∃ earlier, .write key earlier ∈ before) ∧
        (yes = false → empty.afterCalls (before ++ [.write key text]) = empty.afterCalls before)) ∧
    (∀ key text, (key, text) ∈ (empty.afterCalls calls).entries ↔
      (empty.afterCalls calls).read key = some text) ∧
    (empty.afterCalls calls).entries.Pairwise (fun a b => a.1.toUTF8.toList < b.1.toUTF8.toList) ∧
    ∀ other, (∀ key, textsFor key other = textsFor key calls) →
      (empty.afterCalls other).entries = (empty.afterCalls calls).entries ∧
        ∀ key, answersFor key empty other = answersFor key empty calls := by
  have hrecords := records_afterCalls_empty
  have honce : ∀ key, isWriteOnce key = true ↔ ∃ rest, key = "ro." ++ rest := fun _ => opensWith_iff
  refine ⟨fun key => ?_, fun rest => ?_, fun key hkey => ?_, ?_, ?_,
    fun key text => mem_entries_iff, ?_, fun other hother => ⟨?_, fun key => ?_⟩⟩
  · rw [hrecords, lasting_eq_none_iff]
  · rw [hrecords, lasting, if_pos ((honce _).2 ⟨rest, rfl⟩)]
  · rw [hrecords, lasting, if_neg fun h => not_exists.2 hkey ((honce key).1 h)]
  · rintro before key later rfl
    exact getElem?_answers empty before (.read key) later
  · rintro before key text later rfl
    refine ⟨_, getElem?_answers empty before (.write key text) later, ?_, fun hno => ?_⟩
    · rw [(hrecords before).isSome_write?_eq_false_iff, honce]
    · rw [Option.isSome_eq_false_iff, Option.isNone_iff_eq_none] at hno
      rw [afterCalls_append, afterCalls, afterCalls, Call.next, hno, Option.getD_none]
  · exact (empty.afterCalls calls).sorted.imp utf8_lt_iff.2
  · rw [afterCalls_eq_of_textsFor_eq hother]
  · rw [answersFor_eq, answersFor_eq, hother]

end Store

/-- Calls of two clients, one of which tries to set a serial number again. The two other keys
are in the one order by their bytes, and in the other by their UTF-16 units. -/
def counterCalls : List Store.Call := [
  .write "😀" "1", .write "ro.serial" "A1", .read "ro.serial", .write "\uffff" "x",
  .write "ro.serial" "B2", .write "😀" "2"]

/-- The same calls key by key, and without the reading. -/
def counterCallsByKey : List Store.Call := [
  .write "ro.serial" "A1", .write "ro.serial" "B2", .write "😀" "1", .write "😀" "2",
  .write "\uffff" "x"]

theorem counter_tells_its_history :
    (∀ key, Store.textsFor key counterCallsByKey = Store.textsFor key counterCalls) ∧
      (Store.empty.afterCalls counterCallsByKey).entries =
        (Store.empty.afterCalls counterCalls).entries ∧
      (Store.empty.afterCalls counterCalls).entries =
        [("ro.serial", "A1"), ("\uffff", "x"), ("😀", "2")] ∧
      (Store.empty.afterCalls counterCalls).read "😀" = some "2" ∧
      (Store.empty.answers counterCalls)[2]? = some (.found (some "A1")) ∧
      (Store.empty.answers counterCalls)[4]? = some (.taken false) ∧
      Store.answersFor "ro.serial" Store.empty counterCallsByKey = [.taken true, .taken false] := by
  have horder : ∀ key, Store.textsFor key counterCallsByKey = Store.textsFor key counterCalls := by
    intro key
    by_cases hserial : "ro.serial" = key
    · subst hserial
      decide +kernel
    · by_cases hcount : "😀" = key
      · subst hcount
        decide +kernel
      · simp [Store.textsFor, counterCallsByKey, counterCalls, List.filterMap_cons,
          Store.Call.textFor?, hserial, hcount]
  have hrewritable : ∀ rest, "😀" ≠ "ro." ++ rest := fun rest h =>
    absurd (opensWith_iff.2 ⟨rest, h⟩) (by decide +kernel)
  obtain ⟨_, _, hlast, hreads, hwrites, _, _, hshuffled⟩ :=
    Store.history_determines_store counterCalls
  obtain ⟨hentries, hanswers⟩ := hshuffled counterCallsByKey horder
  obtain ⟨yes, hyes, hrefused, _⟩ :=
    hwrites (counterCalls.take 4) "ro.serial" "B2" (counterCalls.drop 5) rfl
  obtain rfl := hrefused.2 ⟨⟨"serial", rfl⟩, "A1", by simp [counterCalls]⟩
  exact ⟨horder, hentries, by decide +kernel, (hlast _ hrewritable).trans (by decide +kernel),
    (hreads (counterCalls.take 2) "ro.serial" (counterCalls.drop 3) rfl).trans (by decide +kernel),
    hyes, (hanswers _).trans (by decide +kernel)⟩

end PropSchema
