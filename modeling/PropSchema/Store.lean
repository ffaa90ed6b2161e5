/-
PropSchema.Store — a key-value store in which some keys are written once.

Entries are kept in the order of their keys, code point by code point, which is
also the byte order of their UTF-8 encodings. A key that starts with `ro.` takes
one write, and every later one is refused; any other key takes every write.
-/
import PropSchema.Schema.Validity

namespace PropSchema

/-- The entries of a store, its keys increasing. -/
structure Store where
  entries : List (String × String)
  sorted : entries.Pairwise fun a b => a.1 < b.1

namespace Store

/-- The store without entries. -/
def empty : Store :=
  ⟨[], .nil⟩

/-- The text under a key. -/
def read (s : Store) (key : String) : Option String :=
  (s.entries.find? fun e => e.1 = key).map (·.2)

/-- Entries with a text put under a key, in place of the one that was there. -/
def putEntry (key raw : String) : List (String × String) → List (String × String)
  | [] => [(key, raw)]
  | e :: es =>
    if key < e.1 then (key, raw) :: e :: es
    else if key = e.1 then (key, raw) :: es
    else e :: putEntry key raw es

theorem mem_putEntry {key raw : String} {es : List (String × String)} {e : String × String}
    (h : e ∈ putEntry key raw es) : e = (key, raw) ∨ e ∈ es := by
  induction es with
  | nil => exact .inl (List.mem_singleton.1 h)
  | cons x xs ih =>
    rw [putEntry] at h
    split at h
    · exact List.mem_cons.1 h
    · split at h
      · rcases List.mem_cons.1 h with h | h
        · exact .inl h
        · exact .inr (List.mem_cons_of_mem _ h)
      · rcases List.mem_cons.1 h with h | h
        · exact .inr (h ▸ List.mem_cons_self)
        · rcases ih h with h | h
          · exact .inl h
          · exact .inr (List.mem_cons_of_mem _ h)

theorem sorted_putEntry {key raw : String} {es : List (String × String)}
    (h : es.Pairwise fun a b => a.1 < b.1) :
    (putEntry key raw es).Pairwise fun a b => a.1 < b.1 := by
  induction es with
  | nil => exact List.pairwise_singleton _ _
  | cons x xs ih =>
    obtain ⟨hx, hxs⟩ := List.pairwise_cons.1 h
    rw [putEntry]
    split
    · rename_i hlt
      refine List.pairwise_cons.2 ⟨fun e he => ?_, h⟩
      rcases List.mem_cons.1 he with rfl | he
      · exact hlt
      · exact String.lt_trans hlt (hx e he)
    · split
      · rename_i heq
        exact List.pairwise_cons.2 ⟨fun e he => heq ▸ hx e he, hxs⟩
      · rename_i hlt hne
        refine List.pairwise_cons.2 ⟨fun e he => ?_, ih hxs⟩
        rcases mem_putEntry he with rfl | he
        · by_cases hgt : x.1 < key
          · exact hgt
          · exact absurd (String.le_antisymm (String.not_lt.1 hgt) (String.not_lt.1 hlt)) hne
        · exact hx e he

/-- A store with a text put under a key. -/
def put (s : Store) (key raw : String) : Store :=
  ⟨putEntry key raw s.entries, sorted_putEntry s.sorted⟩

/-- Whether a key takes only one write. -/
def isWriteOnce (key : String) : Bool :=
  opensWith "ro." key

/-- The store after a write, if the write is taken. -/
def write? (s : Store) (key raw : String) : Option Store :=
  if isWriteOnce key && (s.read key).isSome then none else some (s.put key raw)

/-! ## Laws -/

@[simp] theorem read_empty (key : String) : empty.read key = none :=
  rfl

theorem find?_putEntry (key raw other : String) (es : List (String × String)) :
    ((putEntry key raw es).find? fun e => e.1 = other).map (·.2)
      = if other = key then some raw else (es.find? fun e => e.1 = other).map (·.2) := by
  induction es with
  | nil =>
    by_cases h : other = key
    · simp [putEntry, h]
    · have hkey : ¬ key = other := Ne.symm h
      simp [putEntry, h, hkey]
  | cons e es ih =>
    rw [putEntry]
    split
    · by_cases h : other = key
      · simp [h]
      · have hkey : ¬ key = other := Ne.symm h
        simp [h, List.find?_cons, hkey]
    · split
      · rename_i heq
        by_cases h : other = key
        · simp [h]
        · have hkey : ¬ key = other := Ne.symm h
          have he : ¬ e.1 = other := heq ▸ hkey
          simp [h, hkey, he]
      · rename_i hne
        by_cases he : e.1 = other
        · have hother : ¬ other = key := fun h => hne (by rw [he, h])
          simp [he, hother]
        · rw [List.find?_cons_of_neg (by simpa using he), ih,
            List.find?_cons_of_neg (by simpa using he)]

/-- After a write there is the new text under its key, and under every other what
there was. -/
theorem read_put (s : Store) (key raw other : String) :
    (s.put key raw).read other = if other = key then some raw else s.read other :=
  find?_putEntry key raw other s.entries

theorem putEntry_eq_self {key raw : String} {es : List (String × String)}
    (hsorted : es.Pairwise fun a b => a.1 < b.1)
    (h : (es.find? fun e => e.1 = key).map (·.2) = some raw) : putEntry key raw es = es := by
  induction es with
  | nil => simp at h
  | cons e es ih =>
    obtain ⟨he, hes⟩ := List.pairwise_cons.1 hsorted
    by_cases heq : e.1 = key
    · simp only [heq, List.find?_cons, decide_true, Option.map_some, Option.some.injEq] at h
      rw [putEntry, if_neg (by simp [heq]), if_pos heq.symm, ← h, ← heq]
    · rw [List.find?_cons_of_neg (by simpa using heq)] at h
      obtain ⟨found, hfound, _⟩ := Option.map_eq_some_iff.1 h
      have hlt := he found (List.mem_of_find?_eq_some hfound)
      have hkey : found.1 = key := by simpa using List.find?_some hfound
      rw [hkey] at hlt
      rw [putEntry, if_neg (String.lt_asymm hlt), if_neg (Ne.symm heq), ih hes h]

/-- Putting the text that is there changes nothing. -/
theorem put_eq_self {s : Store} {key raw : String} (h : s.read key = some raw) :
    s.put key raw = s := by
  rw [put, Store.mk.injEq]
  exact putEntry_eq_self s.sorted h

theorem write?_eq_none_iff {s : Store} {key raw : String} :
    s.write? key raw = none ↔ isWriteOnce key = true ∧ (s.read key).isSome = true := by
  unfold write?
  split <;> simp_all

theorem write?_eq_some_iff {s next : Store} {key raw : String} :
    s.write? key raw = some next ↔
      ¬ (isWriteOnce key = true ∧ (s.read key).isSome = true) ∧ next = s.put key raw := by
  unfold write?
  split
  · simp_all
  · rename_i h
    rw [Bool.and_eq_true] at h
    rw [Option.some.injEq]
    exact ⟨fun e => ⟨h, e.symm⟩, fun e => e.2.symm⟩

end Store

end PropSchema
