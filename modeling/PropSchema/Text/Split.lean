/-
PropSchema.Text.Split — cutting a text at a separator and joining pieces with
one.

Lists in stored values are cut at `,`, enum symbols at `|`, module paths at
`.` and file paths at `/`, all by the same rule: a text with `n` separators
has `n + 1` pieces, so that the empty text is one empty piece. `join_split`
says cutting loses nothing, `split_join` that pieces without the separator
come back as they were.
-/

namespace PropSchema.Text

/-- The pieces of a text between the occurrences of `sep`, in order. -/
def split (sep : Char) : List Char → List (List Char)
  | [] => [[]]
  | c :: cs =>
    if c = sep then [] :: split sep cs
    else
      match split sep cs with
      | [] => [[c]]
      | piece :: pieces => (c :: piece) :: pieces

/-- The pieces one after the other, with `sep` between consecutive ones. -/
def join (sep : Char) : List (List Char) → List Char
  | [] => []
  | [piece] => piece
  | piece :: pieces => piece ++ sep :: join sep pieces

/-- `split` on strings. -/
def pieces (sep : Char) (s : String) : List String :=
  (split sep s.toList).map String.ofList

/-- `join` on strings. -/
def joined (sep : Char) (pieces : List String) : String :=
  String.ofList (join sep (pieces.map String.toList))

/-! ## Laws -/

theorem split_ne_nil (sep : Char) (cs : List Char) : split sep cs ≠ [] := by
  cases cs with
  | nil => simp [split]
  | cons c cs =>
    rw [split]
    split
    · simp
    · split <;> simp

theorem split_cons_sep (sep : Char) (cs : List Char) :
    split sep (sep :: cs) = [] :: split sep cs := by
  simp [split]

theorem split_cons_of_ne {sep c : Char} (h : c ≠ sep) (cs : List Char) :
    ∃ piece pieces, split sep cs = piece :: pieces ∧
      split sep (c :: cs) = (c :: piece) :: pieces := by
  cases hs : split sep cs with
  | nil => exact absurd hs (split_ne_nil sep cs)
  | cons piece pieces => exact ⟨piece, pieces, rfl, by simp [split, h, hs]⟩

theorem join_cons_of_ne_nil (sep : Char) (piece : List Char) {pieces : List (List Char)}
    (h : pieces ≠ []) : join sep (piece :: pieces) = piece ++ sep :: join sep pieces := by
  cases pieces with
  | nil => exact absurd rfl h
  | cons p ps => rw [join]; exact h

/-- Joining the pieces of a text gives the text back. -/
theorem join_split (sep : Char) (cs : List Char) : join sep (split sep cs) = cs := by
  induction cs with
  | nil => rfl
  | cons c cs ih =>
    by_cases h : c = sep
    · subst h
      rw [split_cons_sep, join_cons_of_ne_nil _ _ (split_ne_nil c cs), ih]
      rfl
    · obtain ⟨piece, pieces, hs, hc⟩ := split_cons_of_ne h cs
      rw [hc]
      rw [hs] at ih
      cases pieces with
      | nil =>
        simp only [join] at ih ⊢
        rw [ih]
      | cons p ps =>
        rw [join_cons_of_ne_nil _ _ (by simp)] at ih ⊢
        rw [List.cons_append, ih]

theorem split_of_not_mem {sep : Char} {cs : List Char} (h : sep ∉ cs) : split sep cs = [cs] := by
  induction cs with
  | nil => rfl
  | cons c cs ih =>
    simp only [List.mem_cons, not_or] at h
    have hc : c ≠ sep := fun e => h.1 e.symm
    simp [split, hc, ih h.2]

theorem split_append_sep {sep : Char} {piece : List Char} (h : sep ∉ piece) (cs : List Char) :
    split sep (piece ++ sep :: cs) = piece :: split sep cs := by
  induction piece with
  | nil => simp [split]
  | cons c piece ih =>
    simp only [List.mem_cons, not_or] at h
    have hc : c ≠ sep := fun e => h.1 e.symm
    rw [List.cons_append, split, if_neg hc, ih h.2]

/-- A text is cut at each of its separators by itself. -/
theorem split_append_cons (sep : Char) (cs ds : List Char) :
    split sep (cs ++ sep :: ds) = split sep cs ++ split sep ds := by
  induction cs with
  | nil => simp [split]
  | cons c cs ih =>
    by_cases h : c = sep
    · subst h
      rw [List.cons_append, split_cons_sep, split_cons_sep, ih, List.cons_append]
    · obtain ⟨piece, pieces, hs, hc⟩ := split_cons_of_ne h cs
      rw [hc, List.cons_append, split, if_neg h, ih, hs]
      rfl

/-- A text with `n` separators has `n + 1` pieces. -/
theorem length_split (sep : Char) (cs : List Char) :
    (split sep cs).length = cs.count sep + 1 := by
  induction cs with
  | nil => rfl
  | cons c cs ih =>
    by_cases h : c = sep
    · rw [h, split_cons_sep, List.length_cons, ih, List.count_cons_self]
    · obtain ⟨piece, pieces, hcs, hcons⟩ := split_cons_of_ne h cs
      rw [hcons, List.count_cons_of_ne h, ← ih, hcs]
      rfl

/-- Joins are joined by one more separator. -/
theorem join_append (sep : Char) {ps qs : List (List Char)} (hps : ps ≠ []) (hqs : qs ≠ []) :
    join sep (ps ++ qs) = join sep ps ++ sep :: join sep qs := by
  induction ps with
  | nil => exact absurd rfl hps
  | cons p ps ih =>
    cases ps with
    | nil => exact join_cons_of_ne_nil sep p hqs
    | cons p' ps =>
      rw [List.cons_append, join_cons_of_ne_nil sep p (by simp), ih (by simp),
        join_cons_of_ne_nil sep p (by simp)]
      simp

/-- Pieces without the separator come back from their join as they were. -/
theorem split_join {sep : Char} {pieces : List (List Char)} (hne : pieces ≠ [])
    (h : ∀ piece ∈ pieces, sep ∉ piece) : split sep (join sep pieces) = pieces := by
  induction pieces with
  | nil => exact absurd rfl hne
  | cons piece rest ih =>
    cases rest with
    | nil =>
      simp only [join]
      exact split_of_not_mem (h piece (by simp))
    | cons p ps =>
      rw [join_cons_of_ne_nil _ _ (by simp), split_append_sep (h piece (by simp)),
        ih (by simp) (fun q hq => h q (by simp [hq]))]

/-- No piece contains the separator. -/
theorem not_mem_of_mem_split {sep : Char} {cs piece : List Char} (h : piece ∈ split sep cs) :
    sep ∉ piece := by
  induction cs generalizing piece with
  | nil =>
    simp only [split, List.mem_singleton] at h
    simp [h]
  | cons c cs ih =>
    by_cases hc : c = sep
    · subst hc
      rw [split_cons_sep, List.mem_cons] at h
      rcases h with rfl | h
      · simp
      · exact ih h
    · obtain ⟨p, ps, hs, hcons⟩ := split_cons_of_ne hc cs
      rw [hcons, List.mem_cons] at h
      rcases h with rfl | h
      · simp only [List.mem_cons, not_or]
        exact ⟨fun e => hc e.symm, ih (by simp [hs])⟩
      · exact ih (by simp [hs, h])

/-- Cutting a text and joining the pieces again. -/
theorem joined_pieces (sep : Char) (s : String) : joined sep (pieces sep s) = s := by
  rw [joined, pieces, List.map_map]
  simp [Function.comp_def, join_split]

/-- Texts without the separator are cut out of their join again. -/
theorem pieces_joined {sep : Char} {texts : List String} (hne : texts ≠ [])
    (h : ∀ text ∈ texts, sep ∉ text.toList) : pieces sep (joined sep texts) = texts := by
  rw [pieces, joined, String.toList_ofList, split_join (by simpa using hne) (by simpa using h),
    List.map_map]
  simp [Function.comp_def]

theorem not_mem_of_mem_pieces {sep : Char} {s piece : String} (h : piece ∈ pieces sep s) :
    sep ∉ piece.toList := by
  obtain ⟨cs, hcs, rfl⟩ := List.mem_map.1 h
  rw [String.toList_ofList]
  exact not_mem_of_mem_split hcs

theorem pieces_append (sep : Char) (a b : String) :
    pieces sep (a ++ String.singleton sep ++ b) = pieces sep a ++ pieces sep b := by
  simp [pieces, split_append_cons]

theorem pieces_of_not_mem {sep : Char} {s : String} (h : sep ∉ s.toList) :
    pieces sep s = [s] := by
  rw [pieces, split_of_not_mem h, List.map_singleton, String.ofList_toList]

theorem length_pieces (sep : Char) (s : String) :
    (pieces sep s).length = s.toList.count sep + 1 := by
  rw [pieces, List.length_map, length_split]

theorem joined_append (sep : Char) {ss ts : List String} (hss : ss ≠ []) (hts : ts ≠ []) :
    joined sep (ss ++ ts) = joined sep ss ++ String.singleton sep ++ joined sep ts := by
  rw [← String.toList_inj, joined, List.map_append,
    join_append sep (by simpa using hss) (by simpa using hts)]
  simp [joined]

end PropSchema.Text
