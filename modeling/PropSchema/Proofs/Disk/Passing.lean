/-
PropSchema.Proofs.Disk.Passing — the places that a path passes.

The directories above a path are those that its beginnings lead to. Without `..` in it
these are just the places above the one that it names, and that place itself; with `..`
it may pass others, and they have to be there for the path to be followed. The parent
of a path, and all its ancestors, name places that it passes.

§1 Parts   — the void parts at the end of a path, and its last name.
§2 Passing — `Path.Passes`, and `passes_iff_isPrefix`.
§3 Parents — `passes_of_mem_ancestors`, `passes_of_parent_join`.
-/
import PropSchema.Proofs.Disk.Places

namespace PropSchema

namespace Path

/-! ## §1 Parts -/

/-- The parts that are dropped are void. -/
theorem exists_voids_append_dropVoid (parts : List String) :
    ∃ voids, (∀ part ∈ voids, isVoid part = true) ∧ parts = voids ++ dropVoid parts := by
  fun_induction dropVoid parts with
  | case1 first next parts hvoid ih =>
    obtain ⟨voids, hvoids, heq⟩ := ih
    refine ⟨first :: voids, List.forall_mem_cons.2 ⟨hvoid, hvoids⟩, ?_⟩
    rw [List.cons_append, ← heq]
  | case2 first next parts hvoid => exact ⟨[], by simp, rfl⟩
  | case3 parts hparts => exact ⟨[], by simp, rfl⟩

theorem dropVoid_suffix (parts : List String) : dropVoid parts <:+ parts := by
  obtain ⟨voids, _, heq⟩ := exists_voids_append_dropVoid parts
  exact ⟨voids, heq.symm⟩

theorem fileName?_eq_some {path name : String} (h : fileName? path = some name) :
    isVoid name = false ∧ name ≠ ".." ∧ ∃ above, dropVoid (partsFromEnd path) = name :: above := by
  unfold fileName? at h
  split at h
  · cases h
  · rename_i part above hparts
    split at h
    · cases h
    · rename_i hname
      obtain rfl := Option.some.inj h
      rw [not_or, Bool.not_eq_true] at hname
      exact ⟨hname.1, hname.2, above, hparts⟩

/-- The name of a file is one of the parts of its path. -/
theorem slash_not_mem_of_fileName? {path name : String} (h : fileName? path = some name) :
    '/' ∉ name.toList := by
  obtain ⟨_, _, above, hparts⟩ := fileName?_eq_some h
  have hmem : name ∈ partsFromEnd path :=
    (dropVoid_suffix _).subset (hparts ▸ List.mem_cons_self)
  exact Text.not_mem_of_mem_pieces (List.mem_reverse.1 hmem)

/-- A path with a name for a file leads to a place of that name. -/
theorem place_of_fileName? {path name : String} (h : fileName? path = some name) :
    ∃ above, place path = above ++ [name] := by
  obtain ⟨hvoid, hup, above, hparts⟩ := fileName?_eq_some h
  obtain ⟨voids, hvoids, heq⟩ := exists_voids_append_dropVoid (partsFromEnd path)
  have hpieces : Text.pieces '/' path = above.reverse ++ [name] ++ voids.reverse := by
    rw [← List.reverse_reverse (Text.pieces '/' path), ← partsFromEnd, heq, hparts]
    simp
  refine ⟨follow [] above.reverse, ?_⟩
  rw [place, hpieces, follow_append, follow_append, follow_cons_of_name hvoid hup]
  exact follow_of_void fun part hpart => hvoids part (List.mem_reverse.1 hpart)

/-! ## §2 Passing -/

/-- Whether parts that are followed from the top lead past a place, or to it. -/
def LeadsPast (parts : List String) (place : Place) : Prop :=
  ∃ front, front <+: parts ∧ follow [] front = place

/-- Whether a path leads past a place, or to it. -/
def Passes (path : String) (place : Place) : Prop :=
  LeadsPast (Text.pieces '/' path) place

theorem LeadsPast.mono {parts others : List String} {place : Place} (h : LeadsPast parts place)
    (hbegins : parts <+: others) : LeadsPast others place := by
  obtain ⟨front, hfront, hplace⟩ := h
  exact ⟨front, hfront.trans hbegins, hplace⟩

theorem passes_place (path : String) : Passes path (place path) :=
  ⟨_, List.prefix_rfl, rfl⟩

/-- Every path begins at the top. -/
theorem leadsPast_top (parts : List String) : LeadsPast parts [] :=
  ⟨[], List.nil_prefix, rfl⟩

/-- Void parts lead past nothing but the top. -/
theorem eq_top_of_leadsPast_void {parts : List String} {place : Place}
    (h : LeadsPast parts place) (hvoid : ∀ part ∈ parts, isVoid part = true) : place = [] := by
  obtain ⟨front, hfront, rfl⟩ := h
  exact follow_of_void fun part hpart => hvoid part (hfront.subset hpart)

/-- Without `..`, what is followed is every part that says something. -/
theorem follow_of_not_up {here : Place} {parts : List String} (h : ".." ∉ parts) :
    follow here parts = here ++ parts.filter fun part => !isVoid part := by
  induction parts generalizing here with
  | nil => simp [follow]
  | cons part parts ih =>
    rw [List.mem_cons, not_or] at h
    cases hvoid : isVoid part with
    | true =>
      rw [follow_cons_of_void hvoid, ih h.2, List.filter_cons_of_neg (by simp [hvoid])]
    | false =>
      rw [follow_cons_of_name hvoid (Ne.symm h.1), ih h.2,
        List.filter_cons_of_pos (by simp [hvoid])]
      simp

/-- A path without `..` passes the place that it names, and those above. -/
theorem passes_iff_isPrefix {path : String} (h : ".." ∉ Text.pieces '/' path) {place : Place} :
    Passes path place ↔ place <+: Path.place path := by
  rw [Path.place, follow_of_not_up h, List.nil_append, List.prefix_filter_iff]
  constructor
  · rintro ⟨front, hfront, rfl⟩
    exact ⟨front, hfront, follow_of_not_up fun hmem => h (hfront.subset hmem)⟩
  · rintro ⟨front, hfront, rfl⟩
    exact ⟨front, hfront, follow_of_not_up fun hmem => h (hfront.subset hmem)⟩

/-! ## §3 Parents -/

/-- A path made of parts passes what the parts lead past. -/
theorem leadsPast_of_passes_ofPartsFromEnd {parts : List String} {place : Place}
    (hslash : ∀ part ∈ parts, '/' ∉ part.toList) (h : Passes (ofPartsFromEnd parts) place) :
    LeadsPast parts.reverse place := by
  by_cases hroot : Text.joined '/' parts.reverse = "" ∧ parts ≠ []
  · -- All parts are one empty part, and the path made of it is that of the top.
    have hpath : ofPartsFromEnd parts = "/" := if_pos hroot
    rw [hpath] at h
    rw [eq_top_of_leadsPast_void h (by decide)]
    exact leadsPast_top _
  · have hpath : ofPartsFromEnd parts = Text.joined '/' parts.reverse := if_neg hroot
    rw [hpath] at h
    by_cases hparts : parts = []
    · subst hparts
      rw [eq_top_of_leadsPast_void h (by decide)]
      exact leadsPast_top _
    · rwa [Passes, Text.pieces_joined (by simpa using hparts) fun part hpart =>
        hslash part (List.mem_reverse.1 hpart)] at h

/-- The parent of a path passes nothing but what comes before the path's last part. -/
theorem leadsPast_of_passes_parent {path : String} {place : Place}
    (h : Passes (parent path) place) : LeadsPast (Text.pieces '/' path).dropLast place := by
  unfold parent at h
  split at h
  · rename_i last next above hparts
    have hpieces : (last :: next :: above).reverse <+: Text.pieces '/' path := by
      rw [← hparts, ← List.reverse_reverse (Text.pieces '/' path)]
      exact (dropVoid_suffix (partsFromEnd path)).reverse
    have hfront : (next :: above).reverse <+: (Text.pieces '/' path).dropLast := by
      obtain ⟨rest, hrest⟩ := hpieces
      rw [List.reverse_cons, List.append_assoc] at hrest
      rw [← hrest, List.dropLast_append_of_ne_nil (by simp)]
      exact List.prefix_append _ _
    have hsuffix := dropVoid_suffix (next :: above)
    refine (leadsPast_of_passes_ofPartsFromEnd (fun part hpart => ?_) h).mono
      (hsuffix.reverse.trans hfront)
    refine Text.not_mem_of_mem_pieces (hpieces.subset (List.mem_reverse.2 ?_))
    exact List.mem_cons_of_mem last (hsuffix.subset hpart)
  · rw [eq_top_of_leadsPast_void h (by decide)]
    exact leadsPast_top _

/-- What the ancestors of a path name are places that it passes. -/
theorem passes_of_mem_ancestors {path ancestor : String} (h : ancestor ∈ ancestors path) :
    Passes path (place ancestor) := by
  unfold ancestors at h
  generalize (partsFromEnd path).length = bound at h
  induction bound generalizing path with
  | zero => cases h
  | succ bound ih =>
    rw [ancestorsUpTo] at h
    split at h
    · cases h
    · rcases List.mem_cons.1 h with rfl | h
      · exact passes_place ancestor
      · exact (leadsPast_of_passes_parent (ih h)).mono (List.dropLast_prefix _)

/-- The parent of a file in a directory passes what the directory's path passes. -/
theorem passes_of_parent_join {directory name : String} (hslash : '/' ∉ name.toList)
    {place : Place} (h : Passes (parent (join directory name)) place) :
    Passes directory place := by
  obtain ⟨front, voids, hjoin, hdirectory, _⟩ := exists_pieces_join hslash directory
  have hpast := leadsPast_of_passes_parent h
  rw [hjoin, List.dropLast_concat] at hpast
  exact hpast.mono ⟨voids, hdirectory.symm⟩

end Path

end PropSchema
