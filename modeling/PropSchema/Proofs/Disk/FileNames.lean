/-
PropSchema.Proofs.Disk.FileNames — a path that leads to a file ends in its name.

Paths may end in what names nothing: a slash, a dot, or two dots. Each of these leads to a
directory, if it leads anywhere, since a path can be followed through directories only, and so
every place above one that was reached is a directory. A path at which a file can be read thus
ends in a name.

§1 Reaching — the places above one that a path leads to.
§2 Names    — `Path.exists_fileName?_of_read`.
-/
import PropSchema.Proofs.Disk.Places

namespace PropSchema

/-! ## §1 Reaching -/

namespace FileTree

/-- Whether every place above a place is a directory. -/
def Reaches (t : FileTree) (here : Place) : Prop :=
  ∀ above name, above ++ [name] <+: here → t.node? above = some .directory

theorem reaches_top (t : FileTree) : t.Reaches [] := by
  intro above name h
  simp at h

/-- One name further is reached from a directory. -/
theorem Reaches.down {t : FileTree} {here : Place} (h : t.Reaches here)
    (hdirectory : t.node? here = some .directory) (part : String) : t.Reaches (here ++ [part]) := by
  intro above name habove
  rcases List.prefix_concat_iff.1 habove with heq | hbefore
  · rwa [(List.append_inj' heq rfl).1]
  · exact h above name hbefore

theorem Reaches.up {t : FileTree} {here : Place} (h : t.Reaches here) : t.Reaches here.dropLast :=
  fun above name habove => h above name (habove.trans here.dropLast_prefix)

/-- The place above is a directory, and so is the top. -/
theorem Reaches.node?_dropLast {t : FileTree} {here : Place} (h : t.Reaches here) :
    t.node? here.dropLast = some .directory := by
  rcases List.eq_nil_or_concat here with rfl | ⟨above, name, rfl⟩
  · rfl
  · rw [List.concat_eq_append, List.dropLast_concat]
    exact h above name (by simp)

/-- What leads to anything but a directory ends in a name. -/
theorem name_of_walk {t : FileTree} {here place : Place} (hhere : t.Reaches here)
    {parts : List String} {last : String} (h : t.walk here (parts ++ [last]) = .ok place)
    (hplace : t.node? place ≠ some .directory) : ¬ (Path.isVoid last ∨ last = "..") := by
  induction parts generalizing here with
  | nil =>
    have hdirectory := directory_of_walk_cons h
    rw [List.nil_append, walk_cons_of_directory _ _ hdirectory] at h
    rintro (hvoid | rfl)
    · rw [if_pos hvoid] at h
      exact hplace (Except.ok.inj h ▸ hdirectory)
    · rw [if_neg (by decide), if_pos rfl] at h
      exact hplace (Except.ok.inj h ▸ hhere.node?_dropLast)
  | cons part parts ih =>
    have hdirectory := directory_of_walk_cons h
    rw [List.cons_append, walk_cons_of_directory _ _ hdirectory] at h
    split at h
    · exact ih hhere h
    · split at h
      · exact ih hhere.up h
      · split at h
        · cases h
        · exact ih (hhere.down hdirectory part) h

/-! ## §2 Names -/

/-- What is read is where the path can be followed to. -/
theorem exists_walk_of_read {t : FileTree} {path : String} {content : ByteArray}
    (h : t.read path = .ok content) :
    ∃ place, t.walk [] (Text.pieces '/' path) = .ok place ∧
      t.node? place = some (.file content) := by
  rw [read] at h
  cases hresolve : t.resolve path with
  | error fault => rw [hresolve] at h; cases h
  | ok place =>
    rw [hresolve] at h
    have hwalk : t.walk [] (Text.pieces '/' path) = .ok place := by
      rw [resolve] at hresolve
      split at hresolve
      · cases hresolve
      · split at hresolve
        · cases hresolve
        · exact hresolve
    refine ⟨place, hwalk, ?_⟩
    cases hnode : t.node? place with
    | none => simp [hnode] at h
    | some node =>
      cases node with
      | directory => simp [hnode] at h
      | file held => simpa [hnode] using h

end FileTree

/-- Where a file can be read, the path has a name for it. -/
theorem Path.exists_fileName?_of_read {t : FileTree} {path : String} {content : ByteArray}
    (h : t.read path = .ok content) : ∃ name, fileName? path = some name := by
  obtain ⟨place, hwalk, hfile⟩ := FileTree.exists_walk_of_read h
  have hpieces : Text.pieces '/' path ≠ [] := by
    simp [Text.pieces, Text.split_ne_nil]
  obtain ⟨parts, last, hparts⟩ := (List.eq_nil_or_concat _).resolve_left hpieces
  rw [List.concat_eq_append] at hparts
  rw [hparts] at hwalk
  have hname := FileTree.name_of_walk t.reaches_top hwalk (by simp [hfile])
  have hends : dropVoid (partsFromEnd path) = last :: parts.reverse := by
    rw [partsFromEnd, hparts, List.reverse_append, List.reverse_singleton, List.singleton_append]
    cases parts.reverse with
    | nil => rfl
    | cons next above => rw [dropVoid, if_neg (not_or.1 hname).1]
  exact ⟨last, by rw [fileName?, hends]; exact if_neg hname⟩

end PropSchema
