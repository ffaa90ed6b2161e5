/-
PropSchema.Proofs.Disk.Frame — all that writing several files may touch.

`Disk.writeAll` may end at any of its operations. Whatever the point, what it has done
to the tree is confined to two sorts of places: directories have come where there was
nothing, at places that the directories of the outputs are reached through, and at the
targets there may be anything but a directory that was not there. The staged files are
no exception, since all that are left are removed on every way out.

Once the directories are made, one statement carries the argument, `Pending`: the tree is
as it was then but for the targets and the files that are staged at the moment, where it
had nothing. Each operation keeps that, with one file more or one less, and each way out
ends with none.

§1 Pending — what one operation keeps.
§2 Phases  — what discarding, staging and renaming keep, by induction.
§3 Writing — `confined_writeAll`.
-/
import PropSchema.Proofs.Disk.Directories

namespace PropSchema

namespace FileTree

/-! ## §1 Pending -/

/-- Whether a tree is another one but for the targets and for files that are staged where
that one has nothing. -/
structure Pending (target : Place → Prop) (t u : FileTree) (files : List Disk.Staged) : Prop where
  directories : t.SameDirectories u
  nodes : ∀ place, ¬ target place → (∀ file ∈ files, place ≠ Path.place file.path) →
    u.node? place = t.node? place
  temporary : ∀ file ∈ files, IsTemporary (Path.place file.path)
  resolves : ∀ file ∈ files, t.resolve file.path = .ok (Path.place file.path)
  free : ∀ file ∈ files, t.held file.path = none

variable {target : Place → Prop} {t u v : FileTree} {file : Disk.Staged}
  {files : List Disk.Staged}

theorem pending_nil (target : Place → Prop) (t : FileTree) : t.Pending target t [] :=
  ⟨.refl t, fun _ _ _ => rfl, by simp, by simp, by simp⟩

theorem Pending.reverse (h : Pending target t u files) : Pending target t u files.reverse where
  directories := h.directories
  nodes place hplace hfiles :=
    h.nodes place hplace fun file hfile => hfiles file (List.mem_reverse.2 hfile)
  temporary file hfile := h.temporary file (List.mem_reverse.1 hfile)
  resolves file hfile := h.resolves file (List.mem_reverse.1 hfile)
  free file hfile := h.free file (List.mem_reverse.1 hfile)

/-- Staging leaves one file more. -/
theorem Pending.stage (h : Pending target t u files)
    (htarget : ∀ place, target place → ¬ IsTemporary place) {directory text name : String}
    (hstaged : u.StagedAs directory text name v) (path : String) :
    Pending target t v (⟨Path.join directory name, path⟩ :: files) := by
  have hnode := hstaged.tree ▸ node?_insert_of_ne_nil (ne_nil_of_none hstaged.free)
    (.file text.toUTF8)
  have hsame := sameDirectories_of_node? hstaged.free hnode
  have hfree : t.held (Path.join directory name) = none := by
    by_cases hfile : ∃ file ∈ files, Path.place (Path.join directory name) = Path.place file.path
    · obtain ⟨file, hmem, heq⟩ := hfile
      rw [held, heq]
      exact h.free file hmem
    · -- No target has a temporary name, so the place is as it was from the start.
      have hplace := fun htemporary => htarget _ htemporary hstaged.isTemporary
      have heq := h.nodes _ hplace fun file hmem heq => hfile ⟨file, hmem, heq⟩
      rw [held, ← heq]
      exact hstaged.free
  constructor
  case directories => exact h.directories.trans hsame
  case nodes =>
    intro place hplace hfiles
    rw [List.forall_mem_cons] at hfiles
    rw [hnode, if_neg hfiles.1]
    exact h.nodes place hplace hfiles.2
  case temporary => exact List.forall_mem_cons.2 ⟨hstaged.isTemporary, h.temporary⟩
  case resolves =>
    exact List.forall_mem_cons.2 ⟨h.directories.symm.resolve hstaged.resolves, h.resolves⟩
  case free => exact List.forall_mem_cons.2 ⟨hfree, h.free⟩

/-- What keeps the directories and leaves nothing in place of a staged file, with nothing
else changed but targets, leaves one staged file less. -/
theorem Pending.tail (h : Pending target t u (file :: files)) (hsame : u.SameDirectories v)
    (hgone : ¬ target (Path.place file.path) → v.held file.path = none)
    (hnodes : ∀ place, ¬ target place → place ≠ Path.place file.path →
      v.node? place = u.node? place) :
    Pending target t v files := by
  constructor
  case directories => exact h.directories.trans hsame
  case nodes =>
    intro place hplace hfiles
    by_cases heq : place = Path.place file.path
    · subst heq
      exact (hgone hplace).trans (h.free file List.mem_cons_self).symm
    · rw [hnodes place hplace heq]
      exact h.nodes place hplace (List.forall_mem_cons.2 ⟨heq, hfiles⟩)
  case temporary => exact (List.forall_mem_cons.1 h.temporary).2
  case resolves => exact (List.forall_mem_cons.1 h.resolves).2
  case free => exact (List.forall_mem_cons.1 h.free).2

/-- Removing a staged file is one way to that. -/
theorem Pending.remove (h : Pending target t u (file :: files)) :
    Pending target t (u.remove file.path) files := by
  refine h.tail (sameDirectories_remove u file.path) (fun _ => held_remove ?_) fun place _ hne =>
    node?_remove_of_ne hne
  have hdirectory : t.held file.path ≠ some .directory := by
    rw [h.free file List.mem_cons_self]
    simp
  exact accepts_iff.2 ⟨h.directories.resolve (h.resolves file List.mem_cons_self),
    fun heq => hdirectory ((h.directories _).2 heq)⟩

/-- Renaming it to its target is the other. -/
theorem Pending.rename (h : Pending target t u (file :: files))
    (htarget : target (Path.place file.target)) (hrename : u.rename file.path file.target = .ok v) :
    Pending target t v files := by
  obtain ⟨_, _, hnode⟩ := of_rename_ok hrename
  have hne (place : Place) (hplace : ¬ target place) : place ≠ Path.place file.target :=
    fun heq => hplace (heq ▸ htarget)
  refine h.tail (sameDirectories_rename hrename) (fun hplace => ?_) fun place hplace hother => ?_
  · rw [held, hnode, if_neg (hne _ hplace), if_pos rfl]
  · rw [hnode, if_neg (hne _ hplace), if_neg hother]

/-- What is at a target may be removed at any time. -/
theorem Pending.removeTarget (h : Pending target t u files) {path : String}
    (hpath : target (Path.place path)) : Pending target t (u.remove path) files where
  directories := h.directories.trans (sameDirectories_remove u path)
  nodes place hplace hfiles := by
    have hne : place ≠ Path.place path := fun heq => hplace (heq ▸ hpath)
    rw [node?_remove_of_ne hne, h.nodes place hplace hfiles]
  temporary := h.temporary
  resolves := h.resolves
  free := h.free

/-! ## §2 Phases -/

/-- Discarding leaves no staged file. -/
theorem Pending.discard (h : Pending target t u files) {result : Unit}
    (hrun : (Disk.discard files : OnFailingTree Unit) u result v) : Pending target t v [] := by
  induction files generalizing u with
  | nil =>
    obtain ⟨_, rfl⟩ := hrun
    exact h
  | cons file files ih =>
    obtain ⟨_, w, hremove, hrest⟩ := hrun
    rcases hremove with rfl | ⟨hnot, _⟩
    · exact ih h.remove hrest
    · exact absurd (h.temporary file List.mem_cons_self) hnot

theorem Pending.removeAll (h : Pending target t u files) {paths : List String}
    (hpaths : ∀ path ∈ paths, target (Path.place path)) {result : Unit}
    (hrun : (Disk.removeAll paths : OnFailingTree Unit) u result v) :
    Pending target t v files := by
  induction paths generalizing u with
  | nil =>
    obtain ⟨_, rfl⟩ := hrun
    exact h
  | cons path paths ih =>
    rw [List.forall_mem_cons] at hpaths
    obtain ⟨_, w, hremove, hrest⟩ := hrun
    rcases hremove with rfl | ⟨_, rfl⟩
    · exact ih (h.removeTarget hpaths.1) hpaths.2 hrest
    · exact ih h hpaths.2 hrest

/-- Staging leaves the files that it reports, and none if it fails. -/
theorem Pending.stageAll (h : Pending target t u files)
    (htarget : ∀ place, target place → ¬ IsTemporary place) (outputs : List Disk.Output)
    {result : Except LocatedFault (List Disk.Staged)}
    (hrun : (Disk.stageAll files outputs :
      OnFailingTree (Except LocatedFault (List Disk.Staged))) u result v) :
    (∃ e, result = .error e ∧ Pending target t v []) ∨
      ∃ staged, result = .ok staged ∧ Pending target t v staged ∧
        staged.map (·.target) = files.reverse.map (·.target) ++ outputs.map (·.path) := by
  induction outputs generalizing u files with
  | nil =>
    obtain ⟨rfl, rfl⟩ := hrun
    exact .inr ⟨_, rfl, h.reverse, by simp⟩
  | cons output outputs ih =>
    obtain ⟨path, w, hstage, hrest⟩ := hrun
    rcases hstage with ⟨name, rfl, hstaged⟩ | ⟨⟨fault, rfl⟩, rfl⟩
    · rcases ih (h.stage htarget hstaged output.path) hrest with herror | ⟨staged, hok⟩
      · exact .inl herror
      · exact .inr ⟨staged, by simpa using hok⟩
    · obtain ⟨_, w', hdiscard, rfl, rfl⟩ := hrest
      exact .inl ⟨_, rfl, h.discard hdiscard⟩

/-- Renaming leaves no staged file, whether all could be renamed or not. -/
theorem Pending.commitAll (h : Pending target t u files)
    (hfiles : ∀ file ∈ files, target (Path.place file.target)) {done : List String}
    (hdone : ∀ path ∈ done, target (Path.place path)) {result : Except LocatedFault Unit}
    (hrun : (Disk.commitAll done files : OnFailingTree (Except LocatedFault Unit)) u result v) :
    Pending target t v [] := by
  induction files generalizing u done with
  | nil =>
    obtain ⟨_, rfl⟩ := hrun
    exact h
  | cons file files ih =>
    obtain ⟨renamed, w, hrename, hrest⟩ := hrun
    rcases hrename with ⟨rfl, hok⟩ | ⟨⟨fault, rfl⟩, rfl⟩
    · rw [List.forall_mem_cons] at hfiles
      refine ih (h.rename hfiles.1 hok) hfiles.2 ?_ hrest
      rw [List.forall_mem_append, List.forall_mem_singleton]
      exact ⟨hdone, hfiles.1⟩
    · -- The file that cannot be renamed is still staged, as are those behind it.
      obtain ⟨_, w', hremove, _, w'', hdiscard, _, rfl⟩ := hrest
      exact (h.removeAll hdone hremove).discard hdiscard

/-! ## §3 Writing -/

/-- Whether what has become of a tree is confined to files at certain places, and to
directories made at others where there was nothing. -/
structure Confined (target made : Place → Prop) (t u : FileTree) : Prop where
  files : ∀ place, ¬ target place → ∀ content,
    u.node? place = some (.file content) ↔ t.node? place = some (.file content)
  kept : ∀ place, t.node? place = some .directory → u.node? place = some .directory
  made : ∀ place, u.node? place = some .directory →
    t.node? place = some .directory ∨ t.node? place = none ∧ made place

theorem Confined.refl (target made : Place → Prop) (t : FileTree) : t.Confined target made t :=
  ⟨fun _ _ _ => .rfl, fun _ h => h, fun _ h => .inl h⟩

/-- A file that may not be written reads as before. -/
theorem Confined.read_eq {made : Place → Prop} (h : t.Confined target made u) {path : String}
    {content : ByteArray} (hread : t.read path = .ok content)
    (hplace : ¬ target (Path.place path)) : u.read path = t.read path := by
  rw [hread]
  unfold read at hread ⊢
  split at hread
  · cases hread
  · rename_i place hresolve
    obtain rfl := resolve_eq_place hresolve
    rw [resolve_mono h.kept hresolve]
    split at hread
    · cases hread
    · cases hread
    · rename_i held hheld
      obtain rfl := Except.ok.inj hread
      simp only [(h.files _ hplace held).2 hheld]

/-- Directories that are made, and then targets that are written. -/
theorem confined_of_pending {made : Place → Prop} (hgrows : t.GrowsWithin made u)
    (hpending : u.Pending target v []) : t.Confined target made v := by
  constructor
  case files =>
    intro place hplace content
    rw [hpending.nodes place hplace (by simp)]
    rcases hgrows.grows place with hsame | ⟨hnone, hmade⟩
    · rw [hsame]
    · simp [hnone, hmade]
  case kept =>
    intro place hplace
    refine (hpending.directories place).1 ?_
    rcases hgrows.grows place with hsame | ⟨hnone, _⟩
    · rw [hsame, hplace]
    · rw [hnone] at hplace
      cases hplace
  case made =>
    intro place hplace
    have hdirectory := (hpending.directories place).2 hplace
    rcases hgrows.grows place with hsame | ⟨hnone, _⟩
    · exact .inl (hsame ▸ hdirectory)
    · by_cases hmade : made place
      · exact .inr ⟨hnone, hmade⟩
      · rw [hgrows.within place hmade, hnone] at hdirectory
        cases hdirectory

/-- Writing several files is confined to their targets, and to directories that the
targets' directories are reached through, however it ends. -/
theorem confined_writeAll {made : Place → Prop} {outputs : List Disk.Output}
    (htarget : ∀ place, target place → ¬ IsTemporary place)
    (houtputs : ∀ output ∈ outputs, target (Path.place output.path))
    (hmade : ∀ output ∈ outputs, ∀ place, Path.Passes (Path.parent output.path) place →
      made place)
    {result : Except LocatedFault Unit}
    (hrun : (Disk.writeAll outputs : OnFailingTree (Except LocatedFault Unit)) t result v) :
    t.Confined target made v := by
  obtain ⟨prepared, u, hprepare, hrest⟩ := hrun
  have hgrows := OnFailingTree.growsWithin_prepare hmade t prepared u hprepare
  have hnone := pending_nil target u
  refine confined_of_pending hgrows ?_
  cases prepared with
  | error e =>
    obtain ⟨_, rfl⟩ := hrest
    exact hnone
  | ok =>
    obtain ⟨result', w, hstage, hcommit⟩ := hrest
    rcases hnone.stageAll htarget outputs hstage with
      ⟨e, rfl, hpending⟩ | ⟨staged, rfl, hpending, htargets⟩
    · obtain ⟨_, rfl⟩ := hcommit
      exact hpending
    · refine hpending.commitAll (fun file hfile => ?_) (by simp) hcommit
      have hmem : file.target ∈ outputs.map (·.path) := by
        rw [List.reverse_nil, List.map_nil, List.nil_append] at htargets
        exact htargets ▸ List.mem_map_of_mem hfile
      obtain ⟨output, houtput, heq⟩ := List.mem_map.1 hmem
      exact heq ▸ houtputs output houtput

end FileTree

end PropSchema
