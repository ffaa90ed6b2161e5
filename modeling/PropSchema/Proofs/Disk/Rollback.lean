/-
PropSchema.Proofs.Disk.Rollback — what a failed writing of several files leaves.

`Disk.writeAll` makes directories, stages every file beside its target, and then
renames one after the other. A failure before the renaming leaves every target
as it was, unless a directory was made in its place. A failed renaming removes
the targets renamed before it, so that these hold nothing afterwards, whatever
they held before; the other targets are as they were. `writeAll_error_iff` puts
that together into the exact condition under which nothing is lost.

§1 Staging  — `Ready`: files that are staged and can be renamed.
§2 Renaming — what a failed renaming leaves, by induction on the files.
§3 Writing  — `writeAll_error_iff`.
-/
import PropSchema.Proofs.Disk.Directories

namespace PropSchema

namespace FileTree

/-! ## §1 Staging -/

/-- Staged files that can be renamed: each is a file of its own that its path leads
to. -/
structure Ready (t : FileTree) (files : List Disk.Staged) : Prop where
  staging : ∀ file ∈ files, IsStaging (Path.place file.path)
  resolves : ∀ file ∈ files, t.resolve file.path = .ok (Path.place file.path)
  holds : ∀ file ∈ files, ∃ content, t.held file.path = some (.file content)
  apart : (files.map fun file => Path.place file.path).Nodup

/-- Whether trees differ in nothing but staged files. -/
structure SameButStaging (t u : FileTree) : Prop where
  directories : t.SameDirectories u
  nodes : ∀ place, ¬ IsStaging place → u.node? place = t.node? place

theorem sameButStaging_stage {t u : FileTree} {directory text path : String}
    (h : t.stage directory text = .ok (path, u)) : t.SameButStaging u := by
  obtain ⟨hstaging, hnone, _, hnode⟩ := stage_ok h
  constructor
  · exact sameDirectories_of_node? hnone hnode
  · intro place hplace
    rw [hnode, if_neg]
    rintro rfl
    exact hplace hstaging

theorem Ready.stage {t u : FileTree} {files : List Disk.Staged} (h : t.Ready files)
    {directory text path : String} (hstage : t.stage directory text = .ok (path, u))
    (target : String) : u.Ready (⟨path, target⟩ :: files) := by
  obtain ⟨hstaging, hnone, hresolve, hnode⟩ := stage_ok hstage
  have hsame := sameButStaging_stage hstage
  have hother : ∀ file ∈ files, Path.place file.path ≠ Path.place path := by
    intro file hfile heq
    obtain ⟨content, hcontent⟩ := h.holds file hfile
    rw [held, heq, ← held, hnone] at hcontent
    cases hcontent
  constructor
  case staging =>
    intro file hfile
    rcases List.mem_cons.1 hfile with rfl | hfile
    · exact hstaging
    · exact h.staging file hfile
  case resolves =>
    intro file hfile
    rcases List.mem_cons.1 hfile with rfl | hfile
    · exact hresolve
    · exact hsame.directories.resolve (h.resolves file hfile)
  case holds =>
    intro file hfile
    rcases List.mem_cons.1 hfile with rfl | hfile
    · exact ⟨_, by rw [held, hnode, if_pos rfl]⟩
    · obtain ⟨content, hcontent⟩ := h.holds file hfile
      exact ⟨content, by rw [held, hnode, if_neg (hother file hfile)]; exact hcontent⟩
  case apart =>
    rw [List.map_cons, List.nodup_cons]
    refine ⟨fun hmem => ?_, h.apart⟩
    obtain ⟨file, hfile, heq⟩ := List.mem_map.1 hmem
    exact hother file hfile heq

theorem ready_nil (t : FileTree) : t.Ready [] :=
  ⟨by simp, by simp, by simp, .nil⟩

theorem Ready.reverse {t : FileTree} {files : List Disk.Staged} (h : t.Ready files) :
    t.Ready files.reverse := by
  constructor
  case staging => exact fun file hfile => h.staging file (List.mem_reverse.1 hfile)
  case resolves => exact fun file hfile => h.resolves file (List.mem_reverse.1 hfile)
  case holds => exact fun file hfile => h.holds file (List.mem_reverse.1 hfile)
  case apart =>
    rw [List.map_reverse]
    exact List.pairwise_reverse.2 (h.apart.imp Ne.symm)

/-- Discarding staged files is no more than that. -/
theorem node?_discard {t : FileTree} {files : List Disk.Staged} {place : Place}
    (h : ∀ file ∈ files, IsStaging (Path.place file.path)) (hplace : ¬ IsStaging place) :
    ((Disk.discard files : OnTree Unit) t).2.node? place = t.node? place := by
  induction files generalizing t with
  | nil => rfl
  | cons file files ih =>
    unfold Disk.discard
    simp only [OnTree.run_bind, OnTree.run_remove]
    rw [ih fun f hf => h f (List.mem_cons_of_mem _ hf)]
    refine node?_remove_of_ne ?_
    rintro rfl
    exact hplace (h file List.mem_cons_self)

theorem run_stageAll_cons_ok {t u : FileTree} {output : Disk.Output} {path : String}
    (h : t.stage (Path.parent output.path) output.text = .ok (path, u))
    (done : List Disk.Staged) (outputs : List Disk.Output) :
    (Disk.stageAll done (output :: outputs) : OnTree (Except LocatedFault (List Disk.Staged))) t =
      (Disk.stageAll (⟨path, output.path⟩ :: done) outputs :
        OnTree (Except LocatedFault (List Disk.Staged))) u := by
  rw [Disk.stageAll]
  simp only [OnTree.run_bind, OnTree.run_stage_ok h]

theorem run_stageAll_cons_error {t : FileTree} {output : Disk.Output} {fault : DiskFault}
    (h : t.stage (Path.parent output.path) output.text = .error fault)
    (done : List Disk.Staged) (outputs : List Disk.Output) :
    (Disk.stageAll done (output :: outputs) : OnTree (Except LocatedFault (List Disk.Staged))) t =
      (.error ⟨Path.parent output.path, fault⟩, ((Disk.discard done : OnTree Unit) t).2) := by
  rw [Disk.stageAll]
  simp only [OnTree.run_bind, OnTree.run_stage_error h]
  rfl

/-- Staging leaves everything else alone. If all files could be staged, they can be
renamed, and their targets are those of the outputs. -/
theorem stageAll_result {t : FileTree} {done : List Disk.Staged} (h : t.Ready done)
    (outputs : List Disk.Output) {result : Except LocatedFault (List Disk.Staged)} {v : FileTree}
    (hrun : (Disk.stageAll done outputs : OnTree (Except LocatedFault (List Disk.Staged))) t =
      (result, v)) :
    (∀ place, ¬ IsStaging place → v.node? place = t.node? place) ∧
      ∀ staged, result = .ok staged → t.SameDirectories v ∧ v.Ready staged ∧
        staged.map (·.target) = done.reverse.map (·.target) ++ outputs.map (·.path) := by
  induction outputs generalizing t done with
  | nil =>
    obtain ⟨rfl, rfl⟩ := Prod.mk.inj hrun
    refine ⟨fun _ _ => rfl, fun staged hstaged => ?_⟩
    obtain rfl := Except.ok.inj hstaged
    exact ⟨.refl t, h.reverse, by simp⟩
  | cons output outputs ih =>
    cases hstage : t.stage (Path.parent output.path) output.text with
    | error fault =>
      rw [run_stageAll_cons_error hstage] at hrun
      obtain ⟨rfl, rfl⟩ := Prod.mk.inj hrun
      refine ⟨fun place hplace => node?_discard h.staging hplace, fun staged hstaged => ?_⟩
      cases hstaged
    | ok staged =>
      obtain ⟨path, u⟩ := staged
      rw [run_stageAll_cons_ok hstage] at hrun
      have hsame := sameButStaging_stage hstage
      obtain ⟨hnodes, hok⟩ := ih (h.stage hstage output.path) hrun
      refine ⟨fun place hplace => (hnodes place hplace).trans (hsame.nodes place hplace), ?_⟩
      intro files hfiles
      obtain ⟨hdirectories, hready, htargets⟩ := hok files hfiles
      exact ⟨hsame.directories.trans hdirectories, hready, by simp [htargets]⟩

/-! ## §2 Renaming -/

theorem run_commitAll_cons_ok {t u : FileTree} {file : Disk.Staged}
    (h : t.rename file.path file.target = .ok u) (done : List String)
    (files : List Disk.Staged) :
    (Disk.commitAll done (file :: files) : OnTree (Except LocatedFault Unit)) t =
      (Disk.commitAll (done ++ [file.target]) files : OnTree (Except LocatedFault Unit)) u := by
  rw [Disk.commitAll]
  simp only [OnTree.run_bind, OnTree.run_rename_ok h]

theorem run_commitAll_cons_error {t : FileTree} {file : Disk.Staged} {fault : DiskFault}
    (h : t.rename file.path file.target = .error fault) (done : List String)
    (files : List Disk.Staged) :
    (Disk.commitAll done (file :: files) : OnTree (Except LocatedFault Unit)) t =
      (.error ⟨file.target, fault⟩, ((Disk.discard (file :: files) : OnTree Unit)
        ((Disk.removeAll done : OnTree Unit) t).2).2) := by
  rw [Disk.commitAll]
  simp only [OnTree.run_bind, OnTree.run_rename_error h]
  rfl

/-- Renaming a staged file keeps the directories, and the other staged files where
they are: what the file held is at its target then, and nothing at its old place. -/
theorem Ready.rename {t : FileTree} {file : Disk.Staged} {files : List Disk.Staged}
    (h : t.Ready (file :: files)) (htarget : ¬ IsStaging (Path.place file.target))
    (haccepts : t.accepts file.target = true) :
    ∃ u, t.rename file.path file.target = .ok u ∧ t.SameDirectories u ∧ u.Ready files ∧
      (∀ f ∈ files, u.held f.path = t.held f.path) ∧
      ∀ place, u.node? place =
        if place = Path.place file.target then t.held file.path
        else if place = Path.place file.path then none else t.node? place := by
  obtain ⟨content, hcontent⟩ := h.holds file List.mem_cons_self
  have hresolve := h.resolves file List.mem_cons_self
  obtain ⟨hnotMem, happart⟩ := List.nodup_cons.1 h.apart
  obtain ⟨u, hu, hnode⟩ := rename_ok hresolve hcontent haccepts
  have hsame := sameDirectories_rename hu
  have hheld : ∀ f ∈ files, u.held f.path = t.held f.path := by
    intro f hf
    have hne : Path.place f.path ≠ Path.place file.target := fun heq =>
      htarget (heq ▸ h.staging f (List.mem_cons_of_mem _ hf))
    have hne' : Path.place f.path ≠ Path.place file.path := fun heq =>
      hnotMem (List.mem_map.2 ⟨f, hf, heq⟩)
    rw [held, hnode, if_neg hne, if_neg hne', held]
  refine ⟨u, hu, hsame, ?_, hheld, ?_⟩
  · constructor
    case staging => exact fun f hf => h.staging f (List.mem_cons_of_mem _ hf)
    case resolves => exact fun f hf => hsame.resolve (h.resolves f (List.mem_cons_of_mem _ hf))
    case holds =>
      intro f hf
      rw [hheld f hf]
      exact h.holds f (List.mem_cons_of_mem _ hf)
    case apart => exact happart
  · rw [hcontent]
    exact hnode

/-- Removing files that can be replaced leaves nothing in their places. -/
theorem node?_removeAll {t : FileTree} {paths : List String}
    (h : ∀ path ∈ paths, t.accepts path = true) (place : Place) :
    ((Disk.removeAll paths : OnTree Unit) t).2.node? place =
      if place ∈ paths.map Path.place then none else t.node? place := by
  induction paths generalizing t with
  | nil => rfl
  | cons path paths ih =>
    unfold Disk.removeAll
    simp only [OnTree.run_bind, OnTree.run_remove]
    have hsame := t.sameDirectories_remove path
    rw [ih fun other hother => hsame.accepts other ▸ h other (List.mem_cons_of_mem _ hother)]
    by_cases hpath : place = Path.place path
    · have hgone : (t.remove path).node? (Path.place path) = none :=
        held_remove (h path List.mem_cons_self)
      simp [hpath, hgone]
    · simp [hpath, node?_remove_of_ne hpath]

/-- A failed renaming leaves nothing at the targets that come before the first one
where renaming fails, and everything else as it was. -/
theorem commitAll_error {t : FileTree} {files : List Disk.Staged} (h : t.Ready files)
    (htargets : ∀ file ∈ files, ¬ IsStaging (Path.place file.target)) {done : List String}
    (hdone : ∀ path ∈ done, t.accepts path = true) {e : LocatedFault} {v : FileTree}
    (hrun : (Disk.commitAll done files : OnTree (Except LocatedFault Unit)) t = (.error e, v))
    {place : Place} (hplace : ¬ IsStaging place) :
    v.node? place =
      if place ∈ (done ++ (files.map (·.target)).takeWhile t.accepts).map Path.place then none
      else t.node? place := by
  induction files generalizing t done with
  | nil => cases (Prod.mk.inj hrun).1
  | cons file files ih =>
    have htarget := htargets file List.mem_cons_self
    cases haccepts : t.accepts file.target with
    | false =>
      obtain ⟨content, hcontent⟩ := h.holds file List.mem_cons_self
      obtain ⟨fault, hfault⟩ :=
        rename_error (h.resolves file List.mem_cons_self) hcontent haccepts
      rw [run_commitAll_cons_error hfault] at hrun
      obtain ⟨_, rfl⟩ := Prod.mk.inj hrun
      rw [node?_discard h.staging hplace, node?_removeAll hdone]
      simp [haccepts]
    | true =>
      obtain ⟨u, hu, hsame, hready, _, hnode⟩ := h.rename htarget haccepts
      rw [run_commitAll_cons_ok hu] at hrun
      have hdone' : ∀ path ∈ done ++ [file.target], u.accepts path = true := by
        intro path hpath
        rw [← hsame.accepts path]
        rcases List.mem_append.1 hpath with hpath | hpath
        · exact hdone path hpath
        · rw [List.mem_singleton.1 hpath]
          exact haccepts
      have haccepts' : u.accepts = t.accepts := funext fun path => (hsame.accepts path).symm
      have hlist : done ++ ((file :: files).map (·.target)).takeWhile t.accepts =
          done ++ [file.target] ++ (files.map (·.target)).takeWhile u.accepts := by
        simp [haccepts, haccepts']
      rw [ih hready (fun f hf => htargets f (List.mem_cons_of_mem _ hf)) hdone' hrun, hlist]
      split
      · rfl
      · rename_i hmem
        have hne : place ≠ Path.place file.target := by
          rintro rfl
          exact hmem (List.mem_map.2 ⟨file.target, by simp, rfl⟩)
        have hne' : place ≠ Path.place file.path := by
          rintro rfl
          exact hplace (h.staging file List.mem_cons_self)
        rw [hnode, if_neg hne, if_neg hne']

/-! ## §3 Writing -/

/-- The tree once the directories of all outputs are made, as far as that goes. -/
def prepared (t : FileTree) (outputs : List Disk.Output) : FileTree :=
  ((Disk.prepare outputs : OnTree (Except LocatedFault Unit)) t).2

/-- Whether renaming begins: all directories can be made, and all files staged. -/
def BeginsRenaming (t : FileTree) (outputs : List Disk.Output) : Prop :=
  ((Disk.prepare outputs : OnTree (Except LocatedFault Unit)) t).1 = .ok () ∧
    ∃ staged, ((Disk.stageAll [] outputs : OnTree (Except LocatedFault (List Disk.Staged)))
      (t.prepared outputs)).1 = .ok staged

/-- The targets that are replaced before one is found that cannot be: they are
all the targets if there is none. -/
def replaced (t : FileTree) (outputs : List Disk.Output) : List String :=
  (outputs.map (·.path)).takeWhile (t.prepared outputs).accepts

/-- Whether a failure leaves every target as it was: no directory was made in place
of one, and those that were replaced held nothing. -/
structure Spares (t : FileTree) (outputs : List Disk.Output) : Prop where
  directories : ∀ output ∈ outputs, (t.prepared outputs).held output.path = t.held output.path
  replaced : t.BeginsRenaming outputs → ∀ path ∈ t.replaced outputs, t.held path = none

/-- What a failed renaming leaves at the targets, once all files are staged. -/
theorem held_of_renaming_error {t w v : FileTree} {outputs : List Disk.Output}
    (hnames : ∀ output ∈ outputs, ¬ IsStaging (Path.place output.path))
    {staged : List Disk.Staged} (hstage : (Disk.stageAll [] outputs :
      OnTree (Except LocatedFault (List Disk.Staged))) (t.prepared outputs) = (.ok staged, w))
    {e : LocatedFault}
    (hrun : (Disk.commitAll [] staged : OnTree (Except LocatedFault Unit)) w = (.error e, v))
    {output : Disk.Output} (houtput : output ∈ outputs) :
    v.held output.path =
      if Path.place output.path ∈ (t.replaced outputs).map Path.place then none
      else (t.prepared outputs).held output.path := by
  obtain ⟨hnodes, hok⟩ := stageAll_result (ready_nil _) outputs hstage
  obtain ⟨hsame, hready, hpaths⟩ := hok staged rfl
  rw [List.reverse_nil, List.map_nil, List.nil_append] at hpaths
  have htargets : ∀ file ∈ staged, ¬ IsStaging (Path.place file.target) := by
    intro file hfile
    have hmem : file.target ∈ outputs.map (·.path) :=
      hpaths ▸ List.mem_map.2 ⟨file, hfile, rfl⟩
    obtain ⟨output, houtput, heq⟩ := List.mem_map.1 hmem
    exact heq ▸ hnames output houtput
  have haccepts : w.accepts = (t.prepared outputs).accepts :=
    funext fun path => (hsame.accepts path).symm
  have hplace := hnames output houtput
  have hnode := commitAll_error hready htargets (by simp) hrun hplace
  rw [List.nil_append, hpaths, haccepts, ← replaced, hnodes _ hplace] at hnode
  exact hnode

/-- What there is at the targets after a failure. -/
theorem writeAll_error {t : FileTree} {outputs : List Disk.Output}
    (hnames : ∀ output ∈ outputs, ¬ IsStaging (Path.place output.path)) {e : LocatedFault}
    {v : FileTree}
    (hrun : (Disk.writeAll outputs : OnTree (Except LocatedFault Unit)) t = (.error e, v)) :
    (¬ t.BeginsRenaming outputs ∧
      ∀ output ∈ outputs, v.held output.path = (t.prepared outputs).held output.path) ∨
    (t.BeginsRenaming outputs ∧ ∀ output ∈ outputs, v.held output.path =
      if Path.place output.path ∈ (t.replaced outputs).map Path.place then none
      else (t.prepared outputs).held output.path) := by
  rw [Disk.writeAll] at hrun
  simp only [OnTree.run_bind] at hrun
  cases hprepare : ((Disk.prepare outputs : OnTree (Except LocatedFault Unit)) t).1 with
  | error fault =>
    rw [hprepare] at hrun
    obtain ⟨_, rfl⟩ := Prod.mk.inj hrun
    refine .inl ⟨fun hbegins => ?_, fun output houtput => rfl⟩
    rw [BeginsRenaming, hprepare] at hbegins
    cases hbegins.1
  | ok u =>
    rw [hprepare] at hrun
    simp only [OnTree.run_bind] at hrun
    rw [← prepared] at hrun
    cases hstage : (Disk.stageAll [] outputs :
        OnTree (Except LocatedFault (List Disk.Staged))) (t.prepared outputs) with
    | mk result w =>
      rw [hstage] at hrun
      cases result with
      | error fault =>
        obtain ⟨_, rfl⟩ := Prod.mk.inj hrun
        have hnodes := (stageAll_result (ready_nil _) outputs hstage).1
        refine .inl ⟨fun hbegins => ?_, fun output houtput => hnodes _ (hnames output houtput)⟩
        obtain ⟨_, staged, hstaged⟩ := hbegins
        rw [hstage] at hstaged
        cases hstaged
      | ok staged =>
        refine .inr ⟨⟨hprepare, staged, by rw [hstage]⟩, fun output houtput => ?_⟩
        exact held_of_renaming_error hnames hstage hrun houtput

/-- A failure to write all outputs leaves every target as it was just if it spares
them. -/
theorem writeAll_error_iff {t : FileTree} {outputs : List Disk.Output}
    (hnames : ∀ output ∈ outputs, ¬ IsStaging (Path.place output.path)) {e : LocatedFault}
    {v : FileTree}
    (hrun : (Disk.writeAll outputs : OnTree (Except LocatedFault Unit)) t = (.error e, v)) :
    (∀ output ∈ outputs, v.held output.path = t.held output.path) ↔ t.Spares outputs := by
  rcases writeAll_error hnames hrun with ⟨hnot, hheld⟩ | ⟨hbegins, hheld⟩
  · constructor
    · intro h
      refine ⟨fun output houtput => ?_, fun hbegins => absurd hbegins hnot⟩
      rw [← hheld output houtput]
      exact h output houtput
    · intro h output houtput
      rw [hheld output houtput]
      exact h.directories output houtput
  · constructor
    · intro h
      have hreplaced : ∀ path ∈ t.replaced outputs, t.held path = none := by
        intro path hpath
        obtain ⟨output, houtput, rfl⟩ := List.mem_map.1 ((List.takeWhile_prefix _).subset hpath)
        rw [← h output houtput, hheld output houtput, if_pos (List.mem_map.2 ⟨_, hpath, rfl⟩)]
      refine ⟨fun output houtput => ?_, fun _ => hreplaced⟩
      by_cases hmem : Path.place output.path ∈ (t.replaced outputs).map Path.place
      · obtain ⟨path, hpath, heq⟩ := List.mem_map.1 hmem
        have haccepts : (t.prepared outputs).accepts path = true :=
          List.all_eq_true.1 List.all_takeWhile path hpath
        have hnot := (accepts_iff.1 haccepts).2
        rw [held, heq] at hnot
        rcases OnTree.grows_prepare outputs t (Path.place output.path) with hkept | ⟨_, hmade⟩
        · exact hkept
        · exact absurd hmade hnot
      · rw [← h output houtput, hheld output houtput, if_neg hmem]
    · intro h output houtput
      rw [hheld output houtput]
      split
      · rename_i hmem
        obtain ⟨path, hpath, heq⟩ := List.mem_map.1 hmem
        rw [held, ← heq]
        exact (h.replaced hbegins path hpath).symm
      · exact h.directories output houtput

end FileTree

end PropSchema
