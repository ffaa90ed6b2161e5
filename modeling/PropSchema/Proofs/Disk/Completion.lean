/-
PropSchema.Proofs.Disk.Completion — what a completed writing of several files leaves.

When `Disk.writeAll` succeeds, every file that was staged has been renamed, in the
order of the outputs. Two outputs may name one place, in one spelling or in two; the
later one then replaces the earlier, and only the text of the last output for a place
is there in the end. Every other place is as the making of directories left it.

§1 Contents — which output a staged file holds.
§2 Writing  — outputs one after the other over what there was.
§3 Renaming — `commitAll_ok`, by induction on the files.
§4 Outputs  — `writeAll_ok`, and what is read at a target afterwards.
-/
import PropSchema.Proofs.Disk.Rollback
import Mathlib.Data.List.Forall2

namespace PropSchema

namespace FileTree

/-! ## §1 Contents -/

/-- Whether a staged file is that of an output: it holds the output's text, and is to be
where the output is to be. -/
structure Stages (t : FileTree) (file : Disk.Staged) (output : Disk.Output) : Prop where
  target : file.target = output.path
  content : t.held file.path = some (.file output.text.toUTF8)

/-- Staged files are still those of their outputs where they hold what they held. -/
theorem forall₂_stages_of_held {t u : FileTree} {files : List Disk.Staged}
    {outputs : List Disk.Output} (h : List.Forall₂ t.Stages files outputs)
    (hheld : ∀ file ∈ files, u.held file.path = t.held file.path) :
    List.Forall₂ u.Stages files outputs := by
  induction h with
  | nil => exact .nil
  | cons hfile _ ih =>
    rw [List.forall_mem_cons] at hheld
    exact .cons ⟨hfile.target, hheld.1.trans hfile.content⟩ (ih hheld.2)

/-- One more file is staged, and those staged before it are as they were. -/
theorem forall₂_stages_stage {t u : FileTree} {done : List Disk.Staged}
    {written : List Disk.Output} (h : List.Forall₂ t.Stages done written)
    (hready : t.Ready done) {output : Disk.Output} {path : String}
    (hstage : t.stage (Path.parent output.path) output.text = .ok (path, u)) :
    List.Forall₂ u.Stages (⟨path, output.path⟩ :: done) (output :: written) := by
  obtain ⟨_, hnone, _, hnode⟩ := stage_ok hstage
  refine .cons ⟨rfl, ?_⟩ (forall₂_stages_of_held h fun file hfile => ?_)
  · rw [held, hnode, if_pos rfl]
  · have hne : Path.place file.path ≠ Path.place path := by
      intro heq
      obtain ⟨content, hcontent⟩ := hready.holds file hfile
      rw [held, heq, ← held, hnone] at hcontent
      cases hcontent
    rw [held, hnode, if_neg hne, held]

/-- What all files are staged from are the outputs, in order. -/
theorem stageAll_stages {t : FileTree} {done : List Disk.Staged} {written : List Disk.Output}
    (h : List.Forall₂ t.Stages done written) (hready : t.Ready done)
    (outputs : List Disk.Output) {staged : List Disk.Staged} {v : FileTree}
    (hrun : (Disk.stageAll done outputs : OnTree (Except LocatedFault (List Disk.Staged))) t =
      (.ok staged, v)) :
    List.Forall₂ v.Stages staged (written.reverse ++ outputs) := by
  induction outputs generalizing t done written with
  | nil =>
    obtain ⟨hstaged, rfl⟩ := Prod.mk.inj hrun
    obtain rfl := Except.ok.inj hstaged
    rw [List.append_nil]
    exact List.forall₂_reverse_iff.2 h
  | cons output outputs ih =>
    cases hstage : t.stage (Path.parent output.path) output.text with
    | error fault =>
      rw [run_stageAll_cons_error hstage] at hrun
      cases (Prod.mk.inj hrun).1
    | ok result =>
      obtain ⟨path, u⟩ := result
      rw [run_stageAll_cons_ok hstage] at hrun
      have hall := ih (forall₂_stages_stage h hready hstage) (hready.stage hstage output.path) hrun
      simpa using hall

/-! ## §2 Writing -/

/-- What there is at a place once outputs are written one after the other over the node
that was there. -/
def overwritten (place : Place) (node : Option Node) (outputs : List Disk.Output) :
    Option Node :=
  outputs.foldl (fun node output =>
    if Path.place output.path = place then some (.file output.text.toUTF8) else node) node

theorem overwritten_cons (place : Place) (node : Option Node) (output : Disk.Output)
    (outputs : List Disk.Output) :
    overwritten place node (output :: outputs) = overwritten place
      (if Path.place output.path = place then some (.file output.text.toUTF8) else node) outputs :=
  rfl

theorem overwritten_of_ne {place : Place} {outputs : List Disk.Output}
    (h : ∀ output ∈ outputs, Path.place output.path ≠ place) (node : Option Node) :
    overwritten place node outputs = node := by
  induction outputs generalizing node with
  | nil => rfl
  | cons output outputs ih =>
    rw [List.forall_mem_cons] at h
    rw [overwritten_cons, if_neg h.1, ih h.2]

/-- The last output for a place is what stays. -/
theorem overwritten_last {place : Place} {output : Disk.Output} {after : List Disk.Output}
    (hplace : Path.place output.path = place)
    (hlast : ∀ other ∈ after, Path.place other.path ≠ place) (node : Option Node)
    (before : List Disk.Output) :
    overwritten place node (before ++ output :: after) = some (.file output.text.toUTF8) := by
  have hsplit : overwritten place node (before ++ output :: after) =
      overwritten place (overwritten place node before) (output :: after) :=
    List.foldl_append
  rw [hsplit, overwritten_cons, if_pos hplace, overwritten_of_ne hlast]

/-! ## §3 Renaming -/

/-- Completed renaming has written every output over what there was, in order, and every
target could be written to. -/
theorem commitAll_ok {t : FileTree} {files : List Disk.Staged} {outputs : List Disk.Output}
    (h : t.Ready files) (hstages : List.Forall₂ t.Stages files outputs)
    (hnames : ∀ output ∈ outputs, ¬ IsStaging (Path.place output.path)) {done : List String}
    {v : FileTree}
    (hrun : (Disk.commitAll done files : OnTree (Except LocatedFault Unit)) t = (.ok (), v)) :
    t.SameDirectories v ∧ (∀ output ∈ outputs, t.accepts output.path = true) ∧
      ∀ place, ¬ IsStaging place → v.node? place = overwritten place (t.node? place) outputs := by
  induction files generalizing t outputs done with
  | nil =>
    cases hstages
    obtain ⟨_, rfl⟩ := Prod.mk.inj hrun
    exact ⟨.refl t, by simp, fun _ _ => rfl⟩
  | cons file files ih =>
    obtain ⟨output, outputs, hfile, hfiles, rfl⟩ := List.forall₂_cons_left_iff.1 hstages
    rw [List.forall_mem_cons] at hnames
    have htarget : ¬ IsStaging (Path.place file.target) := hfile.target ▸ hnames.1
    cases haccepts : t.accepts file.target with
    | false =>
      obtain ⟨fault, hfault⟩ :=
        rename_error (h.resolves file List.mem_cons_self) hfile.content haccepts
      rw [run_commitAll_cons_error hfault] at hrun
      cases (Prod.mk.inj hrun).1
    | true =>
      obtain ⟨u, hu, hsame, hready, hheld, hnode⟩ := h.rename htarget haccepts
      rw [run_commitAll_cons_ok hu] at hrun
      obtain ⟨hrest, hothers, hnodes⟩ :=
        ih hready (forall₂_stages_of_held hfiles hheld) hnames.2 hrun
      refine ⟨hsame.trans hrest, ?_, fun place hplace => ?_⟩
      · rw [List.forall_mem_cons, ← hfile.target]
        exact ⟨haccepts, fun other hother => (hsame.accepts _).trans (hothers other hother)⟩
      · have hne : place ≠ Path.place file.path := by
          rintro rfl
          exact hplace (h.staging file List.mem_cons_self)
        rw [hnodes place hplace, overwritten_cons, hnode, if_neg hne, hfile.target, hfile.content]
        simp only [eq_comm (a := place)]

/-! ## §4 Outputs -/

/-- Completed writing has made the directories and then written every output over what
there was; and every target can be followed to. -/
theorem writeAll_ok {t : FileTree} {outputs : List Disk.Output}
    (hnames : ∀ output ∈ outputs, ¬ IsStaging (Path.place output.path)) {v : FileTree}
    (hrun : (Disk.writeAll outputs : OnTree (Except LocatedFault Unit)) t = (.ok (), v)) :
    (∀ output ∈ outputs, v.resolve output.path = .ok (Path.place output.path)) ∧
      ∀ place, ¬ IsStaging place →
        v.node? place = overwritten place ((t.prepared outputs).node? place) outputs := by
  rw [Disk.writeAll] at hrun
  simp only [OnTree.run_bind] at hrun
  cases hprepare : ((Disk.prepare outputs : OnTree (Except LocatedFault Unit)) t).1 with
  | error fault =>
    rw [hprepare] at hrun
    cases (Prod.mk.inj hrun).1
  | ok u =>
    rw [hprepare] at hrun
    simp only [OnTree.run_bind] at hrun
    rw [← prepared] at hrun
    cases hstage : (Disk.stageAll [] outputs :
        OnTree (Except LocatedFault (List Disk.Staged))) (t.prepared outputs) with
    | mk result w =>
      rw [hstage] at hrun
      cases result with
      | error fault => cases (Prod.mk.inj hrun).1
      | ok staged =>
        obtain ⟨hnodes, hok⟩ := stageAll_result (ready_nil _) outputs hstage
        obtain ⟨_, hready, _⟩ := hok staged rfl
        have hstages := stageAll_stages .nil (ready_nil _) outputs hstage
        rw [List.reverse_nil, List.nil_append] at hstages
        obtain ⟨hsame, haccepts, hwritten⟩ := commitAll_ok hready hstages hnames hrun
        refine ⟨fun output houtput => ?_, fun place hplace => ?_⟩
        · exact hsame.resolve (accepts_iff.1 (haccepts output houtput)).1
        · rw [hwritten place hplace, hnodes place hplace]

/-- What is read at a target after completed writing is the last output for its place. -/
theorem read_of_writeAll_ok {t : FileTree} {outputs : List Disk.Output}
    (hnames : ∀ output ∈ outputs, ¬ IsStaging (Path.place output.path)) {v : FileTree}
    (hrun : (Disk.writeAll outputs : OnTree (Except LocatedFault Unit)) t = (.ok (), v))
    {target path text : String} (htarget : target ∈ outputs.map (·.path))
    {before after : List Disk.Output} (hsplit : outputs = before ++ ⟨path, text⟩ :: after)
    (hplace : Path.place path = Path.place target)
    (hlast : ∀ later ∈ after, Path.place later.path ≠ Path.place target) :
    v.read target = .ok text.toUTF8 := by
  obtain ⟨hresolve, hnodes⟩ := writeAll_ok hnames hrun
  obtain ⟨output, houtput, rfl⟩ := List.mem_map.1 htarget
  have hnode := hnodes _ (hnames output houtput)
  rw [hsplit, overwritten_last hplace hlast] at hnode
  simp only [read, hresolve output houtput, hnode]

end FileTree

end PropSchema
