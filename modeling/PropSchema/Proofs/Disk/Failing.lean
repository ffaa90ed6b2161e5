/-
PropSchema.Proofs.Disk.Failing — a disk on which anything may fail at any time.

A file tree refuses an operation only where its own shape forbids it. The disk of a
machine has other reasons: it is full, or broken, or not to be written to. Here an
operation either does to a tree what it always does, or it fails, whatever the reason,
and leaves the tree alone. A file is staged under any temporary name that is not in
use, and once it is staged it can be removed; to remove any other file may fail like
everything else, and nothing tells. A program has a result for each way in which its
operations can go, so that a statement about all its results holds for a run that
fails at any point.

§1 Staging     — files under temporary names that were not in use.
§2 Disk        — `OnFailingTree`.
§3 Plain trees — what a program does on a plain tree is among what it may do here.
-/
import PropSchema.Proofs.Disk.Places

namespace PropSchema

namespace FileTree

/-! ## §1 Staging -/

/-- Whether one tree is another with a text staged in a directory under the given
name: a temporary one that was not in use there. -/
structure StagedAs (t : FileTree) (directory text name : String) (u : FileTree) : Prop where
  temporary : Path.IsTemporaryName name
  resolves : t.resolve (Path.join directory name) = .ok (Path.place (Path.join directory name))
  free : t.held (Path.join directory name) = none
  tree : u = t.insert (Path.place (Path.join directory name)) (.file text.toUTF8)

theorem StagedAs.isTemporary {t u : FileTree} {directory text name : String}
    (h : t.StagedAs directory text name u) :
    IsTemporary (Path.place (Path.join directory name)) :=
  ⟨_, name, h.temporary, Path.place_join_of_isTemporaryName h.temporary directory⟩

/-- A plain tree stages files in that way. -/
theorem stagedAs_of_stage {t u : FileTree} {directory text path : String}
    (h : t.stage directory text = .ok (path, u)) :
    ∃ name, path = Path.join directory name ∧ t.StagedAs directory text name u := by
  have hfree := (stage_ok h).2.1
  unfold stage at h
  split at h
  · cases h
  · rename_i here hhere
    split at h
    · cases h
    · cases h
    · simp only at h
      split at h
      · cases h
      · rename_i staged hstaged
        obtain ⟨rfl, rfl⟩ := Prod.mk.inj (Except.ok.inj h)
        obtain rfl := resolve_eq_place hstaged
        obtain ⟨i, hname, _⟩ := t.freshName_eq here
        exact ⟨_, rfl, hname ▸ isTemporaryName_stagedName i, hstaged, hfree, rfl⟩

end FileTree

/-! ## §2 Disk -/

/-- Programs on a disk that keeps a file tree and may fail: whether a program that
starts from one tree may end with a result and another tree. -/
def OnFailingTree (α : Type) : Type :=
  FileTree → α → FileTree → Prop

namespace OnFailingTree

instance : Monad OnFailingTree where
  pure a := fun t b u => b = a ∧ u = t
  bind x f := fun t b v => ∃ a u, x t a u ∧ f a u b v

/-- Whether an operation has failed, which leaves the tree alone. -/
def Failed {α : Type} (t : FileTree) (result : Except DiskFault α) (u : FileTree) : Prop :=
  (∃ fault, result = .error fault) ∧ u = t

/-- An operation that does to a tree what it always does, or fails. -/
def attempt (operation : FileTree → Except DiskFault FileTree) :
    OnFailingTree (Except DiskFault Unit) := fun t result u =>
  (result = .ok () ∧ operation t = .ok u) ∨ Failed t result u

instance : Disk OnFailingTree where
  read path := fun t result u => u = t ∧ ∀ content, result = .ok content → t.read path = .ok content
  makeDirectory path := attempt (·.makeDirectory path)
  isDirectory path := fun t found u => u = t ∧ (found = true → t.isDirectory path = true)
  stage directory text := fun t result u =>
    (∃ name, result = .ok (Path.join directory name) ∧ t.StagedAs directory text name u) ∨
      Failed t result u
  rename source target := attempt (·.rename source target)
  remove path := fun t _ u =>
    u = t.remove path ∨ ¬ FileTree.IsTemporary (Path.place path) ∧ u = t

end OnFailingTree

/-! ## §3 Plain trees -/

namespace OnTree

@[simp] theorem run_pure {α : Type} (a : α) (t : FileTree) : (pure a : OnTree α) t = (a, t) :=
  rfl

@[simp] theorem run_bind {α β : Type} (x : OnTree α) (f : α → OnTree β) (t : FileTree) :
    (x >>= f) t = f (x t).1 (x t).2 :=
  rfl

@[simp] theorem run_read (path : String) (t : FileTree) :
    (Disk.read path : OnTree (Except DiskFault ByteArray)) t = (t.read path, t) :=
  rfl

@[simp] theorem run_remove (path : String) (t : FileTree) :
    (Disk.remove path : OnTree Unit) t = ((), t.remove path) :=
  rfl

theorem run_attempt_ok {operation : FileTree → Except DiskFault FileTree} {t u : FileTree}
    (h : operation t = .ok u) : FileTree.attempt operation t = (.ok (), u) := by
  simp [FileTree.attempt, h]

theorem run_attempt_error {operation : FileTree → Except DiskFault FileTree} {t : FileTree}
    {fault : DiskFault} (h : operation t = .error fault) :
    FileTree.attempt operation t = (.error fault, t) := by
  simp [FileTree.attempt, h]

theorem run_stage_ok {directory text path : String} {t u : FileTree}
    (h : t.stage directory text = .ok (path, u)) :
    (Disk.stage directory text : OnTree (Except DiskFault String)) t = (.ok path, u) := by
  simp only [Disk.stage, h]

theorem run_stage_error {directory text : String} {t : FileTree} {fault : DiskFault}
    (h : t.stage directory text = .error fault) :
    (Disk.stage directory text : OnTree (Except DiskFault String)) t = (.error fault, t) := by
  simp only [Disk.stage, h]

theorem run_rename_ok {source target : String} {t u : FileTree}
    (h : t.rename source target = .ok u) :
    (Disk.rename source target : OnTree (Except DiskFault Unit)) t = (.ok (), u) :=
  run_attempt_ok h

theorem run_rename_error {source target : String} {t : FileTree} {fault : DiskFault}
    (h : t.rename source target = .error fault) :
    (Disk.rename source target : OnTree (Except DiskFault Unit)) t = (.error fault, t) :=
  run_attempt_error h

end OnTree

namespace OnFailingTree

variable {α β : Type}

/-- Whether what a program does on a plain tree is among what a program may do here. -/
def Refines (x : OnTree α) (y : OnFailingTree α) : Prop :=
  ∀ t, y t (x t).1 (x t).2

theorem refines_pure (a : α) : Refines (pure a) (pure a) :=
  fun _ => ⟨rfl, rfl⟩

theorem Refines.bind {x : OnTree α} {y : OnFailingTree α} {f : α → OnTree β}
    {g : α → OnFailingTree β} (hx : Refines x y) (hf : ∀ a, Refines (f a) (g a)) :
    Refines (x >>= f) (y >>= g) :=
  fun t => ⟨(x t).1, (x t).2, hx t, hf (x t).1 (x t).2⟩

theorem refines_attempt (operation : FileTree → Except DiskFault FileTree) :
    Refines (FileTree.attempt operation) (attempt operation) := by
  intro t
  cases h : operation t with
  | ok u =>
    rw [OnTree.run_attempt_ok h]
    exact .inl ⟨rfl, h⟩
  | error fault =>
    rw [OnTree.run_attempt_error h]
    exact .inr ⟨⟨fault, rfl⟩, rfl⟩

theorem refines_read (path : String) : Refines (Disk.read path) (Disk.read path) :=
  fun _ => ⟨rfl, fun _ h => h⟩

theorem refines_makeDirectory (path : String) :
    Refines (Disk.makeDirectory path) (Disk.makeDirectory path) :=
  refines_attempt _

theorem refines_isDirectory (path : String) :
    Refines (Disk.isDirectory path) (Disk.isDirectory path) :=
  fun _ => ⟨rfl, id⟩

theorem refines_stage (directory text : String) :
    Refines (Disk.stage directory text) (Disk.stage directory text) := by
  intro t
  cases h : t.stage directory text with
  | ok staged =>
    obtain ⟨path, u⟩ := staged
    rw [OnTree.run_stage_ok h]
    obtain ⟨name, rfl, hstaged⟩ := FileTree.stagedAs_of_stage h
    exact .inl ⟨name, rfl, hstaged⟩
  | error fault =>
    rw [OnTree.run_stage_error h]
    exact .inr ⟨⟨fault, rfl⟩, rfl⟩

theorem refines_rename (source target : String) :
    Refines (Disk.rename source target) (Disk.rename source target) :=
  refines_attempt _

theorem refines_remove (path : String) : Refines (Disk.remove path) (Disk.remove path) :=
  fun _ => .inl rfl

theorem refines_ensureDirectory (path : String) :
    Refines (Disk.ensureDirectory path) (Disk.ensureDirectory path) := by
  refine (refines_makeDirectory path).bind fun result => ?_
  split
  · exact refines_pure _
  · exact (refines_isDirectory path).bind fun _ => refines_pure _

theorem refines_ensureChain (paths : List String) :
    Refines (Disk.ensureChain paths) (Disk.ensureChain paths) := by
  induction paths with
  | nil => exact refines_pure _
  | cons path above ih =>
    refine (refines_makeDirectory path).bind fun result => ?_
    split
    · exact refines_pure _
    · refine ih.bind fun result => ?_
      split
      · exact refines_pure _
      · exact refines_ensureDirectory path
    · exact (refines_isDirectory path).bind fun _ => refines_pure _

theorem refines_prepare (outputs : List Disk.Output) :
    Refines (Disk.prepare outputs) (Disk.prepare outputs) := by
  induction outputs with
  | nil => exact refines_pure _
  | cons output outputs ih =>
    refine (refines_ensureChain _).bind fun result => ?_
    split
    · exact refines_pure _
    · exact ih

theorem refines_discard (files : List Disk.Staged) :
    Refines (Disk.discard files) (Disk.discard files) := by
  induction files with
  | nil => exact refines_pure _
  | cons file files ih => exact (refines_remove file.path).bind fun _ => ih

theorem refines_removeAll (paths : List String) :
    Refines (Disk.removeAll paths) (Disk.removeAll paths) := by
  induction paths with
  | nil => exact refines_pure _
  | cons path paths ih => exact (refines_remove path).bind fun _ => ih

theorem refines_stageAll (done : List Disk.Staged) (outputs : List Disk.Output) :
    Refines (Disk.stageAll done outputs) (Disk.stageAll done outputs) := by
  induction outputs generalizing done with
  | nil => exact refines_pure _
  | cons output outputs ih =>
    refine (refines_stage _ output.text).bind fun result => ?_
    split
    · exact (refines_discard done).bind fun _ => refines_pure _
    · exact ih _

theorem refines_commitAll (done : List String) (files : List Disk.Staged) :
    Refines (Disk.commitAll done files) (Disk.commitAll done files) := by
  induction files generalizing done with
  | nil => exact refines_pure _
  | cons file files ih =>
    refine (refines_rename file.path file.target).bind fun result => ?_
    split
    · exact ih _
    · refine (refines_removeAll done).bind fun _ => ?_
      exact (refines_discard (file :: files)).bind fun _ => refines_pure _

/-- What is written on a plain tree may be written here. -/
theorem refines_writeAll (outputs : List Disk.Output) :
    Refines (Disk.writeAll outputs) (Disk.writeAll outputs) := by
  refine (refines_prepare outputs).bind fun result => ?_
  split
  · exact refines_pure _
  · refine (refines_stageAll [] outputs).bind fun result => ?_
    split
    · exact refines_pure _
    · exact refines_commitAll [] _

end OnFailingTree

end PropSchema
