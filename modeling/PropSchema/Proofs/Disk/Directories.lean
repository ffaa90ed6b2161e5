/-
PropSchema.Proofs.Disk.Directories — making directories only adds some.

The first phase of `Disk.writeAll` makes the directories of all outputs. However far it
comes, the tree is then what it was, and besides has directories where it had nothing,
at places that the directories of the outputs pass. That is shown of programs on a disk
that may fail, by the structure of the program, and so holds on a plain tree.

§1 Trees    — `Grows`, and `GrowsWithin` for growing at certain places.
§2 Programs — `growsWithin_prepare`, and `grows_prepare` on a plain tree.
-/
import PropSchema.Proofs.Disk.Failing
import PropSchema.Proofs.Disk.Passing

namespace PropSchema

namespace FileTree

/-! ## §1 Trees -/

/-- Whether a tree has what another one has, and besides only directories where
that one has nothing. -/
def Grows (t u : FileTree) : Prop :=
  ∀ place, u.node? place = t.node? place ∨
    t.node? place = none ∧ u.node? place = some .directory

theorem Grows.refl (t : FileTree) : t.Grows t :=
  fun _ => .inl rfl

theorem Grows.trans {t u v : FileTree} (h : t.Grows u) (h' : u.Grows v) : t.Grows v := by
  intro place
  rcases h place with hu | ⟨hnone, hu⟩
  · rcases h' place with hv | ⟨hnone, hv⟩
    · exact .inl (hv.trans hu)
    · exact .inr ⟨hu ▸ hnone, hv⟩
  · rcases h' place with hv | ⟨hnone', hv⟩
    · exact .inr ⟨hnone, hv.trans hu⟩
    · rw [hu] at hnone'
      cases hnone'

/-- Whether a tree grows at certain places only. -/
structure GrowsWithin (t : FileTree) (made : Place → Prop) (u : FileTree) : Prop where
  grows : t.Grows u
  within : ∀ place, ¬ made place → u.node? place = t.node? place

theorem GrowsWithin.refl (made : Place → Prop) (t : FileTree) : t.GrowsWithin made t :=
  ⟨.refl t, fun _ _ => rfl⟩

theorem GrowsWithin.trans {made : Place → Prop} {t u v : FileTree} (h : t.GrowsWithin made u)
    (h' : u.GrowsWithin made v) : t.GrowsWithin made v where
  grows := h.grows.trans h'.grows
  within place hplace := (h'.within place hplace).trans (h.within place hplace)

theorem growsWithin_of_makeDirectory_ok {made : Place → Prop} {t u : FileTree} {path : String}
    (h : t.makeDirectory path = .ok u) (hmade : made (Path.place path)) :
    t.GrowsWithin made u := by
  obtain ⟨hnone, hnode⟩ := makeDirectory_ok h
  constructor
  case grows =>
    intro place
    rw [hnode]
    split
    · rename_i hplace
      exact .inr ⟨hplace ▸ hnone, rfl⟩
    · exact .inl rfl
  case within =>
    intro place hplace
    have hne : place ≠ Path.place path := fun heq => hplace (heq ▸ hmade)
    rw [hnode, if_neg hne]

end FileTree

/-! ## §2 Programs -/

namespace OnFailingTree

variable {α β : Type} {made : Place → Prop}

/-- Whether a program does nothing but make directories where there is nothing, and only
at certain places. -/
def GrowsWithin (made : Place → Prop) (x : OnFailingTree α) : Prop :=
  ∀ t a u, x t a u → t.GrowsWithin made u

theorem growsWithin_of_eq {x : OnFailingTree α} (h : ∀ t a u, x t a u → u = t) :
    GrowsWithin made x :=
  fun t a u hrun => h t a u hrun ▸ .refl made t

theorem growsWithin_pure (a : α) : GrowsWithin made (pure a) :=
  growsWithin_of_eq fun _ _ _ hrun => hrun.2

theorem GrowsWithin.bind {x : OnFailingTree α} {f : α → OnFailingTree β}
    (hx : GrowsWithin made x) (hf : ∀ a, GrowsWithin made (f a)) :
    GrowsWithin made (x >>= f) := by
  intro t b v hrun
  obtain ⟨a, u, hrun, hrest⟩ := hrun
  exact (hx t a u hrun).trans (hf a u b v hrest)

theorem growsWithin_makeDirectory {path : String} (hmade : made (Path.place path)) :
    GrowsWithin made (Disk.makeDirectory path) := by
  intro t result u hrun
  rcases hrun with ⟨_, hmake⟩ | ⟨_, rfl⟩
  · exact FileTree.growsWithin_of_makeDirectory_ok hmake hmade
  · exact .refl made u

theorem growsWithin_isDirectory (path : String) : GrowsWithin made (Disk.isDirectory path) :=
  growsWithin_of_eq fun _ _ _ hrun => hrun.1

theorem growsWithin_ensureDirectory {path : String} (hmade : made (Path.place path)) :
    GrowsWithin made (Disk.ensureDirectory path) := by
  refine (growsWithin_makeDirectory hmade).bind fun result => ?_
  split
  · exact growsWithin_pure _
  · exact (growsWithin_isDirectory path).bind fun _ => growsWithin_pure _

theorem growsWithin_ensureChain {paths : List String}
    (hmade : ∀ path ∈ paths, made (Path.place path)) :
    GrowsWithin made (Disk.ensureChain paths) := by
  induction paths with
  | nil => exact growsWithin_pure _
  | cons path above ih =>
    rw [List.forall_mem_cons] at hmade
    refine (growsWithin_makeDirectory hmade.1).bind fun result => ?_
    split
    · exact growsWithin_pure _
    · refine (ih hmade.2).bind fun result => ?_
      split
      · exact growsWithin_pure _
      · exact growsWithin_ensureDirectory hmade.1
    · exact (growsWithin_isDirectory path).bind fun _ => growsWithin_pure _

/-- Directories are made at the places that the directories of the outputs pass. -/
theorem growsWithin_prepare {outputs : List Disk.Output}
    (hmade : ∀ output ∈ outputs, ∀ place, Path.Passes (Path.parent output.path) place → made place) :
    GrowsWithin made (Disk.prepare outputs) := by
  induction outputs with
  | nil => exact growsWithin_pure _
  | cons output outputs ih =>
    rw [List.forall_mem_cons] at hmade
    have hchain : ∀ path ∈ Path.ancestors (Path.parent output.path), made (Path.place path) :=
      fun path hpath => hmade.1 _ (Path.passes_of_mem_ancestors hpath)
    refine (growsWithin_ensureChain hchain).bind fun result => ?_
    split
    · exact growsWithin_pure _
    · exact ih hmade.2

end OnFailingTree

namespace OnTree

/-- Whether a program does nothing but make directories where there is nothing. -/
def Grows {α : Type} (x : OnTree α) : Prop :=
  ∀ t : FileTree, t.Grows (x t).2

theorem grows_prepare (outputs : List Disk.Output) :
    Grows (Disk.prepare outputs : OnTree (Except LocatedFault Unit)) := by
  intro t
  have hgrows : OnFailingTree.GrowsWithin (fun _ => True) (Disk.prepare outputs) :=
    OnFailingTree.growsWithin_prepare fun _ _ _ _ => trivial
  exact (hgrows t _ _ (OnFailingTree.refines_prepare outputs t)).grows

end OnTree

end PropSchema
