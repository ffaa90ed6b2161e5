/-
PropSchema.Proofs.Command.Footprint — all that a generation may touch.

A generation is given a schema file and two or three directories, and whatever becomes
of it, on a disk on which anything may fail at any time, the rest of the tree is as it
was: files differ at the targets only, directories have come only where the given ones
are reached through, none is gone, no staged file is left, and the schema file reads as
before. The targets are in the given directories, under names that are neither the
schema file's nor temporary, and nothing else is needed of them.

§1 Runs      — what a run on a plain tree does may happen on a disk that fails.
§2 Reading   — what may be read before anything is written.
§3 Footprint — `run_generate_footprint`.
-/
import PropSchema.Proofs.Command.Generate
import PropSchema.Proofs.Disk.Frame

namespace PropSchema

namespace Command

open OnFailingTree (Refines refines_pure refines_read refines_writeAll)

/-! ## §1 Runs -/

theorem refines_readSchema (path : String) : Refines (readSchema path) (readSchema path) := by
  refine (refines_read path).bind fun result => ?_
  split
  · exact refines_pure _
  · split
    · exact refines_pure _
    · split
      · exact refines_pure _
      · exact refines_pure _

theorem refines_generate (file headerDir sourceDir includeName : String)
    (publicHeaderDir : Option String) (json : Bool) (s : Schema) :
    Refines (generate file headerDir sourceDir includeName publicHeaderDir json s)
      (generate file headerDir sourceDir includeName publicHeaderDir json s) := by
  unfold generate
  split
  · exact refines_pure _
  · refine (refines_writeAll _).bind fun result => ?_
    split
    · exact refines_pure _
    · exact refines_pure _

theorem refines_withSchema {verbosity : Nat} {json : Bool} {path : String}
    {x : Schema → OnTree (Except Failure String)}
    {y : Schema → OnFailingTree (Except Failure String)} (h : ∀ s, Refines (x s) (y s)) :
    Refines (withSchema verbosity json path x) (withSchema verbosity json path y) := by
  refine (refines_readSchema path).bind fun result => ?_
  split
  · exact refines_pure _
  · refine (h _).bind fun result => ?_
    split
    · exact refines_pure _
    · exact refines_pure _

/-- Every run on a plain tree is one that may happen on a disk that fails. -/
theorem refines_run (invocation : Invocation) : Refines (run invocation) (run invocation) := by
  unfold run
  cases invocation.task with
  | validate file json => exact refines_withSchema fun _ => refines_pure _
  | normalize file => exact refines_withSchema fun _ => refines_pure _
  | generate file headerDir sourceDir includeName publicHeaderDir json =>
    exact refines_withSchema fun _ => refines_generate _ _ _ _ _ _ _
  | version => exact refines_pure _

/-! ## §2 Reading -/

/-- Reading a schema leaves the tree as it is, and gives one only if there is a file. -/
theorem readSchema_leaves {path : String} {t u : FileTree} {result : Except Failure Schema}
    (hrun : (readSchema path : OnFailingTree (Except Failure Schema)) t result u) :
    u = t ∧ ∀ s, result = .ok s → ∃ content, t.read path = .ok content := by
  obtain ⟨held, w, ⟨rfl, hread⟩, hrest⟩ := hrun
  cases held with
  | error fault =>
    obtain ⟨rfl, rfl⟩ := hrest
    exact ⟨rfl, nofun⟩
  | ok content =>
    refine ⟨?_, fun _ _ => ⟨content, hread content rfl⟩⟩
    simp only at hrest
    cases htext : String.fromUTF8? content with
    | none =>
      rw [htext] at hrest
      exact hrest.2
    | some text =>
      rw [htext] at hrest
      simp only at hrest
      cases hdeclared : Schema.declared text with
      | error e =>
        rw [hdeclared] at hrest
        exact hrest.2
      | ok s =>
        rw [hdeclared] at hrest
        exact hrest.2

/-! ## §3 Footprint -/

section Footprint

variable {file headerDir sourceDir includeName : String} {publicHeaderDir : Option String}
  {json : Bool} {verbosity : Nat} {before after : FileTree} {outcome : Outcome}

/-- Whether a place is that of a target: of the header, of the source, or of the public
header if there is one. -/
def IsTarget (file headerDir sourceDir : String) (publicHeaderDir : Option String)
    (place : Place) : Prop :=
  ∃ targets, Targets.ofFile? file headerDir sourceDir publicHeaderDir = some targets ∧
    ∃ path ∈ targets.paths, Path.place path = place

/-- Whether a place is passed on the way to one of the given directories, or that of the
directory itself. -/
def IsOnTheWay (headerDir sourceDir : String) (publicHeaderDir : Option String)
    (place : Place) : Prop :=
  ∃ directory ∈ [headerDir, sourceDir] ++ publicHeaderDir.toList, Path.Passes directory place

theorem IsTarget.not_isTemporary {place : Place}
    (h : IsTarget file headerDir sourceDir publicHeaderDir place) :
    ¬ FileTree.IsTemporary place := by
  obtain ⟨targets, htargets, path, hpath, rfl⟩ := h
  exact Targets.not_isTemporary_of_mem_paths htargets hpath

/-- The schema file is no target, since a target's name is longer than its name. -/
theorem not_isTarget_file (file headerDir sourceDir : String) (publicHeaderDir : Option String) :
    ¬ IsTarget file headerDir sourceDir publicHeaderDir (Path.place file) := by
  intro htarget
  obtain ⟨targets, htargets, path, hpath, hplace⟩ := htarget
  obtain ⟨directory, _, name, ending, hname, hending, rfl⟩ :=
    Targets.exists_join_of_mem_paths htargets hpath
  obtain ⟨above, hfile⟩ := Path.place_of_fileName? hname
  rw [Targets.place_join_name hname hending, hfile] at hplace
  have heq : name ++ ending = name :=
    (List.cons.inj (List.append_inj_right' hplace rfl)).1
  rw [← String.toList_inj, String.toList_append, List.append_right_eq_self] at heq
  rcases hending with rfl | rfl
  · cases heq
  · cases heq

/-- Generating code for a schema is confined to the targets, and to the ways to the given
directories. -/
theorem confined_generate {s : Schema} {result : Except Failure String}
    (hrun : (generate file headerDir sourceDir includeName publicHeaderDir json s :
      OnFailingTree (Except Failure String)) before result after) :
    before.Confined (IsTarget file headerDir sourceDir publicHeaderDir)
      (IsOnTheWay headerDir sourceDir publicHeaderDir) after := by
  unfold generate at hrun
  cases htargets : Targets.ofFile? file headerDir sourceDir publicHeaderDir with
  | none =>
    rw [htargets] at hrun
    obtain rfl := hrun.2
    exact .refl _ _ _
  | some targets =>
    rw [htargets] at hrun
    obtain ⟨written, u, hwrite, hreport⟩ := hrun
    obtain rfl : after = u := by
      cases written with
      | error e => exact hreport.2
      | ok => exact hreport.2
    refine FileTree.confined_writeAll (fun place => IsTarget.not_isTemporary)
      (fun output houtput => ?_) (fun output houtput place hplace => ?_) hwrite
    · exact ⟨targets, htargets, output.path, Targets.path_mem_paths houtput, rfl⟩
    · obtain ⟨directory, hdirectory, name, ending, hname, hending, hpath⟩ :=
        Targets.exists_join_of_mem_paths htargets (Targets.path_mem_paths houtput)
      rw [hpath] at hplace
      have hslash := Targets.slash_not_mem_name hname hending
      exact ⟨directory, hdirectory, Path.passes_of_parent_join hslash hplace⟩

/-- A run leaves the tree alone, or there is a schema file and code is generated. -/
theorem eq_or_generate_of_run
    (hrun : (run ⟨.generate file headerDir sourceDir includeName publicHeaderDir json, verbosity⟩ :
      OnFailingTree Outcome) before outcome after) :
    after = before ∨ (∃ content, before.read file = .ok content) ∧
      ∃ s result, (generate file headerDir sourceDir includeName publicHeaderDir json s :
        OnFailingTree (Except Failure String)) before result after := by
  obtain ⟨declared, t, hread, hrest⟩ := hrun
  obtain ⟨rfl, hcontent⟩ := readSchema_leaves hread
  cases declared with
  | error f => exact .inl hrest.2
  | ok s =>
    obtain ⟨result, u, hgenerate, hreport⟩ := hrest
    obtain rfl : after = u := by
      cases result with
      | error f => exact hreport.2
      | ok output => exact hreport.2
    exact .inr ⟨hcontent s rfl, _, result, hgenerate⟩

/-- **What a generation may touch.** On a disk on which any operation may fail at any time,
and so on a plain tree as well, whatever the outcome: every file is as it was, and none has
come or gone, but at the targets; a directory that has come is at a place that held nothing,
on the way to one of the given directories; no directory is gone; under temporary names
there are the files that there were, so that none is left that was staged; and the schema
file reads as it did. -/
theorem run_generate_footprint
    (hrun : (run ⟨.generate file headerDir sourceDir includeName publicHeaderDir json, verbosity⟩ :
      OnFailingTree Outcome) before outcome after) :
    (∀ place, ¬ IsTarget file headerDir sourceDir publicHeaderDir place → ∀ content,
      after.node? place = some (.file content) ↔ before.node? place = some (.file content)) ∧
    (∀ place, after.node? place = some .directory → before.node? place = some .directory ∨
      before.node? place = none ∧ IsOnTheWay headerDir sourceDir publicHeaderDir place) ∧
    (∀ place, before.node? place = some .directory → after.node? place = some .directory) ∧
    (∀ place, FileTree.IsTemporary place → ∀ content,
      after.node? place = some (.file content) ↔ before.node? place = some (.file content)) ∧
    after.read file = before.read file := by
  obtain ⟨hconfined, hread⟩ :
      before.Confined (IsTarget file headerDir sourceDir publicHeaderDir)
        (IsOnTheWay headerDir sourceDir publicHeaderDir) after ∧
      after.read file = before.read file := by
    rcases eq_or_generate_of_run hrun with rfl | ⟨⟨content, hcontent⟩, s, result, hgenerate⟩
    · exact ⟨.refl _ _ _, rfl⟩
    · have hconfined := confined_generate hgenerate
      exact ⟨hconfined, hconfined.read_eq hcontent (not_isTarget_file _ _ _ _)⟩
  refine ⟨hconfined.files, hconfined.made, hconfined.kept, fun place htemporary => ?_, hread⟩
  exact hconfined.files place fun htarget => htarget.not_isTemporary htemporary

end Footprint

/-- The command that generates code for the dimmer, with the header two directories down. -/
def nestedDimmerCommand : Invocation where
  task := .generate "dimmer.sysprop" "gen/include" "src" "dimmer.h" none false
  verbosity := 0

/-- A tree with the schema, where a directory stands in place of the source and a
temporary file of somebody else beside it. -/
def dimmerTreeInUse : FileTree :=
  dimmerTree [(["src", ".tmp0"], .file "in use\n".toUTF8)]

/-- What that command does on that tree. -/
def nestedDimmerRun : Outcome × FileTree :=
  (run nestedDimmerCommand : OnTree Outcome) dimmerTreeInUse

/-- The header was written and then removed again, since the source cannot be written. Its
directories have come, and nothing else has changed. -/
theorem run_generate_cleans_up :
    (run nestedDimmerCommand : OnFailingTree Outcome) dimmerTreeInUse nestedDimmerRun.1
        nestedDimmerRun.2 ∧
      nestedDimmerRun.1.exitCode = 2 ∧
      (∀ place, ¬ IsTarget "dimmer.sysprop" "gen/include" "src" none place → ∀ content,
        nestedDimmerRun.2.node? place = some (.file content) ↔
          dimmerTreeInUse.node? place = some (.file content)) ∧
      nestedDimmerRun.2.node? ["gen", "include"] = some .directory ∧
      (∀ place, nestedDimmerRun.2.node? place = some .directory →
        dimmerTreeInUse.node? place = some .directory ∨ place <+: ["gen", "include"]) ∧
      (∀ place, FileTree.IsTemporary place → ∀ content,
        nestedDimmerRun.2.node? place = some (.file content) ↔
          dimmerTreeInUse.node? place = some (.file content)) ∧
      nestedDimmerRun.2.read "dimmer.sysprop" = dimmerTreeInUse.read "dimmer.sysprop" := by
  have hrun : (run nestedDimmerCommand : OnFailingTree Outcome) dimmerTreeInUse
      nestedDimmerRun.1 nestedDimmerRun.2 :=
    refines_run nestedDimmerCommand dimmerTreeInUse
  have hresult : nestedDimmerRun.1.exitCode = 2 ∧
      nestedDimmerRun.2.node? ["gen", "include"] = some .directory := by
    decide +kernel
  obtain ⟨hcode, hmade⟩ := hresult
  obtain ⟨hfiles, hdirectories, _, htemporary, hread⟩ := run_generate_footprint hrun
  refine ⟨hrun, hcode, hfiles, hmade, fun place hplace => ?_, htemporary, hread⟩
  rcases hdirectories place hplace with hbefore | ⟨hnone, directory, hdirectory, hpasses⟩
  · exact .inl hbefore
  · have hgen : Path.place "gen/include" = ["gen", "include"] := by decide +kernel
    have hsrc : Path.place "src" = ["src"] := by decide +kernel
    have hsrcBefore : dimmerTreeInUse.node? ["src"] ≠ none := by decide +kernel
    simp only [Option.toList_none, List.append_nil, List.mem_cons, List.not_mem_nil,
      or_false] at hdirectory
    rcases hdirectory with rfl | rfl
    · exact .inr (hgen ▸ (Path.passes_iff_isPrefix (by decide +kernel)).1 hpasses)
    · have habove := (Path.passes_iff_isPrefix (by decide +kernel)).1 hpasses
      rw [hsrc, List.prefix_cons_iff] at habove
      rcases habove with rfl | ⟨rest, rfl, hrest⟩
      · cases hnone
      · exact absurd (List.prefix_nil.1 hrest ▸ hnone) hsrcBefore

end Command

end PropSchema
