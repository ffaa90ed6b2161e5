/-
PropSchema.Proofs.Command.Generate — what a failed generation leaves at its
targets.

A command that fails before it writes leaves the tree as it is. One that fails
while it writes need not: a header that was replaced is removed when the source
behind it cannot be written, though there was another header before.
`run_generate_error_iff` says exactly when every target is as it was, and
`run_generate_removes_header` shows a tree where one is not.

§1 Targets     — targets have names of their own, apart from staged files.
§2 Commands    — `run_generate_error_iff`.
-/
import PropSchema.Command.Run
import PropSchema.Proofs.Disk.Passing
import PropSchema.Proofs.Disk.Rollback

namespace PropSchema

/-! ## §1 Targets -/

namespace Command

namespace Targets

theorem map_path_outputs (t : Targets) (s : Schema) (includeName : String) :
    (t.outputs s includeName).map (·.path) = t.paths := by
  cases h : t.publicHeader with
  | none => simp [outputs, paths, h]
  | some path => simp [outputs, paths, h]

theorem path_mem_paths {t : Targets} {s : Schema} {includeName : String} {output : Disk.Output}
    (h : output ∈ t.outputs s includeName) : output.path ∈ t.paths := by
  rw [← map_path_outputs t s includeName]
  exact List.mem_map_of_mem h

variable {file headerDir sourceDir : String} {publicHeaderDir : Option String} {t : Targets}

/-- Every target is in one of the given directories, and has the name of the schema file
with one of two endings. -/
theorem exists_join_of_mem_paths (h : ofFile? file headerDir sourceDir publicHeaderDir = some t)
    {path : String} (hpath : path ∈ t.paths) :
    ∃ directory ∈ [headerDir, sourceDir] ++ publicHeaderDir.toList, ∃ name ending,
      Path.fileName? file = some name ∧ (ending = ".h" ∨ ending = ".cpp") ∧
      path = Path.join directory (name ++ ending) := by
  obtain ⟨name, hname, rfl⟩ := Option.map_eq_some_iff.1 h
  simp only [paths, List.mem_append, List.mem_cons, List.not_mem_nil, or_false,
    Option.mem_toList, Option.map_eq_some_iff] at hpath
  rcases hpath with (rfl | rfl) | ⟨directory, hdirectory, rfl⟩
  · exact ⟨headerDir, by simp, name, ".h", hname, .inl rfl, rfl⟩
  · exact ⟨sourceDir, by simp, name, ".cpp", hname, .inr rfl, rfl⟩
  · exact ⟨directory, by simp [hdirectory], name, ".h", hname, .inl rfl, rfl⟩

section Names

variable {name ending : String} (hname : Path.fileName? file = some name)
  (hending : ending = ".h" ∨ ending = ".cpp")

include hname hending

theorem slash_not_mem_name : '/' ∉ (name ++ ending).toList := by
  rw [String.toList_append, List.mem_append, not_or]
  refine ⟨Path.slash_not_mem_of_fileName? hname, ?_⟩
  rcases hending with rfl | rfl
  · decide
  · decide

/-- A target is one name below its directory. -/
theorem place_join_name (directory : String) :
    Path.place (Path.join directory (name ++ ending)) =
      Path.place directory ++ [name ++ ending] := by
  have hslash := slash_not_mem_name hname hending
  rcases hending with rfl | rfl
  · exact Path.place_join_of_getLast? (c := 'h') hslash (by simp) (by decide)
  · exact Path.place_join_of_getLast? (c := 'p') hslash (by simp) (by decide)

theorem not_isTemporaryName_name : ¬ Path.IsTemporaryName (name ++ ending) := by
  have hempty : name ≠ "" := by
    rintro rfl
    cases (Path.fileName?_eq_some hname).1
  refine Path.not_isTemporaryName_append hempty ?_
  rcases hending with rfl | rfl
  · decide
  · decide

end Names

/-- No target has a place with a temporary name. -/
theorem not_isTemporary_of_mem_paths
    (h : ofFile? file headerDir sourceDir publicHeaderDir = some t) {path : String}
    (hpath : path ∈ t.paths) : ¬ FileTree.IsTemporary (Path.place path) := by
  obtain ⟨directory, _, name, ending, hname, hending, rfl⟩ := exists_join_of_mem_paths h hpath
  rw [place_join_name hname hending]
  rintro ⟨above, other, hother, heq⟩
  have htemporary := not_isTemporaryName_name hname hending
  exact htemporary ((List.cons.inj (List.append_inj_right' heq rfl)).1 ▸ hother)

/-- So no target is at a place where files are staged. -/
theorem not_isStaging_of_mem_paths
    (h : ofFile? file headerDir sourceDir publicHeaderDir = some t) {path : String}
    (hpath : path ∈ t.paths) : ¬ FileTree.IsStaging (Path.place path) :=
  fun hstaging => not_isTemporary_of_mem_paths h hpath hstaging.isTemporary

theorem not_isStaging_of_mem_outputs
    (h : ofFile? file headerDir sourceDir publicHeaderDir = some t) (s : Schema)
    (includeName : String) :
    ∀ output ∈ t.outputs s includeName, ¬ FileTree.IsStaging (Path.place output.path) :=
  fun _ houtput => not_isStaging_of_mem_paths h (path_mem_paths houtput)

end Targets

/-! ## §2 Commands -/

theorem run_readSchema (path : String) (t : FileTree) :
    ((readSchema path : OnTree (Except Failure Schema)) t).2 = t := by
  rw [readSchema]
  simp only [OnTree.run_bind, OnTree.run_read]
  cases t.read path with
  | error fault => rfl
  | ok content =>
    simp only
    cases String.fromUTF8? content with
    | none => rfl
    | some text =>
      simp only
      cases Schema.declared text with
      | error e => rfl
      | ok s => rfl

/-- **What a failed generation leaves.** Every target is as it was before just if
the schema could not be read, or making the directories put none in place of a
target and every target that was replaced before the failure held nothing. -/
theorem run_generate_error_iff {file headerDir sourceDir includeName : String}
    {publicHeaderDir : Option String} {json : Bool} {verbosity : Nat}
    {before after : FileTree} {outcome : Outcome}
    (hrun : (run ⟨.generate file headerDir sourceDir includeName publicHeaderDir json, verbosity⟩ :
      OnTree Outcome) before = (outcome, after))
    (hfailed : outcome.exitCode ≠ 0) {targets : Targets}
    (htargets : Targets.ofFile? file headerDir sourceDir publicHeaderDir = some targets) :
    (∀ path ∈ targets.paths, after.held path = before.held path) ↔
      ∀ s, ((readSchema file : OnTree (Except Failure Schema)) before).1 = .ok s →
        before.Spares (targets.outputs s.normalize includeName) := by
  simp only [run, withSchema, OnTree.run_bind, run_readSchema] at hrun
  cases hread : ((readSchema file : OnTree (Except Failure Schema)) before).1 with
  | error f =>
    rw [hread] at hrun
    obtain ⟨rfl, rfl⟩ := Prod.mk.inj hrun
    constructor
    · intro _ s hs
      cases hs
    · intro _ path _
      rfl
  | ok s =>
    rw [hread] at hrun
    simp only [generate, htargets, OnTree.run_bind] at hrun
    cases hwrite : (Disk.writeAll (targets.outputs s.normalize includeName) :
        OnTree (Except LocatedFault Unit)) before with
    | mk result v =>
      rw [hwrite] at hrun
      cases result with
      | ok u =>
        obtain ⟨rfl, rfl⟩ := Prod.mk.inj hrun
        exact absurd rfl hfailed
      | error e =>
        obtain ⟨rfl, rfl⟩ := Prod.mk.inj hrun
        have hnames : ∀ output ∈ targets.outputs s.normalize includeName,
            ¬ FileTree.IsStaging (Path.place output.path) := by
          intro output houtput
          refine Targets.not_isStaging_of_mem_paths htargets ?_
          rw [← Targets.map_path_outputs targets s.normalize includeName]
          exact List.mem_map.2 ⟨output, houtput, rfl⟩
        have hiff := FileTree.writeAll_error_iff hnames hwrite
        rw [← Targets.map_path_outputs targets s.normalize includeName, List.forall_mem_map]
        constructor
        · intro h s' hs'
          obtain rfl := Except.ok.inj hs'
          exact hiff.1 h
        · intro h
          exact hiff.2 (h s rfl)

/-- A schema of one property. -/
def dimmerText : String :=
  "module: \"home.Dimmer\"\n" ++
  "prop \x7b api_name: \"level\" type: Integer access: ReadWrite \x7d\n"

/-- A tree with the schema, where a directory stands in place of the source. -/
def dimmerTree (others : List (Place × Node)) : FileTree where
  nodes := [(["dimmer.sysprop"], .file dimmerText.toUTF8), (["include"], .directory),
    (["src"], .directory), (["src", "dimmer.sysprop.cpp"], .directory)] ++ others

/-- The same tree with a header of an earlier run. -/
def dimmerTreeWithHeader : FileTree :=
  dimmerTree [(["include", "dimmer.sysprop.h"], .file "// earlier\n".toUTF8)]

/-- The command that generates code for the schema. -/
def dimmerCommand : Invocation where
  task := .generate "dimmer.sysprop" "include" "src" "dimmer.h" none false
  verbosity := 0

/-- The targets of that command. -/
def dimmerTargets : Targets where
  header := "include/dimmer.sysprop.h"
  source := "src/dimmer.sysprop.cpp"
  publicHeader := none

/-- Without an earlier header, the failure of the source leaves none. -/
theorem run_generate_spares_absent_header :
    ((run dimmerCommand : OnTree Outcome) (dimmerTree [])).1.exitCode = 2 ∧
      (∀ path ∈ dimmerTargets.paths,
        ((run dimmerCommand : OnTree Outcome) (dimmerTree [])).2.held path =
          (dimmerTree []).held path) ∧
      ∀ s, ((readSchema "dimmer.sysprop" : OnTree (Except Failure Schema)) (dimmerTree [])).1 =
          .ok s → (dimmerTree []).Spares (dimmerTargets.outputs s.normalize "dimmer.h") := by
  have hrun : (run ⟨.generate "dimmer.sysprop" "include" "src" "dimmer.h" none false, 0⟩ :
      OnTree Outcome) (dimmerTree []) =
        (((run dimmerCommand : OnTree Outcome) (dimmerTree [])).1,
          ((run dimmerCommand : OnTree Outcome) (dimmerTree [])).2) := rfl
  have hresult : ((run dimmerCommand : OnTree Outcome) (dimmerTree [])).1.exitCode = 2 ∧
      ∀ path ∈ dimmerTargets.paths,
        ((run dimmerCommand : OnTree Outcome) (dimmerTree [])).2.held path =
          (dimmerTree []).held path := by
    decide +kernel
  obtain ⟨hcode, hheld⟩ := hresult
  have hfailed : ((run dimmerCommand : OnTree Outcome) (dimmerTree [])).1.exitCode ≠ 0 := by
    rw [hcode]
    decide
  have htargets : Targets.ofFile? "dimmer.sysprop" "include" "src" none = some dimmerTargets := by
    decide +kernel
  exact ⟨hcode, hheld, (run_generate_error_iff hrun hfailed htargets).1 hheld⟩

/-- With one, the same failure removes it. -/
theorem run_generate_removes_header :
    Targets.ofFile? "dimmer.sysprop" "include" "src" none = some dimmerTargets ∧
      ((run dimmerCommand : OnTree Outcome) dimmerTreeWithHeader).1.exitCode = 2 ∧
      dimmerTreeWithHeader.held dimmerTargets.header = some (.file "// earlier\n".toUTF8) ∧
      ((run dimmerCommand : OnTree Outcome) dimmerTreeWithHeader).2.held dimmerTargets.header =
        none := by
  decide +kernel

end Command

end PropSchema
