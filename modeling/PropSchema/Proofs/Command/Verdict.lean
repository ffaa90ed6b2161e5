/-
PropSchema.Proofs.Command.Verdict — the commands agree on which files hold a schema.

Every command reads its schema file in the same way and first of all. If the text of the file
does not load, each ends with exit code 1 and one message, and the tree is as it was, also
where directories would have been made. If it loads, the two commands that write nothing
succeed, and generating code fails for no reason that has to do with the schema: what remains
are failures of the disk, since a path that leads to a file ends in a name.

§1 Commands — what a command makes of a file that can be read.
§2 Verdicts — `commands_agree`.
-/
import PropSchema.Command.Run
import PropSchema.Proofs.Disk.FileNames
import PropSchema.Proofs.Disk.Rollback
import PropSchema.Proofs.Schema.Interchange
import PropSchema.Proofs.Schema.Loading

namespace PropSchema

namespace Command

/-! ## §1 Commands -/

/-- The schema file that a task is about. -/
def Task.file? : Task → Option String
  | .validate file _ => some file
  | .normalize file => some file
  | .generate file _ _ _ _ _ => some file
  | .version => none

variable {t : FileTree} {path text : String} {content : ByteArray}

/-- A text that can be read is taken for the schema that it declares. -/
theorem run_readSchema_of_read (hread : t.read path = .ok content)
    (htext : String.fromUTF8? content = some text) :
    (readSchema path : OnTree (Except Failure Schema)) t =
      ((Schema.declared text).mapError (.schema path), t) := by
  rw [readSchema]
  simp only [OnTree.run_bind, OnTree.run_read, hread, htext]
  cases Schema.declared text <;> rfl

/-- A command about a text that does not load does nothing but say so. -/
theorem run_withSchema_of_error (hread : t.read path = .ok content)
    (htext : String.fromUTF8? content = some text) {e : SchemaError}
    (hload : Schema.load text = .error e) (verbosity : Nat) (json : Bool)
    (command : Schema → OnTree (Except Failure String)) :
    (withSchema verbosity json path command : OnTree Outcome) t =
      (.ofFailure json (.schema path e), t) := by
  have hdeclared : Schema.declared text = .error e := by
    rw [Schema.load] at hload
    cases hdeclared : Schema.declared text with
    | error e' => rw [hdeclared] at hload; exact hload
    | ok d => rw [hdeclared] at hload; cases hload
  rw [withSchema, OnTree.run_bind, run_readSchema_of_read hread htext, hdeclared]
  rfl

/-- So does every task about it. -/
theorem run_of_error (hread : t.read path = .ok content)
    (htext : String.fromUTF8? content = some text) {e : SchemaError}
    (hload : Schema.load text = .error e) {task : Task} (htask : task.file? = some path)
    (verbosity : Nat) :
    ∃ json, (run ⟨task, verbosity⟩ : OnTree Outcome) t =
      (.ofFailure json (.schema path e), t) := by
  have hrun := run_withSchema_of_error hread htext hload verbosity
  cases task with
  | validate file json =>
    obtain rfl := Option.some.inj htask
    rw [run]
    exact ⟨json, hrun json _⟩
  | normalize file =>
    obtain rfl := Option.some.inj htask
    rw [run]
    exact ⟨false, hrun false _⟩
  | generate file headerDir sourceDir includeName publicHeaderDir json =>
    obtain rfl := Option.some.inj htask
    rw [run]
    exact ⟨json, hrun json _⟩
  | version => cases htask

/-- A command about a text that loads is carried out on the schema in normal form, and its
outcome is that of the command. -/
theorem run_withSchema_of_ok (hread : t.read path = .ok content)
    (htext : String.fromUTF8? content = some text) {s : Schema}
    (hload : Schema.load text = .ok s) (verbosity : Nat) (json : Bool)
    (command : Schema → OnTree (Except Failure String)) :
    ∃ outcome, (withSchema verbosity json path command : OnTree Outcome) t =
        (outcome, (command s t).2) ∧
      (∀ output, (command s t).1 = .ok output → outcome.exitCode = 0 ∧ outcome.output = output) ∧
      ∀ f, (command s t).1 = .error f → outcome.exitCode = f.exitCode := by
  rw [Schema.load] at hload
  cases hdeclared : Schema.declared text with
  | error e => rw [hdeclared] at hload; cases hload
  | ok d =>
    rw [hdeclared] at hload
    obtain rfl := Except.ok.inj hload
    rw [withSchema, OnTree.run_bind, run_readSchema_of_read hread htext, hdeclared]
    simp only [Except.mapError, OnTree.run_bind]
    cases (command d.normalize t).1 with
    | error f => exact ⟨_, rfl, nofun, fun f' hf => by rw [← Except.error.inj hf]; rfl⟩
    | ok output => exact ⟨_, rfl, fun output' ho => ⟨rfl, Except.ok.inj ho⟩, nofun⟩

/-- Generating code for a schema that was read fails with no code but that of the disk. -/
theorem exitCode_of_generate_error {file headerDir sourceDir includeName : String}
    {publicHeaderDir : Option String} {json : Bool} {s : Schema} {f : Failure}
    (hname : ∃ name, Path.fileName? file = some name)
    (h : ((generate file headerDir sourceDir includeName publicHeaderDir json s :
      OnTree (Except Failure String)) t).1 = .error f) : f.exitCode = 2 := by
  obtain ⟨name, hname⟩ := hname
  rw [generate, Targets.ofFile?, hname, Option.map_some] at h
  simp only [OnTree.run_bind] at h
  generalize (Disk.writeAll _ : OnTree (Except LocatedFault Unit)) t = written at h
  obtain ⟨result, u⟩ := written
  cases result with
  | error e =>
    obtain rfl := Except.error.inj h
    rfl
  | ok => cases h

/-- A schema is read back from the report that shows it. -/
theorem ofJson?_schemaReport (s : Schema) :
    (Json.parse? (schemaReport s)).bind Schema.ofJson? = some s := by
  have hbefore : Json.IsBlank "".toList := Json.isBlank_nil
  have hafter : Json.IsBlank "\n".toList := by simp [Json.IsBlank, Json.isSpace]
  have hread := Schema.ofJson?_of_spells s.spells_pretty hbefore hafter
  rwa [String.empty_append] at hread

/-! ## §2 Verdicts -/

/-- **The commands agree on what a valid schema is**, for every file that can be read and whose
content is text. If the text does not load, every command about the file, with whatever
options, ends with exit code 1 and the message of that failure behind the path, and leaves the
tree as it is. If it loads as a schema, validating it and writing it in normal form end with
exit code 0, and generating code never ends with 1; what is written is JSON of that very
schema, which keeps all rules and is in normal form already. -/
theorem commands_agree {t : FileTree} {path text : String} {content : ByteArray}
    (hread : t.read path = .ok content) (htext : String.fromUTF8? content = some text) :
    (∀ e, Schema.load text = .error e →
      ∀ task : Task, task.file? = some path → ∀ verbosity,
        ∃ outcome, (run ⟨task, verbosity⟩ : OnTree Outcome) t = (outcome, t) ∧
          outcome.exitCode = 1 ∧
          outcome.problem = some ("Schema error: " ++ path ++ ": " ++ e.detail)) ∧
    ∀ s, Schema.load text = .ok s →
      (∀ json verbosity, ∃ outcome,
        (run ⟨.validate path json, verbosity⟩ : OnTree Outcome) t = (outcome, t) ∧
          outcome.exitCode = 0) ∧
      (∀ verbosity, ∃ outcome,
        (run ⟨.normalize path, verbosity⟩ : OnTree Outcome) t = (outcome, t) ∧
          outcome.exitCode = 0 ∧
          (Json.parse? outcome.output).bind Schema.ofJson? = some s) ∧
      (∀ headerDir sourceDir includeName publicHeaderDir json verbosity,
        ((run ⟨.generate path headerDir sourceDir includeName publicHeaderDir json, verbosity⟩ :
          OnTree Outcome) t).1.exitCode ≠ 1) ∧
      s.verify = .ok () ∧ s.normalize = s := by
  refine ⟨fun e hload task htask verbosity => ?_, fun s hload => ⟨?_, ?_, ?_, ?_, ?_⟩⟩
  · obtain ⟨json, hrun⟩ := run_of_error hread htext hload htask verbosity
    exact ⟨_, hrun, rfl, rfl⟩
  · intro json verbosity
    obtain ⟨outcome, hrun, hok, _⟩ := run_withSchema_of_ok hread htext hload verbosity json
      fun s => return .ok (validReport json s)
    exact ⟨outcome, hrun, (hok _ rfl).1⟩
  · intro verbosity
    obtain ⟨outcome, hrun, hok, _⟩ := run_withSchema_of_ok hread htext hload verbosity false
      fun s => return .ok (schemaReport s)
    obtain ⟨hcode, houtput⟩ := hok _ rfl
    refine ⟨outcome, hrun, hcode, ?_⟩
    rw [houtput, ofJson?_schemaReport]
  · intro headerDir sourceDir includeName publicHeaderDir json verbosity
    obtain ⟨outcome, hrun, hok, herror⟩ := run_withSchema_of_ok hread htext hload verbosity json
      (generate path headerDir sourceDir includeName publicHeaderDir json)
    have hcode : outcome.exitCode ≠ 1 := by
      cases hresult : ((generate path headerDir sourceDir includeName publicHeaderDir json s :
          OnTree (Except Failure String)) t).1 with
      | error f =>
        have hdisk := exitCode_of_generate_error (Path.exists_fileName?_of_read hread) hresult
        rw [herror f hresult, hdisk]
        decide
      | ok output =>
        rw [(hok output hresult).1]
        decide
    exact fun h => hcode ((congrArg (fun result => result.1.exitCode) hrun).symm.trans h)
  · exact Schema.verify_eq_ok_iff_valid.2 (Schema.valid_of_load hload)
  · obtain ⟨d, _, _, rfl⟩ := Schema.load_eq_ok_iff.1 hload
    exact d.normalize_normalize

/-- A doorbell with a tune of its own. -/
def doorbellText : String :=
  "module: \"home.Doorbell\"\n" ++
  "prop \x7b api_name: \"tune\" type: Enum scope: System enum_values: \"ding|dong\" \x7d\n"

/-- A doorbell of the platform whose volume belongs to a vendor. -/
def brokenDoorbellText : String :=
  "module: \"home.Doorbell\"\n" ++
  "prop \x7b api_name: \"volume\" type: Integer access: ReadWrite " ++
  "prop_name: \"vendor.volume\" \x7d\n"

/-- What the first text loads as. -/
def doorbell : Schema where
  modulePath := "home.Doorbell"
  props := [
    { apiName := "tune", type := ⟨.enumeration, false⟩, propName := some "ro.tune",
      enumValues := "ding|dong" }]

/-- A tree with both texts in one directory, and nothing else. -/
def doorbellTree : FileTree where
  nodes := [(["home"], .directory), (["home", "bell"], .file doorbellText.toUTF8),
    (["home", "broken"], .file brokenDoorbellText.toUTF8)]

/-- The broken doorbell is refused before a directory is made for it, and nothing is wrong with
the other, though its code cannot be written where a file is in the way. -/
theorem doorbell_verdicts :
    doorbellTree.read "home/../home/broken" = .ok brokenDoorbellText.toUTF8 ∧
      Schema.load brokenDoorbellText = .error (.invalid (.foreignKey .platform "vendor.volume")) ∧
      (∃ outcome, (run ⟨.generate "home/../home/broken" "new/include" "home" "bell.h" none true,
        0⟩ : OnTree Outcome) doorbellTree = (outcome, doorbellTree) ∧ outcome.exitCode = 1 ∧
          outcome.problem = some ("Schema error: home/../home/broken: Prop \"vendor.volume\" " ++
            "owned by platform cannot have vendor. or odm. namespace")) ∧
      doorbellTree.read "home//bell" = .ok doorbellText.toUTF8 ∧
      Schema.load doorbellText = .ok doorbell ∧
      (∃ outcome, (run ⟨.normalize "home//bell", 2⟩ : OnTree Outcome) doorbellTree =
        (outcome, doorbellTree) ∧ outcome.exitCode = 0 ∧
          (Json.parse? outcome.output).bind Schema.ofJson? = some doorbell) ∧
      ((run ⟨.generate "home//bell" "home/bell" "home" "bell.h" none false, 0⟩ : OnTree Outcome)
        doorbellTree).1.exitCode ≠ 1 := by
  have hbroken : doorbellTree.read "home/../home/broken" = .ok brokenDoorbellText.toUTF8 := by
    decide +kernel
  have hbrokenText : String.fromUTF8? brokenDoorbellText.toUTF8 = some brokenDoorbellText := by
    decide +kernel
  have hrefused : Schema.load brokenDoorbellText =
      .error (.invalid (.foreignKey .platform "vendor.volume")) := by
    decide +kernel
  have hbell : doorbellTree.read "home//bell" = .ok doorbellText.toUTF8 := by decide +kernel
  have hbellText : String.fromUTF8? doorbellText.toUTF8 = some doorbellText := by decide +kernel
  have hload : Schema.load doorbellText = .ok doorbell := by decide +kernel
  obtain ⟨outcome, hrun, hcode, hproblem⟩ := (commands_agree hbroken hbrokenText).1 _ hrefused
    (.generate "home/../home/broken" "new/include" "home" "bell.h" none true) rfl 0
  obtain ⟨_, hnormalize, hgenerate, _⟩ := (commands_agree hbell hbellText).2 _ hload
  exact ⟨hbroken, hrefused, ⟨outcome, hrun, hcode, hproblem.trans (by decide +kernel)⟩, hbell,
    hload, hnormalize 2, hgenerate "home/bell" "home" "bell.h" none false 0⟩

end Command

end PropSchema
