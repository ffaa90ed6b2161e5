/-
PropSchema.Proofs.Command.Delivery — what a generation that ends well leaves at its
targets.

Exit code 0 means that a schema was loaded and that every file was written, one after
the other. The source has an ending of its own, so it is there, and so is the public
header, which comes last. The two headers have one name: where both go into one
directory, in whatever way that is spelt, the public header is left in place of the
full one, while the report and the digest still tell of the full one.
`run_generate_ok` says exactly when every target holds what was generated for it, and
`run_generate_loses_header` shows a run where one does not.

§1 Targets   — their places.
§2 Commands  — what exit code 0 says.
§3 Delivery  — `run_generate_ok`.
-/
import PropSchema.Proofs.Artifact.DigestInput
import PropSchema.Proofs.Artifact.PublicHeaders
import PropSchema.Proofs.Command.Generate
import PropSchema.Proofs.Disk.Completion

namespace PropSchema

namespace Command

/-! ## §1 Targets -/

namespace Targets

variable {file headerDir sourceDir : String} {publicHeaderDir : Option String} {t : Targets}

/-- Every target is one name below its directory: one for both headers, one for the
source. -/
theorem exists_places (h : ofFile? file headerDir sourceDir publicHeaderDir = some t) :
    ∃ name, Path.place t.header = Path.place headerDir ++ [name ++ ".h"] ∧
      Path.place t.source = Path.place sourceDir ++ [name ++ ".cpp"] ∧
      t.publicHeader.map Path.place =
        publicHeaderDir.map fun directory => Path.place directory ++ [name ++ ".h"] := by
  obtain ⟨name, hname, rfl⟩ := Option.map_eq_some_iff.1 h
  have hheader (directory : String) : Path.place (Path.join directory (name ++ ".h")) =
      Path.place directory ++ [name ++ ".h"] := place_join_name hname (.inl rfl) directory
  have hsource : Path.place (Path.join sourceDir (name ++ ".cpp")) =
      Path.place sourceDir ++ [name ++ ".cpp"] := place_join_name hname (.inr rfl) sourceDir
  refine ⟨name, hheader headerDir, hsource, ?_⟩
  cases publicHeaderDir with
  | none => rfl
  | some directory => exact congrArg some (hheader directory)

/-- The source shares its place with no other target, and the public header with the full
one just if both go into one directory. -/
theorem places_apart (h : ofFile? file headerDir sourceDir publicHeaderDir = some t) :
    Path.place t.source ≠ Path.place t.header ∧
      (∀ path ∈ t.publicHeader, Path.place path ≠ Path.place t.source) ∧
      ((∃ path ∈ t.publicHeader, Path.place path = Path.place t.header) ↔
        ∃ directory ∈ publicHeaderDir, Path.place directory = Path.place headerDir) := by
  obtain ⟨name, hheader, hsource, hpublic⟩ := exists_places h
  have hendings : name ++ ".h" ≠ name ++ ".cpp" := by
    intro heq
    have hlength := congrArg String.length heq
    rw [String.length_append, String.length_append] at hlength
    exact absurd (Nat.add_left_cancel hlength) (by decide)
  have hne (above below : Place) : above ++ [name ++ ".h"] ≠ below ++ [name ++ ".cpp"] :=
    fun heq => hendings (List.cons.inj (List.append_inj_right' heq rfl)).1
  refine ⟨?_, ?_, ?_⟩
  · rw [hsource, hheader]
    exact (hne _ _).symm
  · intro path hpath heq
    have hplace := congrArg (Option.map Path.place) hpath
    rw [hpublic, Option.map_some, heq, hsource, Option.map_eq_some_iff] at hplace
    obtain ⟨directory, _, hdirectory⟩ := hplace
    exact hne _ _ hdirectory
  · have hshared : (∃ path ∈ t.publicHeader, Path.place path = Path.place t.header) ↔
        t.publicHeader.map Path.place = some (Path.place t.header) :=
      Option.map_eq_some_iff.symm
    rw [hshared, hpublic, hheader, Option.map_eq_some_iff]
    simp only [List.append_left_inj, Option.mem_def]

theorem header_mem_paths (t : Targets) : t.header ∈ t.paths :=
  List.mem_cons_self

theorem source_mem_paths (t : Targets) : t.source ∈ t.paths :=
  List.mem_cons_of_mem _ List.mem_cons_self

theorem mem_paths_of_publicHeader {path : String} (h : path ∈ t.publicHeader) : path ∈ t.paths :=
  List.mem_append_right _ (Option.mem_toList.2 h)

end Targets

/-! ## §2 Commands -/

theorem exitCode_ne_zero (f : Failure) : f.exitCode ≠ 0 := by
  unfold Failure.exitCode
  split <;> decide

/-- The schema that is read is the one that the text of the file declares. -/
theorem readSchema_eq_ok_iff {path : String} {t : FileTree} {s : Schema} :
    ((readSchema path : OnTree (Except Failure Schema)) t).1 = .ok s ↔
      ∃ content text, t.read path = .ok content ∧ String.fromUTF8? content = some text ∧
        Schema.declared text = .ok s := by
  rw [readSchema]
  simp only [OnTree.run_bind, OnTree.run_read]
  cases hread : t.read path with
  | error fault => simp
  | ok content =>
    cases htext : String.fromUTF8? content with
    | none => simp [htext]
    | some text =>
      cases hdeclared : Schema.declared text with
      | error e => simp [htext, hdeclared]
      | ok d => simp [htext, hdeclared]

/-- A generation with exit code 0 has loaded a schema and written all its files. -/
theorem run_generate_exitCode_zero {file headerDir sourceDir includeName : String}
    {publicHeaderDir : Option String} {json : Bool} {verbosity : Nat}
    {before after : FileTree} {outcome : Outcome}
    (hrun : (run ⟨.generate file headerDir sourceDir includeName publicHeaderDir json, verbosity⟩ :
      OnTree Outcome) before = (outcome, after))
    (hok : outcome.exitCode = 0) :
    ∃ content text s targets,
      before.read file = .ok content ∧ String.fromUTF8? content = some text ∧
      Schema.load text = .ok s ∧
      Targets.ofFile? file headerDir sourceDir publicHeaderDir = some targets ∧
      (Disk.writeAll (targets.outputs s includeName) : OnTree (Except LocatedFault Unit)) before =
        (.ok (), after) ∧
      outcome.output = targets.report json s includeName := by
  simp only [run, withSchema, OnTree.run_bind, run_readSchema] at hrun
  cases hread : ((readSchema file : OnTree (Except Failure Schema)) before).1 with
  | error f =>
    rw [hread] at hrun
    obtain ⟨rfl, _⟩ := Prod.mk.inj hrun
    exact absurd hok (exitCode_ne_zero f)
  | ok declared =>
    obtain ⟨content, text, hcontent, htext, hdeclared⟩ := readSchema_eq_ok_iff.1 hread
    have hload : Schema.load text = .ok declared.normalize := by
      rw [Schema.load, hdeclared]
      rfl
    rw [hread] at hrun
    simp only [generate] at hrun
    cases htargets : Targets.ofFile? file headerDir sourceDir publicHeaderDir with
    | none =>
      rw [htargets] at hrun
      obtain ⟨rfl, _⟩ := Prod.mk.inj hrun
      exact absurd hok (exitCode_ne_zero (.noFileName file))
    | some targets =>
      rw [htargets] at hrun
      simp only [OnTree.run_bind] at hrun
      cases hwrite : (Disk.writeAll (targets.outputs declared.normalize includeName) :
          OnTree (Except LocatedFault Unit)) before with
      | mk result v =>
        rw [hwrite] at hrun
        cases result with
        | error e =>
          obtain ⟨rfl, _⟩ := Prod.mk.inj hrun
          exact absurd hok (exitCode_ne_zero (.disk e))
        | ok u =>
          obtain ⟨rfl, rfl⟩ := Prod.mk.inj hrun
          exact ⟨content, text, declared.normalize, targets, hcontent, htext, hload, rfl, hwrite,
            rfl⟩

/-! ## §3 Delivery -/

/-- Whether both headers go into one directory, in whatever way it is spelt. -/
def HeadersMeet (headerDir : String) (publicHeaderDir : Option String) : Prop :=
  ∃ directory ∈ publicHeaderDir, Path.place directory = Path.place headerDir

/-- Whether the targets hold the files of a schema in normal form. -/
structure Targets.Hold (t : Targets) (tree : FileTree) (s : Schema) (includeName : String) :
    Prop where
  header : tree.read t.header = .ok s.header.toUTF8
  source : tree.read t.source = .ok (s.source includeName).toUTF8
  publicHeader : ∀ path ∈ t.publicHeader, tree.read path = .ok s.publicHeader.toUTF8

namespace Targets

section Written

variable {file headerDir sourceDir : String} {publicHeaderDir : Option String} {t : Targets}
  {s : Schema} {includeName : String} {before after : FileTree}

theorem outputs_eq (t : Targets) (s : Schema) (includeName : String) :
    t.outputs s includeName = [⟨t.header, s.header⟩] ++ ⟨t.source, s.source includeName⟩ ::
      t.publicHeader.toList.map fun path => ⟨path, s.publicHeader⟩ := by
  simp only [outputs, Schema.artifacts, List.cons_append, List.nil_append]

theorem place_ne_of_mem_publicHeader {place : Place}
    (h : ∀ path ∈ t.publicHeader, Path.place path ≠ place) :
    ∀ output ∈ t.publicHeader.toList.map (Disk.Output.mk · s.publicHeader),
      Path.place output.path ≠ place := by
  intro output houtput
  obtain ⟨path, hpath, rfl⟩ := List.mem_map.1 houtput
  exact h path (Option.mem_toList.1 hpath)

/-- The source is there, since no later output has its place. -/
theorem read_source (h : ofFile? file headerDir sourceDir publicHeaderDir = some t)
    (hwrite : (Disk.writeAll (t.outputs s includeName) : OnTree (Except LocatedFault Unit)) before =
      (.ok (), after)) :
    after.read t.source = .ok (s.source includeName).toUTF8 := by
  obtain ⟨_, hpublic, _⟩ := places_apart h
  refine FileTree.read_of_writeAll_ok (not_isStaging_of_mem_outputs h s includeName) hwrite ?_
    (t.outputs_eq s includeName) rfl (place_ne_of_mem_publicHeader hpublic)
  rw [map_path_outputs]
  exact t.source_mem_paths

/-- The header is there, unless the public one has its place. -/
theorem read_header (h : ofFile? file headerDir sourceDir publicHeaderDir = some t)
    (hwrite : (Disk.writeAll (t.outputs s includeName) : OnTree (Except LocatedFault Unit)) before =
      (.ok (), after))
    (hmeet : ¬ HeadersMeet headerDir publicHeaderDir) :
    after.read t.header = .ok s.header.toUTF8 := by
  obtain ⟨hsource, _, hiff⟩ := places_apart h
  have hpublic : ∀ path ∈ t.publicHeader, Path.place path ≠ Path.place t.header :=
    fun path hpath heq => hmeet (hiff.1 ⟨path, hpath, heq⟩)
  have hsplit : t.outputs s includeName = [] ++ ⟨t.header, s.header⟩ ::
      (⟨t.source, s.source includeName⟩ ::
        t.publicHeader.toList.map (Disk.Output.mk · s.publicHeader)) := by
    rw [outputs_eq, List.nil_append, List.singleton_append]
  refine FileTree.read_of_writeAll_ok (not_isStaging_of_mem_outputs h s includeName) hwrite ?_
    hsplit rfl ?_
  · rw [map_path_outputs]
    exact t.header_mem_paths
  · rw [List.forall_mem_cons]
    exact ⟨hsource, place_ne_of_mem_publicHeader hpublic⟩

/-- The public header comes last, so it is at every target that has its place. -/
theorem read_of_publicHeader (h : ofFile? file headerDir sourceDir publicHeaderDir = some t)
    (hwrite : (Disk.writeAll (t.outputs s includeName) : OnTree (Except LocatedFault Unit)) before =
      (.ok (), after))
    {path target : String} (hpath : path ∈ t.publicHeader) (htarget : target ∈ t.paths)
    (hplace : Path.place path = Path.place target) :
    after.read target = .ok s.publicHeader.toUTF8 := by
  have hsplit : t.outputs s includeName =
      [⟨t.header, s.header⟩, ⟨t.source, s.source includeName⟩] ++ ⟨path, s.publicHeader⟩ :: [] := by
    rw [outputs_eq, Option.mem_def.1 hpath]
    rfl
  refine FileTree.read_of_writeAll_ok (not_isStaging_of_mem_outputs h s includeName) hwrite ?_
    hsplit hplace (by simp)
  rwa [map_path_outputs]

/-- Where the headers meet, it is also at the target of the full one. -/
theorem read_header_of_meet (h : ofFile? file headerDir sourceDir publicHeaderDir = some t)
    (hwrite : (Disk.writeAll (t.outputs s includeName) : OnTree (Except LocatedFault Unit)) before =
      (.ok (), after))
    (hmeet : HeadersMeet headerDir publicHeaderDir) :
    after.read t.header = .ok s.publicHeader.toUTF8 := by
  obtain ⟨_, _, hiff⟩ := places_apart h
  obtain ⟨path, hpath, hplace⟩ := hiff.2 hmeet
  exact read_of_publicHeader h hwrite hpath t.header_mem_paths hplace

/-- The targets hold their files just if the headers do not meet or are the same. -/
theorem hold_iff (h : ofFile? file headerDir sourceDir publicHeaderDir = some t)
    (hwrite : (Disk.writeAll (t.outputs s includeName) : OnTree (Except LocatedFault Unit)) before =
      (.ok (), after)) :
    t.Hold after s includeName ↔
      (HeadersMeet headerDir publicHeaderDir → ∀ p ∈ s.props, p.scope = .exported) := by
  constructor
  · intro hhold hmeet
    have hread := read_header_of_meet h hwrite hmeet
    have hbytes := Except.ok.inj (hread.symm.trans hhold.header)
    exact s.publicHeader_eq_header_iff.1 (String.toByteArray_inj.1 hbytes)
  · intro hsame
    refine ⟨?_, read_source h hwrite, fun path hpath => ?_⟩
    · by_cases hmeet : HeadersMeet headerDir publicHeaderDir
      · rw [read_header_of_meet h hwrite hmeet, s.publicHeader_eq_header_iff.2 (hsame hmeet)]
      · exact read_header h hwrite hmeet
    · exact read_of_publicHeader h hwrite hpath (mem_paths_of_publicHeader hpath) rfl

end Written

/-- The digest is then that of the files as they are read back. -/
theorem Hold.digest {t : Targets} {tree : FileTree} {s : Schema} {includeName : String}
    (h : t.Hold tree s includeName) :
    ∃ header source, tree.read t.header = .ok header ∧ tree.read t.source = .ok source ∧
      (s.artifacts includeName).digest =
        Digest.hex (Digest.sha256 (header.toList ++ source.toList)) := by
  refine ⟨_, _, h.header, h.source, ?_⟩
  rw [Artifacts.digest, Artifacts.digestInput_eq]
  simp only [Schema.artifacts]

end Targets

/-- **What a completed generation leaves.** Exit code 0 means that the file holds a schema
that loads, and that every output was written. The source is at its target, and so is the
public header. Every target holds its own file, and the digest is that of the files that
are there, unless both headers go into one directory and some property is not public: the
full header is then not to be found, since the public one has its place. -/
theorem run_generate_ok {file headerDir sourceDir includeName : String}
    {publicHeaderDir : Option String} {json : Bool} {verbosity : Nat}
    {before after : FileTree} {outcome : Outcome}
    (hrun : (run ⟨.generate file headerDir sourceDir includeName publicHeaderDir json, verbosity⟩ :
      OnTree Outcome) before = (outcome, after))
    (hok : outcome.exitCode = 0) :
    ∃ content text s targets,
      before.read file = .ok content ∧ String.fromUTF8? content = some text ∧
      Schema.load text = .ok s ∧
      Targets.ofFile? file headerDir sourceDir publicHeaderDir = some targets ∧
      outcome.output = targets.report json s includeName ∧
      after.read targets.source = .ok (s.source includeName).toUTF8 ∧
      (∀ path ∈ targets.publicHeader, after.read path = .ok s.publicHeader.toUTF8) ∧
      (HeadersMeet headerDir publicHeaderDir →
        after.read targets.header = .ok s.publicHeader.toUTF8) ∧
      (targets.Hold after s includeName ↔
        (HeadersMeet headerDir publicHeaderDir → ∀ p ∈ s.props, p.scope = .exported)) ∧
      (targets.Hold after s includeName →
        ∃ header source, after.read targets.header = .ok header ∧
          after.read targets.source = .ok source ∧
          (s.artifacts includeName).digest =
            Digest.hex (Digest.sha256 (header.toList ++ source.toList))) := by
  obtain ⟨content, text, s, targets, hcontent, htext, hload, htargets, hwrite, houtput⟩ :=
    run_generate_exitCode_zero hrun hok
  have hpublic : ∀ path ∈ targets.publicHeader, after.read path = .ok s.publicHeader.toUTF8 :=
    fun _ hpath => Targets.read_of_publicHeader htargets hwrite hpath
      (Targets.mem_paths_of_publicHeader hpath) rfl
  exact ⟨content, text, s, targets, hcontent, htext, hload, htargets, houtput,
    Targets.read_source htargets hwrite, hpublic, Targets.read_header_of_meet htargets hwrite,
    Targets.hold_iff htargets hwrite, Targets.Hold.digest⟩

/-- A boiler with a level that all may read, and a number of its own. -/
def boilerText : String :=
  "module: \"home.Boiler\"\n" ++
  "prop \x7b api_name: \"level\" type: Integer access: ReadWrite \x7d\n" ++
  "prop \x7b api_name: \"serial\" type: String scope: Internal \x7d\n"

/-- What the text loads as. -/
def boiler : Schema where
  modulePath := "home.Boiler"
  props := [
    { apiName := "level", type := ⟨.int32, false⟩, access := .readWrite,
      propName := some "level" },
    { apiName := "serial", type := ⟨.string, false⟩, scope := .internal,
      propName := some "ro.serial" }]

/-- A tree with nothing but the text. -/
def boilerTree : FileTree where
  nodes := [(["boiler.sysprop"], .file boilerText.toUTF8)]

/-- The command that generates code for it, with the public header in a given directory. -/
def boilerCommand (publicHeaderDir : String) : Invocation where
  task := .generate "boiler.sysprop" "include" "src" "boiler.h" (some publicHeaderDir) false
  verbosity := 0

/-- The targets of that command. -/
def boilerTargets (publicHeaderDir : String) : Targets where
  header := "include/boiler.sysprop.h"
  source := "src/boiler.sysprop.cpp"
  publicHeader := some (Path.join publicHeaderDir "boiler.sysprop.h")

theorem boiler_of_read {content : ByteArray} {text : String} {s : Schema}
    (hcontent : boilerTree.read "boiler.sysprop" = .ok content)
    (htext : String.fromUTF8? content = some text) (hload : Schema.load text = .ok s) :
    Schema.load boilerText = .ok s ∧ s = boiler := by
  have hread : boilerTree.read "boiler.sysprop" = .ok boilerText.toUTF8 := by decide +kernel
  have hdecoded : String.fromUTF8? boilerText.toUTF8 = some boilerText := by decide +kernel
  have hboiler : Schema.load boilerText = .ok boiler := by decide +kernel
  obtain rfl := Except.ok.inj (hread.symm.trans hcontent)
  obtain rfl := Option.some.inj (hdecoded.symm.trans htext)
  exact ⟨hload, Except.ok.inj (hload.symm.trans hboiler)⟩

/-- In directories of their own, both headers are there. -/
theorem run_generate_keeps_headers_apart :
    ((run (boilerCommand "api") : OnTree Outcome) boilerTree).1.exitCode = 0 ∧
      Schema.load boilerText = .ok boiler ∧
      (boilerTargets "api").Hold ((run (boilerCommand "api") : OnTree Outcome) boilerTree).2
        boiler "boiler.h" := by
  have hrun : (run (boilerCommand "api") : OnTree Outcome) boilerTree =
      (((run (boilerCommand "api") : OnTree Outcome) boilerTree).1,
        ((run (boilerCommand "api") : OnTree Outcome) boilerTree).2) :=
    (Prod.eta _).symm
  have hok : ((run (boilerCommand "api") : OnTree Outcome) boilerTree).1.exitCode = 0 := by
    decide +kernel
  have htargets : Targets.ofFile? "boiler.sysprop" "include" "src" (some "api") =
      some (boilerTargets "api") := by
    decide +kernel
  have hmeet : ¬ HeadersMeet "include" (some "api") := by
    rintro ⟨directory, hdirectory, hplace⟩
    obtain rfl := Option.some.inj hdirectory
    exact absurd hplace (by decide +kernel)
  obtain ⟨content, text, s, targets, hcontent, htext, hload, hfiles, _, _, _, _, hhold, _⟩ :=
    run_generate_ok hrun hok
  obtain ⟨hboiler, rfl⟩ := boiler_of_read hcontent htext hload
  obtain rfl := Option.some.inj (htargets.symm.trans hfiles)
  exact ⟨hok, hboiler, hhold.2 fun h => absurd h hmeet⟩

/-- In one directory, spelt in two ways, the full header is lost, though all is reported
to be well. -/
theorem run_generate_loses_header :
    Schema.load boilerText = .ok boiler ∧
      Targets.ofFile? "boiler.sysprop" "include" "src" (some "./include") =
        some (boilerTargets "./include") ∧
      ((run (boilerCommand "./include") : OnTree Outcome) boilerTree).1.exitCode = 0 ∧
      ((run (boilerCommand "./include") : OnTree Outcome) boilerTree).1.output =
        "wrote include/boiler.sysprop.h\nwrote src/boiler.sysprop.cpp\n" ++
          "wrote ./include/boiler.sysprop.h\n" ∧
      ((run (boilerCommand "./include") : OnTree Outcome) boilerTree).2.read
          "include/boiler.sysprop.h" = .ok boiler.publicHeader.toUTF8 ∧
      boiler.publicHeader ≠ boiler.header := by
  have hrun : (run (boilerCommand "./include") : OnTree Outcome) boilerTree =
      (((run (boilerCommand "./include") : OnTree Outcome) boilerTree).1,
        ((run (boilerCommand "./include") : OnTree Outcome) boilerTree).2) :=
    (Prod.eta _).symm
  have hok : ((run (boilerCommand "./include") : OnTree Outcome) boilerTree).1.exitCode = 0 := by
    decide +kernel
  have htargets : Targets.ofFile? "boiler.sysprop" "include" "src" (some "./include") =
      some (boilerTargets "./include") := by
    decide +kernel
  have hreport : (boilerTargets "./include").report false boiler "boiler.h" =
      "wrote include/boiler.sysprop.h\nwrote src/boiler.sysprop.cpp\n" ++
        "wrote ./include/boiler.sysprop.h\n" := by
    decide +kernel
  have hmeet : HeadersMeet "include" (some "./include") := ⟨"./include", rfl, by decide +kernel⟩
  obtain ⟨content, text, s, targets, hcontent, htext, hload, hfiles, hwrite, houtput⟩ :=
    run_generate_exitCode_zero hrun hok
  obtain ⟨hboiler, rfl⟩ := boiler_of_read hcontent htext hload
  obtain rfl := Option.some.inj (htargets.symm.trans hfiles)
  have hread := Targets.read_header_of_meet htargets hwrite hmeet
  have hne : boiler.publicHeader ≠ boiler.header := by
    rw [Ne, Schema.publicHeader_eq_header_iff]
    decide +kernel
  exact ⟨hboiler, htargets, hok, houtput.trans hreport, hread, hne⟩

end Command

end PropSchema
