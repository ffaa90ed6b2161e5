/-
PropSchema.Command.Run — the commands.

Every command reads its schema in the same way, so that they agree on which
files hold a valid one and on the message about the others. Only the command that
generates code writes to the disk, and only after everything it writes has been
computed.
-/
import PropSchema.Artifact.Basic
import PropSchema.Command.Invocation
import PropSchema.Command.Report

namespace PropSchema.Command

variable {m : Type → Type} [Monad m] [Disk m]

/-- The valid schema that a file declares, as it is declared. -/
def readSchema (path : String) : m (Except Failure Schema) := do
  match ← Disk.read path with
  | .error fault => return .error (.disk ⟨path, fault⟩)
  | .ok content =>
    match String.fromUTF8? content with
    | none => return .error (.disk ⟨path, .notText⟩)
    | some text =>
      match Schema.declared text with
      | .error e => return .error (.schema path e)
      | .ok s => return .ok s

/-! ## Generating code -/

/-- Where generated files go. -/
structure Targets where
  header : String
  source : String
  publicHeader : Option String
  deriving DecidableEq, Repr

namespace Targets

/-- The targets for a schema file in the given directories: the file's name with
an ending for each sort of file. -/
def ofFile? (file headerDir sourceDir : String) (publicHeaderDir : Option String) :
    Option Targets :=
  (Path.fileName? file).map fun name =>
    { header := Path.join headerDir (name ++ ".h")
      source := Path.join sourceDir (name ++ ".cpp")
      publicHeader := publicHeaderDir.map fun directory => Path.join directory (name ++ ".h") }

/-- The targets in the order in which they are written. -/
def paths (t : Targets) : List String :=
  [t.header, t.source] ++ t.publicHeader.toList

/-- The files to be written for a schema in normal form. -/
def outputs (t : Targets) (s : Schema) (includeName : String) : List Disk.Output :=
  let artifacts := s.artifacts includeName
  [⟨t.header, artifacts.header⟩, ⟨t.source, artifacts.source⟩] ++
    t.publicHeader.toList.map fun path => ⟨path, s.publicHeader⟩

/-- The report on files that have been written. -/
def report (t : Targets) (json : Bool) (s : Schema) (includeName : String) : String :=
  if json then
    lineOf (Json.ofMembers [("digest", .ofText (s.artifacts includeName).digest),
      ("header", .ofText t.header), ("module", .ofText s.modulePath), ("ok", .bool true),
      ("public_header", (t.publicHeader.map Json.ofText).getD .null),
      ("source", .ofText t.source)]).line
  else String.join (t.paths.map fun path => lineOf ("wrote " ++ path))

end Targets

/-- Writes the files for a schema in normal form, and reports on them. -/
def generate (file headerDir sourceDir includeName : String) (publicHeaderDir : Option String)
    (json : Bool) (s : Schema) : m (Except Failure String) := do
  match Targets.ofFile? file headerDir sourceDir publicHeaderDir with
  | none => return .error (.noFileName file)
  | some targets =>
    match ← Disk.writeAll (targets.outputs s includeName) with
    | .error e => return .error (.disk e)
    | .ok () => return .ok (targets.report json s includeName)

/-! ## All commands -/

/-- The outcome of a command about the schema in a file, given what the command
makes of the schema in normal form. -/
def withSchema (verbosity : Nat) (json : Bool) (path : String)
    (command : Schema → m (Except Failure String)) : m Outcome := do
  match ← readSchema path with
  | .error f => return .ofFailure json f
  | .ok declared =>
    let notices := noticesOf verbosity path declared
    match ← command declared.normalize with
    | .error f => return { Outcome.ofFailure json f with notices }
    | .ok output => return { output, notices }

/-- Carries out an invocation. -/
def run (invocation : Invocation) : m Outcome :=
  match invocation.task with
  | .validate file json =>
    withSchema invocation.verbosity json file fun s => return .ok (validReport json s)
  | .normalize file =>
    withSchema invocation.verbosity false file fun s => return .ok (schemaReport s)
  | .generate file headerDir sourceDir includeName publicHeaderDir json =>
    withSchema invocation.verbosity json file
      (generate file headerDir sourceDir includeName publicHeaderDir json)
  | .version => return { output := versionsLine }

end PropSchema.Command
