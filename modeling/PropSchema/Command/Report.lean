/-
PropSchema.Command.Report — what a command tells its user.

A command prints to standard output, and its success is told by an exit code.
What goes wrong is told as one message. With `--json` the report is a line of
JSON, whose members come in alphabetical order; a message is then reported there
as well.
-/
import PropSchema.Disk.Basic
import PropSchema.Schema.Json
import PropSchema.Schema.Load

namespace PropSchema.Command

/-- Why a command fails. -/
inductive Failure where
  | schema (path : String) (e : SchemaError)
  | noFileName (path : String)
  | disk (e : LocatedFault)
  deriving DecidableEq, Repr

namespace Failure

/-- The wording of a failure. -/
def message : Failure → String
  | .schema path e => "Schema error: " ++ path ++ ": " ++ e.detail
  | .noFileName path => "Schema error: " ++ path ++ " does not name a file"
  | .disk e => "I/O error on " ++ e.path ++ ": " ++ e.fault.message

/-- Whether it is the schema that is at fault, and not the disk. -/
def isSchema : Failure → Bool
  | .schema _ _ => true
  | .noFileName _ => true
  | .disk _ => false

/-- The exit code of a failure. -/
def exitCode (f : Failure) : Nat :=
  if f.isSchema then 1 else 2

/-- A failure as a line of JSON. -/
def json (f : Failure) : Json :=
  .ofMembers [("error", .ofText f.message), ("kind", .ofText (if f.isSchema then "schema" else "io")),
    ("ok", .bool false)]

end Failure

/-- What a command leaves its user with. -/
structure Outcome where
  exitCode : Nat := 0
  /-- All of standard output. -/
  output : String := ""
  /-- The message about what went wrong. -/
  problem : Option String := none
  /-- The notices about the schema that was read. -/
  notices : List String := []
  deriving DecidableEq, Repr

/-- A text as a line. -/
def lineOf (text : String) : String :=
  text ++ "\n"

/-- The outcome of a failure. -/
def Outcome.ofFailure (json : Bool) (f : Failure) : Outcome :=
  { exitCode := f.exitCode
    output := if json then lineOf f.json.line else ""
    problem := some f.message }

/-- A notice as it is logged: behind the name of the property's field, and from
verbosity 2 on with what was going on. -/
def noticeText (verbosity : Nat) (path : String) (d : Deprecation) : String :=
  (if 2 ≤ verbosity then "load_schema\x7bpath=" ++ path ++ "\x7d: " else "") ++
    d.message ++ " api_name=" ++ d.apiName

/-- The notices about a schema. -/
def noticesOf (verbosity : Nat) (path : String) (declared : Schema) : List String :=
  declared.deprecations.map (noticeText verbosity path)

/-! ## Reports of success -/

/-- The version of the program. -/
def versionNumber : String :=
  "0.1.0"

/-- The line that tells the version when only that is asked. -/
def versionLine : String :=
  lineOf ("sysprop " ++ versionNumber)

/-- The line that tells the versions of the program and its core. -/
def versionsLine : String :=
  lineOf ("sysprop " ++ versionNumber ++ " (sysprop-core " ++ versionNumber ++ ")")

/-- The report on a valid schema. -/
def validReport (json : Bool) (s : Schema) : String :=
  if json then
    lineOf (Json.ofMembers [("module", .ofText s.modulePath), ("ok", .bool true),
      ("owner", Vocabulary.toJson s.owner), ("props", .ofInt s.props.length)]).line
  else
    lineOf ("valid: " ++ s.modulePath ++ " (" ++ Number.decimalText s.props.length ++
      " properties)")

/-- A schema over several lines. -/
def schemaReport (s : Schema) : String :=
  lineOf s.toJson.pretty

end PropSchema.Command
