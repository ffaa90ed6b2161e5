/-
PropSchema.Main — the command line on the disk of the machine.
-/
import PropSchema.Command.Run

namespace PropSchema

/-- The code that the system gave for a failure. -/
def systemCode : IO.Error → UInt32
  | .alreadyExists _ code _ => code
  | .otherError code _ => code
  | .resourceBusy code _ => code
  | .resourceVanished code _ => code
  | .unsupportedOperation code _ => code
  | .hardwareFault code _ => code
  | .unsatisfiedConstraints code _ => code
  | .illegalOperation code _ => code
  | .protocolError code _ => code
  | .timeExpired code _ => code
  | .interrupted _ code _ => code
  | .noFileOrDirectory _ code _ => code
  | .invalidArgument _ code _ => code
  | .permissionDenied _ code _ => code
  | .resourceExhausted _ code _ => code
  | .inappropriateType _ code _ => code
  | .noSuchThing _ code _ => code
  | .unexpectedEof => 0
  | .userError _ => 0

/-- A code without its sign: some operations of the system give it negated. -/
def unsignedCode (code : UInt32) : UInt32 :=
  if code < 0x80000000 then code else 0 - code

/-- The failure that an error of the system stands for. -/
def faultOf (e : IO.Error) : DiskFault :=
  match unsignedCode (systemCode e) with
  | 2 => .noSuchFile
  | 17 => .alreadyExists
  | 20 => .notDirectory
  | 21 => .isDirectory
  | 36 => .nameTooLong
  | _ => .other (toString e)

/-- The result of an action, its errors as failures. -/
def guarded {α : Type} (action : IO α) : IO (Except DiskFault α) := do
  match ← action.toBaseIO with
  | .ok a => return .ok a
  | .error e => return .error (faultOf e)

/-- Removes a file, if there is one. -/
def removeQuietly (path : String) : IO Unit := do
  match ← guarded (IO.FS.removeFile path) with
  | .ok () => return ()
  | .error _ => return ()

/-- Writes a text to a new file in a directory, trying names until one is not in
use. -/
partial def stageFrom (attempt : Nat) (directory text : String) : IO (Except DiskFault String) := do
  let path := Path.join directory (".tmp" ++ Number.decimalText attempt)
  match ← guarded (IO.FS.Handle.mk path .writeNew) with
  | .error .alreadyExists => stageFrom (attempt + 1) directory text
  | .error fault => return .error fault
  | .ok handle =>
    match ← guarded (do handle.putStr text; handle.flush) with
    | .ok () => return .ok path
    | .error fault =>
      removeQuietly path
      return .error fault

instance : Disk IO where
  read path := guarded (IO.FS.readBinFile path)
  makeDirectory path := guarded (IO.FS.createDir path)
  isDirectory path := do return (← ((← IO.currentDir) / path).isDir)
  stage directory text := do stageFrom (← IO.monoNanosNow) directory text
  rename source target := guarded (IO.FS.rename source target)
  remove path := removeQuietly path

/-- Tells the user an outcome. -/
def tell (outcome : Command.Outcome) : IO UInt32 := do
  for notice in outcome.notices do
    IO.eprintln ("WARN " ++ notice)
  IO.print outcome.output
  match outcome.problem with
  | some problem => IO.eprintln ("error: " ++ problem)
  | none => pure ()
  return UInt32.ofNat outcome.exitCode

/-- How commands are called. -/
def usage : String :=
  "Usage: sysprop [-v] validate FILE [--json]\n" ++
  "       sysprop [-v] normalize FILE\n" ++
  "       sysprop [-v] cpp FILE --header-dir DIR --source-dir DIR --include-name NAME\n" ++
  "                        [--public-header-dir DIR] [--json]\n" ++
  "       sysprop version\n"

end PropSchema

/-- The command line. -/
def main (arguments : List String) : IO UInt32 := do
  match PropSchema.Command.Request.ofArguments arguments with
  | .showVersion =>
    IO.print PropSchema.Command.versionLine
    return 0
  | .showHelp =>
    IO.print PropSchema.usage
    return 0
  | .misused =>
    IO.eprint PropSchema.usage
    return 2
  | .run invocation => PropSchema.tell (← PropSchema.Command.run invocation)
