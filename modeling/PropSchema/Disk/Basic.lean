/-
PropSchema.Disk.Basic — what the program asks of a disk, and writing several
files as one.

`Disk` lists the few operations that are needed, each with its failures as
values, so that the same program runs on the disk of the machine and on a file
tree that is a plain value. `writeAll` is written once over it. It goes in three
phases: every directory is made first, then every file is staged under a name of
its own beside its target, and only when all are staged are they renamed to their
targets one after the other. If one of the renamings fails, the targets renamed
before it are removed.
-/
import PropSchema.Disk.Path

namespace PropSchema

/-- Why a disk operation fails. -/
inductive DiskFault where
  | noSuchFile
  | alreadyExists
  | notDirectory
  | isDirectory
  | nameTooLong
  | notText
  | other (description : String)
  deriving DecidableEq, Repr

/-- The wording of a failure. -/
def DiskFault.message : DiskFault → String
  | .noSuchFile => "No such file or directory (os error 2)"
  | .alreadyExists => "File exists (os error 17)"
  | .notDirectory => "Not a directory (os error 20)"
  | .isDirectory => "Is a directory (os error 21)"
  | .nameTooLong => "File name too long (os error 36)"
  | .notText => "stream did not contain valid UTF-8"
  | .other description => description

/-- A disk that a program in the given monad works on. -/
class Disk (m : Type → Type) where
  /-- The content of a file. -/
  read : String → m (Except DiskFault ByteArray)
  /-- Makes a directory in a directory that exists. -/
  makeDirectory : String → m (Except DiskFault Unit)
  /-- Whether a path leads to a directory. -/
  isDirectory : String → m Bool
  /-- Writes a text to a new file in a directory, under a name that is not in use
  there, and gives the path of that file. The empty path is the current
  directory. -/
  stage : (directory text : String) → m (Except DiskFault String)
  /-- Renames a file, in place of the file that had the new name. -/
  rename : (source target : String) → m (Except DiskFault Unit)
  /-- Removes a file, if there is one. -/
  remove : String → m Unit

/-- A failure and the path it happened on. -/
structure LocatedFault where
  path : String
  fault : DiskFault
  deriving DecidableEq, Repr

namespace Disk

variable {m : Type → Type} [Monad m] [Disk m]

/-! ## Directories -/

/-- Makes a directory, unless there already is one. -/
def ensureDirectory (path : String) : m (Except DiskFault Unit) := do
  match ← makeDirectory path with
  | .ok () => return .ok ()
  | .error fault => return if ← isDirectory path then .ok () else .error fault

/-- Makes the first of the given directories, each of which is in the next one,
and before it those of the others that it takes. -/
def ensureChain : List String → m (Except DiskFault Unit)
  | [] => return .ok ()
  | path :: above => do
    match ← makeDirectory path with
    | .ok () => return .ok ()
    | .error .noSuchFile =>
      match ← ensureChain above with
      | .error fault => return .error fault
      | .ok () => ensureDirectory path
    | .error fault => return if ← isDirectory path then .ok () else .error fault

/-- Makes a directory with the directories above it. -/
def ensureDirectories (path : String) : m (Except DiskFault Unit) :=
  ensureChain (Path.ancestors path)

/-! ## Writing several files -/

/-- A file to be written. -/
structure Output where
  path : String
  text : String
  deriving DecidableEq, Repr

/-- A file that is staged: where it is, and where it is to be. -/
structure Staged where
  path : String
  target : String
  deriving DecidableEq, Repr

/-- Makes the directories of all outputs. -/
def prepare : List Output → m (Except LocatedFault Unit)
  | [] => return .ok ()
  | output :: outputs => do
    let directory := Path.parent output.path
    match ← ensureDirectories directory with
    | .error fault => return .error ⟨directory, fault⟩
    | .ok () => prepare outputs

/-- Removes staged files. -/
def discard : List Staged → m Unit
  | [] => return ()
  | file :: files => do
    remove file.path
    discard files

/-- Stages all outputs. If one cannot be staged, none stays staged. -/
def stageAll (done : List Staged) : List Output → m (Except LocatedFault (List Staged))
  | [] => return .ok done.reverse
  | output :: outputs => do
    let directory := Path.parent output.path
    match ← stage directory output.text with
    | .error fault =>
      discard done
      return .error ⟨directory, fault⟩
    | .ok path => stageAll (⟨path, output.path⟩ :: done) outputs

/-- Removes the files at the given targets. -/
def removeAll : List String → m Unit
  | [] => return ()
  | path :: paths => do
    remove path
    removeAll paths

/-- Renames staged files to their targets. If one cannot be renamed, the targets
renamed so far are removed, and so are the files still staged. -/
def commitAll (done : List String) : List Staged → m (Except LocatedFault Unit)
  | [] => return .ok ()
  | file :: files => do
    match ← rename file.path file.target with
    | .ok () => commitAll (done ++ [file.target]) files
    | .error fault =>
      removeAll done
      discard (file :: files)
      return .error ⟨file.target, fault⟩

/-- Writes all outputs, or reports what prevents it. -/
def writeAll (outputs : List Output) : m (Except LocatedFault Unit) := do
  match ← prepare outputs with
  | .error e => return .error e
  | .ok () =>
    match ← stageAll [] outputs with
    | .error e => return .error e
    | .ok staged => commitAll [] staged

end Disk

end PropSchema
