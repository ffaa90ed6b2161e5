/-
PropSchema.Disk.Path — paths as texts.

A path is a text whose parts are separated by `/`. Empty parts, and parts that
are a single dot, say nothing; only a leading one is kept, since it tells whether
a path is absolute, or makes it name the current directory. Paths are shown to
the user as they were given, so everything here cuts and joins texts and resolves
nothing.
-/
import PropSchema.Text.Split

namespace PropSchema.Path

/-- Whether a part of a path says nothing. -/
def isVoid (part : String) : Bool :=
  part = "" || part = "."

/-- The parts of a path, last part first. -/
def partsFromEnd (path : String) : List String :=
  (Text.pieces '/' path).reverse

/-- Parts without the void ones at their front, the last part of all staying. -/
def dropVoid : List String → List String
  | part :: next :: parts => if isVoid part then dropVoid (next :: parts) else part :: next :: parts
  | parts => parts

/-- The path made of parts, last part first. -/
def ofPartsFromEnd (parts : List String) : String :=
  let path := Text.joined '/' parts.reverse
  if path = "" ∧ parts ≠ [] then "/" else path

/-- The path of the directory that a path's last part is in, as far as the path
names it: empty for a path of one part. -/
def parent (path : String) : String :=
  match dropVoid (partsFromEnd path) with
  | _ :: next :: parts => ofPartsFromEnd (dropVoid (next :: parts))
  | _ => ""

/-- The last part of a path, if it names something in a directory. -/
def fileName? (path : String) : Option String :=
  match dropVoid (partsFromEnd path) with
  | [] => none
  | part :: _ => if isVoid part ∨ part = ".." then none else some part

/-- The path of a file in a directory. -/
def join (directory name : String) : String :=
  if directory = "" ∨ directory.toList.getLast? = some '/' then directory ++ name
  else directory ++ "/" ++ name

/-- A path and the paths of the directories above it, as far as it names them,
with a bound on their number. -/
def ancestorsUpTo : Nat → String → List String
  | 0, _ => []
  | bound + 1, path => if path = "" then [] else path :: ancestorsUpTo bound (parent path)

/-- A path and the paths of the directories above it, as far as it names them.
There are no more than it has parts. -/
def ancestors (path : String) : List String :=
  ancestorsUpTo (partsFromEnd path).length path

end PropSchema.Path
