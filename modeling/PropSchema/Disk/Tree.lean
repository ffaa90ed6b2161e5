/-
PropSchema.Disk.Tree — a disk that is a plain value.

A file tree says for each place whether there is a directory, a file with its
content, or nothing. Places are sequences of names from the top, and the top
itself is always a directory. Paths are followed part by part, and every part but
the last has to lead to a directory; there are no links, so `..` is the place one
name shorter.
-/
import PropSchema.Disk.Basic
import PropSchema.Number.Numeral

namespace PropSchema

/-- What there is at a place. -/
inductive Node where
  | directory
  | file (content : ByteArray)

instance : DecidableEq Node
  | .directory, .directory => isTrue rfl
  | .directory, .file _ => isFalse nofun
  | .file _, .directory => isFalse nofun
  | .file a, .file b =>
    if h : a.data = b.data then isTrue (congrArg Node.file (ByteArray.ext h))
    else isFalse fun e => h (by injection e with e; rw [e])

/-- A place: the names that lead to it from the top. -/
abbrev Place : Type :=
  List String

/-- The directories and files below the top, each with its place. -/
structure FileTree where
  nodes : List (Place × Node)

namespace FileTree

/-! ## Nodes -/

/-- The tree with nothing but its top. -/
def empty : FileTree :=
  ⟨[]⟩

/-- What there is at a place. -/
def node? (t : FileTree) (place : Place) : Option Node :=
  if place = [] then some .directory
  else (t.nodes.find? fun n => n.1 = place).map (·.2)

/-- A tree with nothing at a place. -/
def erase (t : FileTree) (place : Place) : FileTree :=
  ⟨t.nodes.filter fun n => n.1 ≠ place⟩

/-- A tree with the given node at a place. -/
def insert (t : FileTree) (place : Place) (node : Node) : FileTree :=
  ⟨(t.erase place).nodes ++ [(place, node)]⟩

theorem node?_erase (t : FileTree) (place other : Place) :
    (t.erase place).node? other
      = if other = [] then some .directory else if other = place then none else t.node? other := by
  unfold node? erase
  split
  · rfl
  · split
    · rename_i h
      subst h
      rw [List.find?_eq_none.2 (fun n hn => by
        have := (List.mem_filter.1 hn).2
        simpa using this)]
      rfl
    · rename_i h
      congr 1
      induction t.nodes with
      | nil => rfl
      | cons n ns ih =>
        by_cases hp : n.1 = place
        · have ho : ¬ n.1 = other := fun e => h (e ▸ hp)
          rw [List.filter_cons_of_neg (by simp [hp]), List.find?_cons_of_neg (by simpa using ho), ih]
        · rw [List.filter_cons_of_pos (by simpa using hp)]
          by_cases ho : n.1 = other
          · rw [List.find?_cons_of_pos (by simpa using ho), List.find?_cons_of_pos (by simpa using ho)]
          · rw [List.find?_cons_of_neg (by simpa using ho), List.find?_cons_of_neg (by simpa using ho),
              ih]

/-- After an insertion there is the new node at its place, and everywhere else
what there was. -/
theorem node?_insert (t : FileTree) (place other : Place) (node : Node) :
    (t.insert place node).node? other
      = if other = [] then some .directory else if other = place then some node
        else t.node? other := by
  have h := t.node?_erase place other
  unfold node? at h ⊢
  unfold insert
  split
  · rfl
  · rename_i hne
    simp only [hne, if_false] at h ⊢
    rw [List.find?_append]
    split
    · rename_i hp
      rw [if_pos hp] at h
      have hnone := Option.map_eq_none_iff.1 h
      rw [hnone, ← hp]
      simp
    · rename_i hp
      rw [if_neg hp] at h
      rw [← h]
      have hp' : ¬ place = other := fun e => hp e.symm
      simp [hp']

/-! ## Following paths -/

/-- The longest name of a file, in bytes. -/
def longestName : Nat := 255

/-- The longest path, in bytes. -/
def longestPath : Nat := 4095

/-- The place that parts of a path lead to from a place. -/
def walk (t : FileTree) : Place → List String → Except DiskFault Place
  | here, [] => .ok here
  | here, part :: parts =>
    match t.node? here with
    | none => .error .noSuchFile
    | some (.file _) => .error .notDirectory
    | some .directory =>
      if Path.isVoid part then walk t here parts
      else if part = ".." then walk t here.dropLast parts
      else if longestName < part.utf8ByteSize then .error .nameTooLong
      else walk t (here ++ [part]) parts

/-- The place that a path leads to, whether or not there is anything. -/
def resolve (t : FileTree) (path : String) : Except DiskFault Place :=
  if path = "" then .error .noSuchFile
  else if longestPath < path.utf8ByteSize then .error .nameTooLong
  else t.walk [] (Text.pieces '/' path)

/-! ## Operations -/

/-- The content of the file that a path leads to. -/
def read (t : FileTree) (path : String) : Except DiskFault ByteArray :=
  match t.resolve path with
  | .error fault => .error fault
  | .ok place =>
    match t.node? place with
    | none => .error .noSuchFile
    | some .directory => .error .isDirectory
    | some (.file content) => .ok content

/-- A tree with a directory where a path leads. -/
def makeDirectory (t : FileTree) (path : String) : Except DiskFault FileTree :=
  match t.resolve path with
  | .error fault => .error fault
  | .ok place =>
    match t.node? place with
    | none => .ok (t.insert place .directory)
    | some _ => .error .alreadyExists

/-- Whether a path leads to a directory. -/
def isDirectory (t : FileTree) (path : String) : Bool :=
  match t.resolve path with
  | .error _ => false
  | .ok place => t.node? place = some .directory

/-- The name of the staged file with the given number. -/
def stagedName (i : Nat) : String :=
  ".tmp" ++ Number.decimalText i

/-- The first name for a staged file that is not in use in a directory. With one
name more than there are nodes, there is one. -/
def freshName (t : FileTree) (directory : Place) : String :=
  let names := (List.range (t.nodes.length + 1)).map stagedName
  (names.find? fun name => t.node? (directory ++ [name]) = none).getD (stagedName 0)

/-- A tree with a text in a new file, and the path of that file. -/
def stage (t : FileTree) (directory text : String) : Except DiskFault (String × FileTree) :=
  match t.resolve (if directory = "" then "." else directory) with
  | .error fault => .error fault
  | .ok place =>
    match t.node? place with
    | none => .error .noSuchFile
    | some (.file _) => .error .notDirectory
    | some .directory =>
      let path := Path.join directory (t.freshName place)
      match t.resolve path with
      | .error fault => .error fault
      | .ok staged => .ok (path, t.insert staged (.file text.toUTF8))

/-- A tree with a file moved to where another path leads. -/
def rename (t : FileTree) (source target : String) : Except DiskFault FileTree :=
  match t.resolve source, t.resolve target with
  | .error fault, _ => .error fault
  | .ok _, .error fault => .error fault
  | .ok sourcePlace, .ok targetPlace =>
    match t.node? sourcePlace, t.node? targetPlace with
    | some (.file _), some .directory => .error .isDirectory
    | some (.file content), _ => .ok ((t.erase sourcePlace).insert targetPlace (.file content))
    | _, _ => .error .noSuchFile

/-- A tree without the file that a path leads to, if there is one. -/
def remove (t : FileTree) (path : String) : FileTree :=
  match t.resolve path with
  | .error _ => t
  | .ok place =>
    match t.node? place with
    | some (.file _) => t.erase place
    | _ => t

/-! ## Building trees -/

/-- A tree with a directory at a place, and directories at all places above. -/
def withDirectory (t : FileTree) (place : Place) : FileTree :=
  (List.range (place.length + 1)).foldl
    (fun t n => if (t.node? (place.take n)).isNone then t.insert (place.take n) .directory else t) t

/-- A tree with a file at a place, and directories at all places above. -/
def withFile (t : FileTree) (place : Place) (content : ByteArray) : FileTree :=
  (t.withDirectory place.dropLast).insert place (.file content)

end FileTree

/-- Programs that work on a file tree. -/
abbrev OnTree : Type → Type :=
  StateM FileTree

/-- An operation that may change the tree, and leaves it alone when it fails. -/
def FileTree.attempt (operation : FileTree → Except DiskFault FileTree) :
    OnTree (Except DiskFault Unit) := fun t =>
  match operation t with
  | .ok t' => (.ok (), t')
  | .error fault => (.error fault, t)

instance : Disk OnTree where
  read path := fun t => (t.read path, t)
  makeDirectory path := FileTree.attempt (·.makeDirectory path)
  isDirectory path := fun t => (t.isDirectory path, t)
  stage directory text := fun t =>
    match t.stage directory text with
    | .ok (path, t') => (.ok path, t')
    | .error fault => (.error fault, t)
  rename source target := FileTree.attempt (·.rename source target)
  remove path := fun t => ((), t.remove path)

end PropSchema
