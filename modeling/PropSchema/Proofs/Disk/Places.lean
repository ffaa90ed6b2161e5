/-
PropSchema.Proofs.Disk.Places — where paths lead, and what the operations change.

There are no links in a file tree, so the place a path names depends on the path
alone; the tree only decides whether the path can be followed to it. That in turn
depends on nothing but which places are directories, so a path that leads
somewhere leads there as long as no directory comes or goes.

§1 Places      — `Path.place`, and the place of a file in a directory.
§2 Following   — `resolve_eq_place`, `resolve_mono`, `SameDirectories.resolve`.
§3 Names       — staged files have temporary names, and fresh ones.
§4 Operations  — one law for each operation of a file tree.
-/
import PropSchema.Disk.Tree
import PropSchema.Proofs.Number.Texts

namespace PropSchema

/-! ## §1 Places -/

namespace Path

/-- The place that parts lead to from a place, if they can be followed. -/
def follow (here : Place) (parts : List String) : Place :=
  parts.foldl (fun here part =>
    if isVoid part then here else if part = ".." then here.dropLast else here ++ [part]) here

/-- The place that a path names. -/
def place (path : String) : Place :=
  follow [] (Text.pieces '/' path)

theorem follow_append (here : Place) (parts others : List String) :
    follow here (parts ++ others) = follow (follow here parts) others :=
  List.foldl_append

theorem pieces_append_slash (directory name : String) :
    Text.pieces '/' (directory ++ "/" ++ name) =
      Text.pieces '/' directory ++ Text.pieces '/' name :=
  Text.pieces_append '/' directory name

theorem follow_cons_of_void {part : String} (hvoid : isVoid part = true) (here : Place)
    (parts : List String) : follow here (part :: parts) = follow here parts := by
  simp [follow, hvoid]

theorem follow_cons_of_name {part : String} (hvoid : isVoid part = false) (hup : part ≠ "..")
    (here : Place) (parts : List String) :
    follow here (part :: parts) = follow (here ++ [part]) parts := by
  simp [follow, hvoid, hup]

/-- Void parts lead nowhere. -/
theorem follow_of_void {here : Place} {parts : List String}
    (h : ∀ part ∈ parts, isVoid part = true) : follow here parts = here := by
  induction parts with
  | nil => rfl
  | cons part parts ih =>
    rw [List.forall_mem_cons] at h
    rw [follow_cons_of_void h.1, ih h.2]

/-- The parts of a file's path are those of its directory's, but for void ones at the
end, and the name. -/
theorem exists_pieces_join {name : String} (hslash : '/' ∉ name.toList) (directory : String) :
    ∃ front voids, Text.pieces '/' (join directory name) = front ++ [name] ∧
      Text.pieces '/' directory = front ++ voids ∧ ∀ part ∈ voids, isVoid part = true := by
  unfold join
  split
  · rename_i h
    rcases h with rfl | hlast
    · refine ⟨[], [""], ?_, rfl, by decide⟩
      rw [String.empty_append, Text.pieces_of_not_mem hslash, List.nil_append]
    · obtain ⟨cs, hcs⟩ := List.getLast?_eq_some_iff.1 hlast
      have hdirectory : directory = String.ofList cs ++ "/" := by
        rw [← String.toList_inj, hcs]
        simp
      have hvoid := pieces_append_slash (String.ofList cs) ""
      rw [String.append_empty] at hvoid
      rw [hdirectory]
      refine ⟨Text.pieces '/' (String.ofList cs), [""], ?_, hvoid, by decide⟩
      rw [pieces_append_slash, Text.pieces_of_not_mem hslash]
  · refine ⟨Text.pieces '/' directory, [], ?_, (List.append_nil _).symm, by simp⟩
    rw [pieces_append_slash, Text.pieces_of_not_mem hslash]

/-- A file in a directory is one name below it. -/
theorem place_join {directory name : String} (hslash : '/' ∉ name.toList)
    (hvoid : isVoid name = false) (hup : name ≠ "..") :
    place (join directory name) = place directory ++ [name] := by
  obtain ⟨front, voids, hjoin, hdirectory, hvoids⟩ := exists_pieces_join hslash directory
  rw [place, place, hjoin, hdirectory, follow_append, follow_append, follow_of_void hvoids,
    follow_cons_of_name hvoid hup]
  rfl

/-- So is one whose name ends in no dot. -/
theorem place_join_of_getLast? {directory name : String} {c : Char} (hslash : '/' ∉ name.toList)
    (hlast : name.toList.getLast? = some c) (hdot : c ≠ '.') :
    place (join directory name) = place directory ++ [name] := by
  have hvoid : isVoid name = false := by
    rw [isVoid, Bool.or_eq_false_iff, decide_eq_false_iff_not, decide_eq_false_iff_not]
    constructor
    · rintro rfl
      cases hlast
    · rintro rfl
      exact hdot (Option.some.inj hlast).symm
  have hup : name ≠ ".." := by
    rintro rfl
    exact hdot (Option.some.inj hlast).symm
  exact place_join hslash hvoid hup

end Path

namespace FileTree

/-- What there is at the place that a path names. -/
def held (t : FileTree) (path : String) : Option Node :=
  t.node? (Path.place path)

/-! ## §2 Following -/

theorem walk_eq_follow {t : FileTree} {here place : Place} {parts : List String}
    (h : t.walk here parts = .ok place) : place = Path.follow here parts := by
  induction parts generalizing here with
  | nil => exact (Except.ok.inj h).symm
  | cons part parts ih =>
    rw [walk] at h
    split at h
    · simp at h
    · simp at h
    · unfold Path.follow
      rw [List.foldl_cons]
      split at h
      · rename_i hvoid
        rw [if_pos hvoid]
        exact ih h
      · rename_i hvoid
        rw [if_neg hvoid]
        split at h
        · rename_i hup
          rw [if_pos hup]
          exact ih h
        · rename_i hup
          rw [if_neg hup]
          split at h
          · simp at h
          · exact ih h

/-- A path that can be followed leads to the place it names. -/
theorem resolve_eq_place {t : FileTree} {path : String} {place : Place}
    (h : t.resolve path = .ok place) : place = Path.place path := by
  unfold resolve at h
  split at h
  · simp at h
  · split at h
    · simp at h
    · exact walk_eq_follow h

/-- Whether two trees have their directories at the same places. -/
def SameDirectories (t u : FileTree) : Prop :=
  ∀ place, t.node? place = some .directory ↔ u.node? place = some .directory

theorem SameDirectories.refl (t : FileTree) : t.SameDirectories t :=
  fun _ => Iff.rfl

theorem SameDirectories.symm {t u : FileTree} (h : t.SameDirectories u) : u.SameDirectories t :=
  fun place => (h place).symm

theorem SameDirectories.trans {t u v : FileTree} (h : t.SameDirectories u)
    (h' : u.SameDirectories v) : t.SameDirectories v :=
  fun place => (h place).trans (h' place)

theorem walk_cons_of_directory {t : FileTree} {here : Place} (part : String) (parts : List String)
    (h : t.node? here = some .directory) :
    t.walk here (part :: parts) =
      if Path.isVoid part then t.walk here parts
      else if part = ".." then t.walk here.dropLast parts
      else if longestName < part.utf8ByteSize then .error .nameTooLong
      else t.walk (here ++ [part]) parts := by
  rw [walk, h]

theorem directory_of_walk_cons {t : FileTree} {here place : Place} {part : String}
    {parts : List String} (h : t.walk here (part :: parts) = .ok place) :
    t.node? here = some .directory := by
  rw [walk] at h
  split at h
  · simp at h
  · simp at h
  · assumption

theorem walk_mono {t u : FileTree}
    (hkept : ∀ place, t.node? place = some .directory → u.node? place = some .directory)
    {here place : Place} {parts : List String} (h : t.walk here parts = .ok place) :
    u.walk here parts = .ok place := by
  induction parts generalizing here with
  | nil => exact h
  | cons part parts ih =>
    have hdirectory := directory_of_walk_cons h
    rw [walk_cons_of_directory part parts hdirectory] at h
    rw [walk_cons_of_directory part parts (hkept here hdirectory)]
    split at h
    · rename_i hvoid
      rw [if_pos hvoid]
      exact ih h
    · rename_i hvoid
      rw [if_neg hvoid]
      split at h
      · rename_i hup
        rw [if_pos hup]
        exact ih h
      · rename_i hup
        rw [if_neg hup]
        split at h
        · simp at h
        · rename_i hlong
          rw [if_neg hlong]
          exact ih h

/-- Paths that can be followed can be followed in every tree that has all the
directories. -/
theorem resolve_mono {t u : FileTree}
    (hkept : ∀ place, t.node? place = some .directory → u.node? place = some .directory)
    {path : String} {place : Place} (h : t.resolve path = .ok place) :
    u.resolve path = .ok place := by
  unfold FileTree.resolve at h ⊢
  split at h
  · simp at h
  · rename_i hempty
    rw [if_neg hempty]
    split at h
    · simp at h
    · rename_i hlong
      rw [if_neg hlong]
      exact walk_mono hkept h

theorem SameDirectories.resolve {t u : FileTree} (hsame : t.SameDirectories u) {path : String}
    {place : Place} (h : t.resolve path = .ok place) : u.resolve path = .ok place :=
  resolve_mono (fun place => (hsame place).1) h

/-! ## §3 Names -/

end FileTree

namespace Path

/-- Whether a name is a temporary one: letters and digits behind `.tmp`. -/
def IsTemporaryName (name : String) : Prop :=
  ∃ cs : List Char, name.toList = ['.', 't', 'm', 'p'] ++ cs ∧ ∀ c ∈ cs, c.isAlphanum = true

/-- Such a name has a dot in front, and no other. -/
theorem IsTemporaryName.count_dot {name : String} (h : IsTemporaryName name) :
    name.toList.count '.' = 1 := by
  obtain ⟨cs, hname, hcs⟩ := h
  have hdot : '.' ∉ cs := fun hmem => absurd (hcs '.' hmem) (by decide)
  rw [hname, List.count_append, List.count_eq_zero_of_not_mem hdot]
  rfl

theorem IsTemporaryName.slash_not_mem {name : String} (h : IsTemporaryName name) :
    '/' ∉ name.toList := by
  obtain ⟨cs, hname, hcs⟩ := h
  rw [hname, List.mem_append, not_or]
  exact ⟨by decide, fun hmem => absurd (hcs '/' hmem) (by decide)⟩

/-- A name with an ending behind it is no temporary one, since the ending begins with
a dot. -/
theorem not_isTemporaryName_append {name ending : String} (hname : name ≠ "")
    (hending : ending.toList.head? = some '.') : ¬ IsTemporaryName (name ++ ending) := by
  intro h
  have hcount := h.count_dot
  obtain ⟨cs, hlist, _⟩ := h
  obtain ⟨rest, hrest⟩ := List.head?_eq_some_iff.1 hending
  cases hchars : name.toList with
  | nil => exact hname (String.toList_eq_nil_iff.1 hchars)
  | cons c chars =>
    rw [String.toList_append, hchars, List.cons_append] at hlist
    obtain rfl : c = '.' := (List.cons.inj hlist).1
    rw [String.toList_append, hchars, hrest, List.count_append, List.count_cons_self,
      List.count_cons_self] at hcount
    omega

/-- A file with a temporary name is one name below its directory. -/
theorem place_join_of_isTemporaryName {name : String} (h : IsTemporaryName name)
    (directory : String) : place (join directory name) = place directory ++ [name] := by
  have hslash := h.slash_not_mem
  obtain ⟨cs, hname, _⟩ := h
  have hne (other : String) (hother : other.toList.length ≤ 2) : name ≠ other := by
    rintro rfl
    rw [hname, List.length_append] at hother
    simp only [List.length_cons, List.length_nil] at hother
    omega
  have hempty := hne "" (by decide)
  have hdot := hne "." (by decide)
  exact place_join hslash (by simp [isVoid, hempty, hdot]) (hne ".." (by decide))

end Path

namespace FileTree

/-- Whether a place has a temporary name. -/
def IsTemporary (place : Place) : Prop :=
  ∃ above name, Path.IsTemporaryName name ∧ place = above ++ [name]

/-- Whether a place has a name that files are staged under. -/
def IsStaging (place : Place) : Prop :=
  ∃ above i, place = above ++ [stagedName i]

theorem toList_stagedName (i : Nat) :
    (stagedName i).toList = ['.', 't', 'm', 'p'] ++ Number.decimal i := by
  simp [stagedName, Number.decimalText]

theorem stagedName_injective {i j : Nat} (h : stagedName i = stagedName j) : i = j := by
  have hdecimal : Number.decimal i = Number.decimal j := by
    have hlist := congrArg String.toList h
    rw [toList_stagedName, toList_stagedName] at hlist
    exact List.append_cancel_left hlist
  have hread := Number.natural?_decimal i
  rw [hdecimal, Number.natural?_decimal j] at hread
  exact (Option.some.inj hread).symm

theorem isTemporaryName_stagedName (i : Nat) : Path.IsTemporaryName (stagedName i) := by
  refine ⟨Number.decimal i, toList_stagedName i, fun c hc => ?_⟩
  rw [Char.isAlphanum, Number.isDigit_of_mem_decimal hc, Bool.or_true]

theorem IsStaging.isTemporary {place : Place} (h : IsStaging place) : IsTemporary place := by
  obtain ⟨above, i, rfl⟩ := h
  exact ⟨above, _, isTemporaryName_stagedName i, rfl⟩

/-- A staged file is one name below its directory. -/
theorem place_join_stagedName (directory : String) (i : Nat) :
    Path.place (Path.join directory (stagedName i)) = Path.place directory ++ [stagedName i] :=
  Path.place_join_of_isTemporaryName (isTemporaryName_stagedName i) directory

theorem mem_nodes_of_node? {t : FileTree} {place : Place} (hne : place ≠ [])
    (h : t.node? place ≠ none) : place ∈ t.nodes.map (·.1) := by
  obtain ⟨node, hnode⟩ := Option.ne_none_iff_exists'.1 h
  rw [node?, if_neg hne] at hnode
  obtain ⟨n, hfind, _⟩ := Option.map_eq_some_iff.1 hnode
  exact List.mem_map.2 ⟨n, List.mem_of_find?_eq_some hfind, by simpa using List.find?_some hfind⟩

/-- There are more names than nodes, so one of them is not in use. -/
theorem freshName_eq (t : FileTree) (directory : Place) :
    ∃ i, t.freshName directory = stagedName i ∧
      t.node? (directory ++ [stagedName i]) = none := by
  unfold freshName
  simp only
  cases hfind : ((List.range (t.nodes.length + 1)).map stagedName).find?
      fun name => t.node? (directory ++ [name]) = none with
  | some name =>
    obtain ⟨i, _, rfl⟩ := List.mem_map.1 (List.mem_of_find?_eq_some hfind)
    exact ⟨i, rfl, by simpa using List.find?_some hfind⟩
  | none =>
    exfalso
    have hused : ∀ i ∈ List.range (t.nodes.length + 1),
        t.node? (directory ++ [stagedName i]) ≠ none := by
      intro i hi
      simpa using List.find?_eq_none.1 hfind (stagedName i) (List.mem_map_of_mem hi)
    have hnodup : ((List.range (t.nodes.length + 1)).map
        fun i => directory ++ [stagedName i]).Nodup := by
      refine List.Pairwise.map _ (fun i j hne heq => hne ?_) List.nodup_range
      exact stagedName_injective (List.cons.inj (List.append_cancel_left heq)).1
    have hsubset : ((List.range (t.nodes.length + 1)).map
        fun i => directory ++ [stagedName i]) ⊆ t.nodes.map (·.1) := by
      intro place hplace
      obtain ⟨i, hi, rfl⟩ := List.mem_map.1 hplace
      exact mem_nodes_of_node? (by simp) (hused i hi)
    have hle := hnodup.length_le_of_subset hsubset
    simp only [List.length_map, List.length_range] at hle
    omega

/-! ## §4 Operations -/

theorem node?_insert_of_ne_nil {t : FileTree} {place : Place} (hne : place ≠ []) (node : Node)
    (other : Place) :
    (t.insert place node).node? other = if other = place then some node else t.node? other := by
  rw [node?_insert]
  split
  · rename_i h
    rw [h, if_neg hne.symm]
    rfl
  · rfl

theorem node?_erase_of_ne_nil {t : FileTree} {place : Place} (hne : place ≠ []) (other : Place) :
    (t.erase place).node? other = if other = place then none else t.node? other := by
  rw [node?_erase]
  split
  · rename_i h
    rw [h, if_neg hne.symm]
    rfl
  · rfl

theorem ne_nil_of_not_directory {t : FileTree} {place : Place}
    (h : t.node? place ≠ some .directory) : place ≠ [] := by
  rintro rfl
  exact h rfl

theorem ne_nil_of_none {t : FileTree} {place : Place} (h : t.node? place = none) : place ≠ [] :=
  ne_nil_of_not_directory (t := t) (by simp [h])

theorem ne_nil_of_file {t : FileTree} {place : Place} {content : ByteArray}
    (h : t.node? place = some (.file content)) : place ≠ [] :=
  ne_nil_of_not_directory (t := t) (by simp [h])

/-- A directory is only made where there was nothing. -/
theorem makeDirectory_ok {t u : FileTree} {path : String} (h : t.makeDirectory path = .ok u) :
    t.held path = none ∧
      ∀ place, u.node? place = if place = Path.place path then some .directory else t.node? place := by
  unfold makeDirectory at h
  split at h
  · simp at h
  · rename_i place hplace
    obtain rfl := resolve_eq_place hplace
    split at h
    · rename_i hnone
      obtain rfl := Except.ok.inj h
      exact ⟨hnone, node?_insert_of_ne_nil (ne_nil_of_none hnone) _⟩
    · simp at h

/-- A file that comes where there was nothing is no directory. -/
theorem sameDirectories_of_node? {t u : FileTree} {here : Place} {content : ByteArray}
    (hnone : t.node? here = none)
    (hnode : ∀ place, u.node? place = if place = here then some (.file content) else t.node? place) :
    t.SameDirectories u := by
  intro place
  rw [hnode]
  split
  · rename_i hplace
    rw [hplace, hnone]
    simp
  · rfl

/-- A file is staged where there was nothing, under a name of its own, and can be
reached there. -/
theorem stage_ok {t u : FileTree} {directory text path : String}
    (h : t.stage directory text = .ok (path, u)) :
    IsStaging (Path.place path) ∧ t.held path = none ∧ u.resolve path = .ok (Path.place path) ∧
      ∀ place, u.node? place =
        if place = Path.place path then some (.file text.toUTF8) else t.node? place := by
  unfold stage at h
  split at h
  · simp at h
  · rename_i here hhere
    split at h
    · simp at h
    · simp at h
    · simp only at h
      split at h
      · simp at h
      · rename_i staged hstaged
        obtain ⟨rfl, rfl⟩ := Prod.mk.inj (Except.ok.inj h)
        obtain rfl := resolve_eq_place hstaged
        obtain ⟨i, hname, hfree⟩ := t.freshName_eq here
        rw [hname] at hstaged ⊢
        have hdirectory : here = Path.place directory := by
          rw [resolve_eq_place hhere]
          split
          · rename_i hempty
            rw [hempty]
            decide +kernel
          · rfl
        have hnone : t.held (Path.join directory (stagedName i)) = none := by
          rw [held, place_join_stagedName, ← hdirectory]
          exact hfree
        have hnode := node?_insert_of_ne_nil (t := t) (ne_nil_of_none hnone) (.file text.toUTF8)
        exact ⟨⟨_, i, place_join_stagedName directory i⟩, hnone,
          (sameDirectories_of_node? hnone hnode).resolve hstaged, hnode⟩

/-- Whether a file can be renamed to a path: the path can be followed, and there is
no directory. -/
def accepts (t : FileTree) (path : String) : Bool :=
  match t.resolve path with
  | .error _ => false
  | .ok place => t.node? place ≠ some .directory

theorem accepts_iff {t : FileTree} {path : String} :
    t.accepts path = true ↔
      t.resolve path = .ok (Path.place path) ∧ t.held path ≠ some .directory := by
  unfold accepts
  split
  · rename_i fault hfault
    simp [hfault]
  · rename_i place hplace
    obtain rfl := resolve_eq_place hplace
    simp [hplace, held]

theorem SameDirectories.accepts {t u : FileTree} (hsame : t.SameDirectories u) (path : String) :
    t.accepts path = u.accepts path := by
  have himp {t u : FileTree} (hsame : t.SameDirectories u) (h : t.accepts path = true) :
      u.accepts path = true := by
    obtain ⟨hresolve, hnode⟩ := accepts_iff.1 h
    exact accepts_iff.2 ⟨hsame.resolve hresolve, fun h => hnode ((hsame _).2 h)⟩
  exact Bool.eq_iff_iff.2 ⟨himp hsame, himp hsame.symm⟩

/-- A file that can be renamed is gone from its old place, and in place of what was
at the new one. -/
theorem rename_ok {t : FileTree} {source target : String} {content : ByteArray}
    (hsource : t.resolve source = .ok (Path.place source))
    (hfile : t.held source = some (.file content)) (htarget : t.accepts target = true) :
    ∃ u, t.rename source target = .ok u ∧ ∀ place, u.node? place =
      if place = Path.place target then some (.file content)
      else if place = Path.place source then none else t.node? place := by
  obtain ⟨hresolve, hnode⟩ := accepts_iff.1 htarget
  refine ⟨(t.erase (Path.place source)).insert (Path.place target) (.file content), ?_, ?_⟩
  · unfold rename
    unfold held at hfile hnode
    rw [hsource, hresolve]
    simp only [hfile]
  · intro place
    rw [node?_insert_of_ne_nil (ne_nil_of_not_directory hnode),
      node?_erase_of_ne_nil (ne_nil_of_file hfile)]

/-- A renamed file is gone from its old place, and in place of what was at the new one,
which was no directory. -/
theorem of_rename_ok {t u : FileTree} {source target : String}
    (h : t.rename source target = .ok u) :
    (∃ content, t.held source = some (.file content)) ∧ t.held target ≠ some .directory ∧
      ∀ place, u.node? place =
        if place = Path.place target then t.held source
        else if place = Path.place source then none else t.node? place := by
  unfold rename at h
  split at h
  · cases h
  · cases h
  · rename_i sourcePlace targetPlace hsource htarget
    obtain rfl := resolve_eq_place hsource
    obtain rfl := resolve_eq_place htarget
    split at h
    · cases h
    · rename_i content hfile hnot
      obtain rfl := Except.ok.inj h
      have hdirectory : t.held target ≠ some .directory := fun heq => hnot heq
      refine ⟨⟨content, hfile⟩, hdirectory, fun place => ?_⟩
      rw [node?_insert_of_ne_nil (ne_nil_of_not_directory hdirectory),
        node?_erase_of_ne_nil (ne_nil_of_file hfile), held, hfile]
    · cases h

theorem sameDirectories_rename {t u : FileTree} {source target : String}
    (h : t.rename source target = .ok u) : t.SameDirectories u := by
  obtain ⟨⟨content, hfile⟩, hdirectory, hnode⟩ := of_rename_ok h
  intro place
  rw [hnode, hfile]
  split
  · rename_i hplace
    rw [hplace]
    simpa [held] using hdirectory
  · split
    · rename_i hplace
      rw [hplace, ← held, hfile]
      simp
    · rfl

theorem rename_error {t : FileTree} {source target : String} {content : ByteArray}
    (hsource : t.resolve source = .ok (Path.place source))
    (hfile : t.held source = some (.file content)) (htarget : t.accepts target = false) :
    ∃ fault, t.rename source target = .error fault := by
  unfold rename
  rw [hsource]
  unfold accepts at htarget
  cases hresolve : t.resolve target with
  | error fault => exact ⟨fault, rfl⟩
  | ok place =>
    rw [hresolve] at htarget
    have hdirectory : t.node? place = some .directory := by simpa using htarget
    rw [held] at hfile
    exact ⟨.isDirectory, by simp [hfile, hdirectory]⟩

/-- Nothing but the file that a path leads to is removed. -/
theorem node?_remove_of_ne {t : FileTree} {path : String} {place : Place}
    (h : place ≠ Path.place path) : (t.remove path).node? place = t.node? place := by
  unfold remove
  split
  · rfl
  · rename_i here hhere
    obtain rfl := resolve_eq_place hhere
    split
    · rename_i content hfile
      rw [node?_erase_of_ne_nil (ne_nil_of_file hfile), if_neg h]
    · rfl

theorem sameDirectories_remove (t : FileTree) (path : String) :
    t.SameDirectories (t.remove path) := by
  intro place
  unfold remove
  split
  · rfl
  · rename_i here hhere
    split
    · rename_i content hfile
      rw [node?_erase_of_ne_nil (ne_nil_of_file hfile)]
      split
      · rename_i heq
        rw [heq, hfile]
        simp
      · rfl
    · rfl

/-- What can be replaced can be removed. -/
theorem held_remove {t : FileTree} {path : String} (h : t.accepts path = true) :
    (t.remove path).held path = none := by
  obtain ⟨hresolve, hnode⟩ := accepts_iff.1 h
  unfold held at hnode
  unfold remove held
  rw [hresolve]
  simp only
  split
  · rw [node?_erase_of_ne_nil (ne_nil_of_not_directory hnode), if_pos rfl]
  · rename_i hfile
    cases hheld : t.node? (Path.place path) with
    | none => rfl
    | some node =>
      cases node with
      | directory => exact absurd hheld hnode
      | file content => exact absurd hheld (hfile content)

end FileTree

end PropSchema
