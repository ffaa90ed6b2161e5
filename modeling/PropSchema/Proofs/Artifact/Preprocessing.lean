/-
PropSchema.Proofs.Artifact.Preprocessing — what a preprocessor makes of included files.

Files are taken in line by line. Conditionals decide which lines are left, and in the code of
these the names of macros are replaced. The macros of headers are their guards, which stand
for nothing, so that such a name is gone from a line. Macros from elsewhere are left out: none
is defined to begin with, and the lines that include standard headers are passed on.

§1 Words      — `words`, of which a text consists.
§2 Macros     — `expand`, a line without the names of macros.
§3 Directives — which lines are directives.
§4 Inclusion  — `included`, what is left of files.
-/
import PropSchema.Proofs.Artifact.Reading
import Mathlib.Data.List.SplitBy

namespace PropSchema

namespace Artifact

/-! ## §1 Words -/

/-- The words of a text, each as long as it gets, with the other characters one by one. -/
def words (text : String) : List String :=
  (text.toList.splitBy fun c d => Text.isWord c && Text.isWord d).map String.ofList

theorem join_words (text : String) : String.join (words text) = text := by
  rw [← String.toList_inj, String.toList_join, words, List.flatMap_map]
  simp [List.flatMap_def]

theorem ne_empty_of_mem_words {text word : String} (h : word ∈ words text) : word ≠ "" := by
  obtain ⟨cs, hcs, rfl⟩ := List.mem_map.1 h
  simpa using List.ne_nil_of_mem_splitBy hcs

@[simp]
theorem words_empty : words "" = [] := by
  simp [words]

theorem words_append {a b : String} (h : ∀ c ∈ a.toList.getLast?, ∀ d ∈ b.toList.head?,
    (Text.isWord c && Text.isWord d) = false) : words (a ++ b) = words a ++ words b := by
  rw [words, String.toList_append, List.splitBy_append h, List.map_append]
  rfl

/-- Texts stay apart where the first one does not end in a word. -/
theorem words_append_of_getLast? {a : String}
    (h : (a.toList.getLast?.any Text.isWord) = false) (b : String) :
    words (a ++ b) = words a ++ words b := by
  refine words_append fun c hc _ _ => ?_
  rw [Option.mem_def.1 hc, Option.any_some] at h
  rw [h, Bool.false_and]

/-- And where the second one does not start with a word. -/
theorem words_append_of_head? {b : String} (h : (b.toList.head?.any Text.isWord) = false)
    (a : String) : words (a ++ b) = words a ++ words b := by
  refine words_append fun _ _ d hd => ?_
  rw [Option.mem_def.1 hd, Option.any_some] at h
  rw [h, Bool.and_false]

/-- The same with something behind the second one. -/
theorem words_append_mark {b : String} (h : (b.toList.head?.all Text.isWord) = false)
    (a c : String) : words (a ++ (b ++ c)) = words a ++ words (b ++ c) := by
  refine words_append_of_head? ?_ a
  cases hb : b.toList with
  | nil => simp [hb] at h
  | cons d ds =>
    rw [hb, List.head?_cons, Option.all_some] at h
    rw [String.toList_append, hb, List.cons_append, List.head?_cons, Option.any_some, h]

theorem words_of_isIdentifier {name : String} (h : IsIdentifier name) : words name = [name] := by
  have hword : ∀ c ∈ name.toList, Text.isWord c = true :=
    fun c hc => isWord_iff.2 (h.isWordText c hc)
  have hchain : name.toList.IsChain fun c d => (Text.isWord c && Text.isWord d) = true := by
    refine List.Pairwise.isChain (List.pairwise_of_forall_mem_list fun c hc d hd => ?_)
    rw [hword c hc, hword d hd]
    rfl
  have hne : name.toList ≠ [] := String.toList_eq_nil_iff.not.2 h.isDottedName.1
  rw [words, List.splitBy_of_isChain hne hchain, List.map_singleton, String.ofList_toList]

/-! ## §2 Macros -/

/-- What is in front of a comment. -/
def beforeComment : List Char → List Char
  | [] => []
  | c :: cs => if c = '/' ∧ cs.head? = some '/' then [] else c :: beforeComment cs

/-- The part of a line in which macros are replaced: what is in front of a comment, and nothing
of a directive. -/
def codeIn (line : String) : String :=
  if line.toList.head? = some '#' then "" else String.ofList (beforeComment line.toList)

/-- The part of a line behind that. -/
def behindCode (line : String) : String :=
  String.ofList (line.toList.drop (codeIn line).toList.length)

/-- A line with the names of macros replaced by what they stand for, which is nothing. -/
def expand (macros : List String) (line : String) : String :=
  String.join ((words (codeIn line)).filter fun word => word ∉ macros) ++ behindCode line

/-- The words in the code of lines. -/
def wordsIn (block : List String) : List String :=
  block.flatMap fun line => words (codeIn line)

@[simp]
theorem wordsIn_nil : wordsIn [] = [] := rfl

@[simp]
theorem wordsIn_cons (line : String) (block : List String) :
    wordsIn (line :: block) = words (codeIn line) ++ wordsIn block :=
  rfl

@[simp]
theorem wordsIn_append (block others : List String) :
    wordsIn (block ++ others) = wordsIn block ++ wordsIn others :=
  List.flatMap_append

theorem beforeComment_prefix (cs : List Char) : beforeComment cs <+: cs := by
  induction cs with
  | nil => exact List.prefix_rfl
  | cons c cs ih =>
    rw [beforeComment]
    split
    · exact List.nil_prefix
    · exact (List.prefix_cons_inj c).2 ih

theorem beforeComment_of_not_mem {cs : List Char} (h : '/' ∉ cs) : beforeComment cs = cs := by
  induction cs with
  | nil => rfl
  | cons c cs ih =>
    rw [List.mem_cons, not_or] at h
    rw [beforeComment, if_neg fun hmark => h.1 hmark.1.symm, ih h.2]

theorem beforeComment_append {cs : List Char} (h : '/' ∉ cs) (comment : List Char) :
    beforeComment (cs ++ '/' :: '/' :: comment) = cs := by
  induction cs with
  | nil => simp [beforeComment]
  | cons c cs ih =>
    rw [List.mem_cons, not_or] at h
    rw [List.cons_append, beforeComment, if_neg fun hmark => h.1 hmark.1.symm, ih h.2]

/-- A line that is neither a directive nor has a comment is code. -/
theorem codeIn_of_not_mem {line : String} (hmark : line.toList.head? ≠ some '#')
    (h : '/' ∉ line.toList) : codeIn line = line := by
  rw [codeIn, if_neg hmark, beforeComment_of_not_mem h, String.ofList_toList]

theorem codeIn_append_behindCode (line : String) : codeIn line ++ behindCode line = line := by
  have hprefix : (codeIn line).toList <+: line.toList := by
    unfold codeIn
    split
    · exact List.nil_prefix
    · rw [String.toList_ofList]
      exact beforeComment_prefix line.toList
  rw [← String.toList_inj, String.toList_append, behindCode, String.toList_ofList]
  exact List.prefix_iff_eq_append.1 hprefix

theorem expand_nil (line : String) : expand [] line = line := by
  simp [expand, join_words, codeIn_append_behindCode]

theorem length_join_filter_le (keep : String → Bool) (texts : List String) :
    (String.join (texts.filter keep)).length ≤ (String.join texts).length := by
  have hsublist : ((texts.filter keep).map String.toList).Sublist (texts.map String.toList) :=
    List.filter_sublist.map String.toList
  simpa only [← String.length_toList, String.toList_join, List.flatMap_def] using
    hsublist.flatten.length_le

/-- Texts that are not empty leave a trace. -/
theorem join_filter_eq_iff {keep : String → Bool} {texts : List String}
    (h : ∀ text ∈ texts, text ≠ "") :
    String.join (texts.filter keep) = String.join texts ↔ ∀ text ∈ texts, keep text = true := by
  refine ⟨fun heq => ?_, fun hkeep => by rw [List.filter_eq_self.2 hkeep]⟩
  induction texts with
  | nil => simp
  | cons text texts ih =>
    rw [List.forall_mem_cons] at h ⊢
    by_cases hkeep : keep text = true
    · rw [List.filter_cons_of_pos hkeep, String.join_cons, String.join_cons,
        String.append_right_inj] at heq
      exact ⟨hkeep, ih h.2 heq⟩
    · rw [List.filter_cons_of_neg hkeep, String.join_cons] at heq
      have hlength := congrArg String.length heq
      have hle := length_join_filter_le keep texts
      have hpos : text.length ≠ 0 := by simpa using h.1
      rw [String.length_append] at hlength
      omega

/-- More macros make the same of a line just if they are none of its words. -/
theorem expand_eq_expand_iff {fewer macros : List String} (h : fewer ⊆ macros) (line : String) :
    expand macros line = expand fewer line ↔
      ∀ word ∈ words (codeIn line), word ∈ macros → word ∈ fewer := by
  have hfilter : (words (codeIn line)).filter (fun word => word ∉ macros) =
      ((words (codeIn line)).filter fun word => word ∉ fewer).filter fun word => word ∉ macros := by
    rw [List.filter_filter]
    refine List.filter_congr fun word _ => ?_
    have hboth : word ∉ macros ↔ word ∉ macros ∧ word ∉ fewer :=
      ⟨fun hnot => ⟨hnot, fun hmem => hnot (h hmem)⟩, And.left⟩
    simpa using hboth
  rw [expand, expand, String.append_left_inj, hfilter, join_filter_eq_iff]
  · simp only [List.mem_filter, decide_eq_true_eq, and_imp]
    exact forall₂_congr fun word _ => not_imp_not
  · exact fun word hword => ne_empty_of_mem_words (List.mem_of_mem_filter hword)

/-- A line of which nothing is code stays as it is. -/
theorem expand_of_codeIn_eq_empty {line : String} (h : codeIn line = "") (macros : List String) :
    expand macros line = line := by
  have hline := codeIn_append_behindCode line
  rw [h, String.empty_append] at hline
  rw [expand, h, words_empty, hline]
  simp

/-! ## §3 Directives -/

/-- The directives that a preprocessor acts on. -/
inductive Directive where
  | ifUndefined (name : String)
  | define (name : String)
  | endIf
  deriving DecidableEq, Repr

/-- The directive that a line is. The includes of standard headers are none of them. -/
def directive? (line : String) : Option Directive :=
  match Text.pieces ' ' line with
  | ["#ifndef", name] => some (.ifUndefined name)
  | ["#define", name] => some (.define name)
  | "#endif" :: _ => some .endIf
  | _ => none

theorem directive?_ifUndefined {name : String} (h : ' ' ∉ name.toList) :
    directive? ("#ifndef " ++ name) = some (.ifUndefined name) := by
  rw [directive?, pieces_eq_cons "#ifndef" name (by decide) (by simp), pieces_eq_singleton h]
  rfl

theorem directive?_define {name : String} (h : ' ' ∉ name.toList) :
    directive? ("#define " ++ name) = some (.define name) := by
  rw [directive?, pieces_eq_cons "#define" name (by decide) (by simp), pieces_eq_singleton h]
  rfl

theorem directive?_endIf (name : String) : directive? ("#endif  // " ++ name) = some .endIf := by
  rw [directive?, pieces_eq_cons "#endif" (" // " ++ name) (by decide) (by simp)]
  rfl

/-- A text starts as its first piece does. -/
theorem head?_of_pieces {sep c : Char} {text first : String} {rest : List String}
    (h : Text.pieces sep text = first :: rest) (hc : first.toList.head? = some c) :
    text.toList.head? = some c := by
  obtain ⟨cs, others, hsplit, rfl, _⟩ := List.map_eq_cons_iff.1 h
  rw [String.toList_ofList] at hc
  have hjoin := Text.join_split sep text.toList
  rw [hsplit] at hjoin
  cases others with
  | nil => rwa [← hjoin]
  | cons piece others =>
    rw [Text.join_cons_of_ne_nil _ _ (by simp)] at hjoin
    rw [← hjoin, List.head?_append, hc, Option.some_or]

/-- A directive starts with its mark. -/
theorem directive?_eq_none {line : String} (h : line.toList.head? ≠ some '#') :
    directive? line = none := by
  unfold directive?
  split
  · rename_i hpieces
    exact absurd (head?_of_pieces hpieces (by decide)) h
  · rename_i hpieces
    exact absurd (head?_of_pieces hpieces (by decide)) h
  · rename_i hpieces
    exact absurd (head?_of_pieces hpieces (by decide)) h
  · rfl

/-! ## §4 Inclusion -/

/-- A preprocessor: the macros that are defined, whether each of the open conditionals
holds, and the lines that were passed on. -/
structure Preprocessor where
  defined : List String := []
  conditions : List Bool := []
  passed : List String := []
  deriving DecidableEq, Repr

namespace Preprocessor

/-- What a line does. Within a conditional that does not hold, only conditionals count. -/
def step (state : Preprocessor) (line : String) : Preprocessor :=
  match directive? line with
  | some (.ifUndefined name) =>
    { state with conditions := decide (name ∉ state.defined) :: state.conditions }
  | some .endIf => { state with conditions := state.conditions.tail }
  | some (.define name) =>
    if false ∈ state.conditions then state else { state with defined := name :: state.defined }
  | none =>
    if false ∈ state.conditions then state
    else { state with passed := state.passed ++ [expand state.defined line] }

/-- A file is included: its lines are taken in one by one. -/
def feed (state : Preprocessor) (text : String) : Preprocessor :=
  (lines text).foldl step state

/-- Lines without directives are passed on, unless a conditional around them does not
hold. -/
theorem foldl_step_of_none {block : List String} (h : ∀ line ∈ block, directive? line = none)
    (state : Preprocessor) :
    block.foldl step state =
      if false ∈ state.conditions then state
      else { state with passed := state.passed ++ block.map (expand state.defined) } := by
  induction block generalizing state with
  | nil => simp
  | cons line block ih =>
    rw [List.forall_mem_cons] at h
    rw [List.foldl_cons, ih h.2, step, h.1]
    by_cases hskipped : false ∈ state.conditions
    · simp [hskipped]
    · simp [hskipped]

end Preprocessor

/-- What is left of files that are included one after the other. -/
def included (files : List String) : List String :=
  (files.foldl Preprocessor.feed {}).passed

end Artifact

end PropSchema
