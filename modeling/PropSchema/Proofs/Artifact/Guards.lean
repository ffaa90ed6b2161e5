/-
PropSchema.Proofs.Artifact.Guards — headers included in one translation unit.

A header is guarded by a macro that is named after its module, with underscores for the
dots of the path. Segments may have underscores in them too, so that two modules can get
one guard: `headers_together` says that they do just if their paths agree up to dots and
underscores, and that nothing is left of the second header then. Otherwise no conditional
skips a line of it. The guard of the first header is an empty macro, though, so that its name
is gone from the second one, where a schema calls something like it.

§1 Guards    — when two modules have the same guard.
§2 Names     — where a name that looks like a guard stands in a header.
§3 Inclusion — `headers_together`, and two modules with one guard.
-/
import PropSchema.Proofs.Artifact.Contents
import PropSchema.Proofs.Artifact.Preprocessing

namespace PropSchema

open Artifact

/-! ## §1 Guards -/

/-- Cutting at one character and joining with another replaces the one by the other. -/
theorem Text.intercalate_split (sep mark : Char) (cs : List Char) :
    [mark].intercalate (split sep cs) = cs.map fun c => if c = sep then mark else c := by
  induction cs with
  | nil => rfl
  | cons c cs ih =>
    rw [List.map_cons, ← ih]
    by_cases hc : c = sep
    · obtain ⟨piece, others, hsplit⟩ := List.exists_cons_of_ne_nil (split_ne_nil sep cs)
      rw [hc, split_cons_sep, hsplit, List.intercalate_cons_cons, if_pos rfl]
      rfl
    · obtain ⟨piece, others, hsplit, hcons⟩ := split_cons_of_ne hc cs
      rw [hcons, hsplit, if_neg hc]
      cases others with
      | nil => rfl
      | cons other others => simp [List.intercalate_cons_cons]

namespace Schema

variable {s : Schema}

/-- The path of a schema's module, with underscores for its dots. -/
def flatPath (s : Schema) : String :=
  String.ofList (s.modulePath.toList.map fun c => if c = '.' then '_' else c)

theorem guardName_eq (s : Schema) : s.guardName = "SYSPROPGEN_" ++ s.flatPath ++ "_H_" := by
  have hflat : "_".intercalate s.segments = s.flatPath := by
    rw [← String.toList_inj, String.toList_intercalate, flatPath, String.toList_ofList,
      ← Text.intercalate_split, segments, Text.pieces, List.map_map]
    simp [Function.comp_def]
  rw [guardName, hflat]

/-- Two modules have one guard just if their paths agree up to dots and underscores. -/
theorem guardName_inj {s₁ s₂ : Schema} :
    s₁.guardName = s₂.guardName ↔ s₁.flatPath = s₂.flatPath := by
  rw [guardName_eq, guardName_eq, String.append_left_inj, String.append_right_inj]

end Schema

/-! ## §2 Names -/

namespace Artifact

/-- Whether a name starts and ends as guards do. That tells it from the words that are the
same in all headers, and from the names of enum types. -/
structure LooksLikeGuard (name : String) : Prop where
  first : name.toList.head? = some 'S'
  last : name.toList.getLast? = some '_'

/-- Nothing looks like a guard in texts of which no word starts as one does. -/
theorem LooksLikeGuard.not_mem_words {name : String} (h : LooksLikeGuard name)
    {texts : List String}
    (htexts : ∀ text ∈ texts, ∀ word ∈ words text, word.toList.head? ≠ some 'S') :
    ∀ text ∈ texts, name ∉ words text :=
  fun text htext hmem => htexts text htext name hmem h.first

/-- The words between pairs of colons. -/
theorem mem_words_intercalate_iff {name : String} (hname : name ∉ words "::")
    {names : List String} (h : ∀ other ∈ names, IsIdentifier other) :
    name ∈ words ("::".intercalate names) ↔ name ∈ names := by
  induction names with
  | nil => simp
  | cons first others ih =>
    rw [List.forall_mem_cons] at h
    cases others with
    | nil => simp [words_of_isIdentifier h.1]
    | cons second others =>
      rw [String.intercalate_cons_cons, String.append_assoc,
        words_append_mark (by decide), words_append_of_getLast? (by decide),
        words_of_isIdentifier h.1, List.mem_append, List.mem_append, ih h.2]
      simp [hname]

/-- The words in the lines of an enum type's symbols. -/
theorem mem_wordsIn_symbols_iff {name : String} (hname : LooksLikeGuard name)
    {symbols : List String} (h : ∀ symbol ∈ symbols, IsIdentifier symbol) :
    name ∈ wordsIn (symbols.map fun symbol => "    " ++ symbol ++ ",") ↔ name ∈ symbols := by
  have hfixed : ∀ text ∈ ["    ", ","], name ∉ words text :=
    hname.not_mem_words (by decide +kernel)
  simp only [List.forall_mem_cons] at hfixed
  have hsymbol : ∀ symbol ∈ symbols,
      words (codeIn ("    " ++ symbol ++ ",")) = words "    " ++ [symbol] ++ words "," := by
    intro symbol hmem
    have hslash : '/' ∉ symbol.toList := (h symbol hmem).isPlain.not_mem (by decide)
    rw [codeIn_of_not_mem (by simp) (by simp [hslash]), words_append_of_head? (by decide),
      words_append_of_getLast? (by decide), words_of_isIdentifier (h symbol hmem)]
  simp only [wordsIn, List.flatMap_map, List.mem_flatMap]
  constructor
  · intro hline
    obtain ⟨symbol, hmem, hword⟩ := hline
    obtain rfl : name = symbol := by simpa [hsymbol symbol hmem, hfixed] using hword
    exact hmem
  · exact fun hmem => ⟨name, hmem, by simp [hsymbol name hmem]⟩

end Artifact

namespace Property

variable {owner : Owner} {p : Property} {name : String}

theorem not_mem_words_enumTypeName (hp : p.Valid owner) (hname : LooksLikeGuard name) :
    name ∉ words p.enumTypeName := by
  rw [words_of_isIdentifier hp.isIdentifier_enumTypeName, List.mem_singleton]
  rintro rfl
  have hlast := hname.last
  simp [enumTypeName] at hlast

theorem not_mem_words_valueTypeName (hp : p.Valid owner) (hname : LooksLikeGuard name) :
    name ∉ words p.valueTypeName := by
  have hfixed : ∀ text ∈ ["bool", "std::int32_t", "std::int64_t", "double", "std::string",
      "std::vector<", ">"], name ∉ words text := hname.not_mem_words (by decide +kernel)
  simp only [List.forall_mem_cons] at hfixed
  have helement : name ∉ words p.elementTypeName := by
    unfold elementTypeName
    split
    all_goals simp [hfixed, not_mem_words_enumTypeName hp hname]
  unfold valueTypeName
  split
  · rw [words_append_of_head? (by decide), words_append_of_getLast? (by decide)]
    simp [helement, hfixed]
  · exact helement

/-- The one name in the declaration of a getter that can look like a guard is its own. -/
theorem mem_words_getter_iff (hp : p.Valid owner) (hname : LooksLikeGuard name) :
    name ∈ words (p.getterSignature ++ ";") ↔ p.identifier = name := by
  have hfixed : ∀ text ∈ ["std::optional<", "> ", "(", ")", ";"], name ∉ words text :=
    hname.not_mem_words (by decide +kernel)
  simp only [List.forall_mem_cons] at hfixed
  simp only [getterSignature_eq, String.append_assoc]
  -- at each seam there is a mark, so that no word goes on from one part into the next
  rw [words_append_of_getLast? (by decide), words_append_mark (by decide),
    words_append_of_getLast? (by decide), words_append_mark (by decide),
    words_append_of_getLast? (by decide), words_append_of_getLast? (by decide),
    words_of_isIdentifier hp.isIdentifier_identifier]
  simp [hfixed, not_mem_words_valueTypeName hp hname, eq_comm]

theorem mem_words_setter_iff (hp : p.Valid owner) (hname : LooksLikeGuard name) :
    name ∈ words (p.setterSignature ++ ";") ↔ p.identifier = name := by
  have hfixed : ∀ text ∈ ["bool ", "(const ", "& value", ")", ";"], name ∉ words text :=
    hname.not_mem_words (by decide +kernel)
  simp only [List.forall_mem_cons] at hfixed
  simp only [setterSignature_eq, String.append_assoc]
  rw [words_append_of_getLast? (by decide), words_append_mark (by decide),
    words_append_of_getLast? (by decide), words_append_mark (by decide),
    words_append_mark (by decide), words_append_of_getLast? (by decide),
    words_of_isIdentifier hp.isIdentifier_identifier]
  simp [hfixed, not_mem_words_valueTypeName hp hname, eq_comm]

/-- And the ones in the declaration of an enum type are its symbols. -/
theorem mem_wordsIn_enumLines_iff (hp : p.Valid owner) (hname : LooksLikeGuard name) :
    name ∈ wordsIn p.enumLines ↔ p.type.isEnum = true ∧ name ∈ p.symbols := by
  have hfixed : ∀ text ∈ ["enum class ", " \x7b", "\x7d;"], name ∉ words text :=
    hname.not_mem_words (by decide +kernel)
  simp only [List.forall_mem_cons] at hfixed
  have hslash : '/' ∉ p.enumTypeName.toList :=
    hp.isIdentifier_enumTypeName.isPlain.not_mem (by decide)
  have hheading : codeIn ("enum class " ++ p.enumTypeName ++ " \x7b") =
      "enum class " ++ p.enumTypeName ++ " \x7b" :=
    codeIn_of_not_mem (by simp) (by simp [hslash])
  have hclosing : codeIn "\x7d;" = "\x7d;" := codeIn_of_not_mem (by decide) (by decide)
  have hblank : codeIn "" = "" := by decide
  rw [enumLines_eq]
  split
  · rename_i henum
    have hsymbols := mem_wordsIn_symbols_iff hname (hp.symbols (of_decide_eq_true henum)).1
    simp only [wordsIn_cons, wordsIn_append, hheading, hclosing, hblank]
    rw [words_append_of_head? (by decide), words_append_of_getLast? (by decide)]
    simp [hfixed, not_mem_words_enumTypeName hp hname, hsymbols, henum]
  · simp [*]

theorem mem_wordsIn_declarationLines_iff (hp : p.Valid owner) (hname : LooksLikeGuard name) :
    name ∈ wordsIn p.declarationLines ↔
      p.identifier = name ∨ p.type.isEnum = true ∧ name ∈ p.symbols := by
  have htype : '/' ∉ p.valueTypeName.toList :=
    not_mem_valueTypeName hp.isPlain_identifier (by decide)
  have hident : '/' ∉ p.identifier.toList := hp.isPlain_identifier.not_mem (by decide)
  have hgetter : codeIn (p.getterSignature ++ ";") = p.getterSignature ++ ";" :=
    codeIn_of_not_mem (by simp [getterSignature_eq]) (by simp [getterSignature_eq, htype, hident])
  have hsetter : codeIn (p.setterSignature ++ ";") = p.setterSignature ++ ";" :=
    codeIn_of_not_mem (by simp [setterSignature_eq]) (by simp [setterSignature_eq, htype, hident])
  have hblank : codeIn "" = "" := by decide
  simp only [declarationLines, wordsIn_append, wordsIn_cons, hgetter, hsetter, hblank,
    List.mem_append, mem_wordsIn_enumLines_iff hp hname, mem_words_getter_iff hp hname,
    mem_words_setter_iff hp hname, words_empty, wordsIn_nil, List.not_mem_nil, or_false, or_self]
  exact or_comm

end Property

namespace Schema

variable {s : Schema}

theorem looksLikeGuard_guardName (s : Schema) : LooksLikeGuard s.guardName :=
  ⟨by simp [guardName], by
    rw [guardName, String.toList_append, List.getLast?_append_of_ne_nil _ (by decide)]
    decide⟩

/-- What the guard of a header is around. -/
def guardedLines (s : Schema) : List String :=
  s.headerOpening.drop 4 ++ (s.props.flatMap Property.declarationLines ++ s.headerClosing.take 2)

/-- The lines of a header, but for the three of the guard. -/
def passedLines (s : Schema) : List String :=
  [banner, ""] ++ (s.guardedLines ++ [""])

/-- Whether a schema calls something by a name: a segment of its path, the accessors of a
property, or a symbol. -/
def Mentions (s : Schema) (name : String) : Prop :=
  name ∈ s.segments ∨
    ∃ p ∈ s.props, p.identifier = name ∨ p.type.isEnum = true ∧ name ∈ p.symbols

instance (s : Schema) (name : String) : Decidable (s.Mentions name) :=
  inferInstanceAs (Decidable (name ∈ s.segments ∨
    ∃ p ∈ s.props, p.identifier = name ∨ p.type.isEnum = true ∧ name ∈ p.symbols))

/-- Names in the code of a header that look like a guard are the schema's. -/
theorem mem_wordsIn_passedLines_iff (hs : s.Valid) {name : String} (hname : LooksLikeGuard name) :
    name ∈ wordsIn s.passedLines ↔ s.Mentions name := by
  have hfixed : ∀ text ∈ ["namespace ", " \x7b", "\x7d  ", "::"], name ∉ words text :=
    hname.not_mem_words (by decide +kernel)
  simp only [List.forall_mem_cons] at hfixed
  have hslash := not_mem_namespaceName hs (c := '/') (by decide) (by decide)
  have hpath : name ∈ words s.namespaceName ↔ name ∈ s.segments :=
    mem_words_intercalate_iff (by simp [hfixed]) hs.path.2
  have hopening : codeIn ("namespace " ++ s.namespaceName ++ " \x7b") =
      "namespace " ++ s.namespaceName ++ " \x7b" :=
    codeIn_of_not_mem (by simp) (by simp [hslash])
  have hclosing : codeIn ("\x7d  // namespace " ++ s.namespaceName) = "\x7d  " := by
    -- the path is named in a comment here, where nothing is replaced
    have hfront : '/' ∉ "\x7d  ".toList := by decide
    rw [codeIn, if_neg (by simp), String.toList_append]
    exact congrArg String.ofList (beforeComment_append hfront _)
  have hplain : ∀ line ∈ [banner, "", "#include <cstdint>", "#include <optional>",
      "#include <string>", "#include <vector>"], codeIn line = "" := by decide +kernel
  simp only [List.forall_mem_cons] at hplain
  have hprops : name ∈ wordsIn (s.props.flatMap Property.declarationLines) ↔
      ∃ p ∈ s.props, p.identifier = name ∨ p.type.isEnum = true ∧ name ∈ p.symbols := by
    rw [wordsIn, List.flatMap_assoc, List.mem_flatMap]
    exact exists_congr fun p => and_congr_right fun hp =>
      Property.mem_wordsIn_declarationLines_iff (hs.props p hp) hname
  have hheading : name ∈ words ("namespace " ++ s.namespaceName ++ " \x7b") ↔
      name ∈ s.segments := by
    rw [words_append_of_head? (by decide), words_append_of_getLast? (by decide)]
    simp [hfixed, hpath]
  simp only [passedLines, guardedLines, headerOpening, headerClosing, List.drop_succ_cons,
    List.drop_zero, List.take_succ_cons, List.take_zero, wordsIn_append, wordsIn_cons,
    wordsIn_nil, hplain, hopening, hclosing, words_empty, List.mem_append, hheading, hprops,
    hfixed, List.not_mem_nil, or_false, false_or]
  exact Iff.rfl

/-- More of such macros make the same of the lines of a header just if the schema calls
nothing by their names. -/
theorem map_expand_passedLines_eq_iff (hs : s.Valid) {fewer macros : List String}
    (h : fewer ⊆ macros) (hmacros : ∀ name ∈ macros, LooksLikeGuard name) :
    s.passedLines.map (expand macros) = s.passedLines.map (expand fewer) ↔
      ∀ name ∈ macros, s.Mentions name → name ∈ fewer := by
  rw [List.map_inj_left]
  constructor
  · intro hsame name hname hmentions
    rw [← mem_wordsIn_passedLines_iff hs (hmacros name hname), wordsIn,
      List.mem_flatMap] at hmentions
    obtain ⟨line, hline, hword⟩ := hmentions
    exact (expand_eq_expand_iff h line).1 (hsame line hline) name hword hname
  · intro hnames line hline
    refine (expand_eq_expand_iff h line).2 fun name hword hname => hnames name hname ?_
    rw [← mem_wordsIn_passedLines_iff hs (hmacros name hname), wordsIn, List.mem_flatMap]
    exact ⟨line, hline, hword⟩

/-- So the lines stay as they are where it calls nothing so. -/
theorem map_expand_passedLines_eq_self (hs : s.Valid) {macros : List String}
    (hmacros : ∀ name ∈ macros, LooksLikeGuard name) (h : ∀ name ∈ macros, ¬ s.Mentions name) :
    s.passedLines.map (expand macros) = s.passedLines := by
  have hsame := (map_expand_passedLines_eq_iff hs (List.nil_subset macros) hmacros).2
    fun name hname hmentions => absurd hmentions (h name hname)
  rw [hsame, List.map_congr_left fun line _ => expand_nil line, List.map_id']

/-! ## §3 Inclusion -/

theorem lines_header_eq (hs : s.Valid) :
    lines s.header =
      [banner, ""] ++ ("#ifndef " ++ s.guardName) :: ("#define " ++ s.guardName) ::
        (s.guardedLines ++ ["#endif  // " ++ s.guardName, ""]) := by
  rw [lines_header hs, headerLines, headerOpening, headerClosing, guardedLines, headerOpening,
    headerClosing]
  simp

end Schema

namespace Property

theorem directive?_of_mem_declarationLines (p : Property) :
    ∀ line ∈ p.declarationLines, directive? line = none := by
  have hgetter : (p.getterSignature ++ ";").toList.head? ≠ some '#' := by
    simp [getterSignature_eq]
  have hsetter : (p.setterSignature ++ ";").toList.head? ≠ some '#' := by
    simp [setterSignature_eq]
  have henum : ∀ line ∈ p.enumLines, line.toList.head? ≠ some '#' := by
    rw [enumLines_eq]
    split
    · simp only [List.forall_mem_cons, List.forall_mem_append, List.forall_mem_map]
      exact ⟨by simp, fun _ _ => by simp, by decide, by decide, by simp⟩
    · simp
  intro line hline
  refine directive?_eq_none ?_
  revert line
  simp only [declarationLines, List.forall_mem_append, List.forall_mem_cons]
  exact ⟨henum, hgetter, hsetter, by decide, by simp⟩

end Property

namespace Schema

variable {s : Schema}

theorem directive?_of_mem_guardedLines (s : Schema) :
    ∀ line ∈ s.guardedLines, directive? line = none := by
  have hincludes : ∀ line ∈ ["", "#include <cstdint>", "#include <optional>",
      "#include <string>", "#include <vector>", "", ""], directive? line = none := by
    decide +kernel
  have hopening : directive? ("namespace " ++ s.namespaceName ++ " \x7b") = none :=
    directive?_eq_none (by simp)
  have hclosing : directive? ("\x7d  // namespace " ++ s.namespaceName) = none :=
    directive?_eq_none (by simp)
  simp only [List.forall_mem_cons] at hincludes
  simp only [guardedLines, headerOpening, headerClosing, List.drop_succ_cons, List.drop_zero,
    List.take_succ_cons, List.take_zero, List.forall_mem_append, List.forall_mem_flatMap,
    List.forall_mem_cons, hopening, hclosing, hincludes]
  simpa using fun p (_ : p ∈ s.props) => p.directive?_of_mem_declarationLines

/-- **A header among others**: where its guard is not defined yet, all its lines are passed
on and the guard is defined; where it is, nothing but the lines around the guard is. -/
theorem feed_header (hs : s.Valid) {state : Preprocessor} (hopen : state.conditions = []) :
    state.feed s.header =
      if s.guardName ∈ state.defined then
        { state with passed := state.passed ++ [banner, "", ""] }
      else
        { state with
          defined := s.guardName :: state.defined
          passed :=
            state.passed ++ s.passedLines.map (expand (s.guardName :: state.defined)) } := by
  have hspace := not_mem_guardName hs (c := ' ') (by decide)
  have hblank : directive? "" = none := directive?_eq_none (by decide)
  have hbanner : directive? banner = none := directive?_eq_none (by decide)
  have hblock := Preprocessor.foldl_step_of_none s.directive?_of_mem_guardedLines
  have hbannerText (macros : List String) : expand macros banner = banner :=
    expand_of_codeIn_eq_empty (by decide) macros
  have hblankText (macros : List String) : expand macros "" = "" :=
    expand_of_codeIn_eq_empty (by decide) macros
  rw [Preprocessor.feed, lines_header_eq hs]
  by_cases hdefined : s.guardName ∈ state.defined
  · simp [Preprocessor.step, directive?_ifUndefined hspace, directive?_define hspace,
      directive?_endIf, hblank, hbanner, hblock, hopen, hdefined, hbannerText, hblankText]
  · simp [Preprocessor.step, directive?_ifUndefined hspace, directive?_define hspace,
      directive?_endIf, hblank, hbanner, hblock, hopen, hdefined, hbannerText, hblankText,
      passedLines]

/-- What is left of headers that are included one after the other, each with a guard of its
own, where macros are defined already: all lines, with the names of the guards that are
defined by then replaced. -/
def passedInTurn (macros : List String) : List Schema → List String
  | [] => []
  | s :: schemas =>
    s.passedLines.map (expand (s.guardName :: macros)) ++
      passedInTurn (s.guardName :: macros) schemas

/-- Headers with guards of their own are all passed on, one after the other. -/
theorem passed_foldl_feed {schemas : List Schema} (hvalid : ∀ s ∈ schemas, s.Valid)
    (happart : schemas.Pairwise fun s₁ s₂ => s₁.guardName ≠ s₂.guardName)
    {state : Preprocessor} (hopen : state.conditions = [])
    (hnew : ∀ s ∈ schemas, s.guardName ∉ state.defined) :
    ((schemas.map header).foldl Preprocessor.feed state).passed =
      state.passed ++ passedInTurn state.defined schemas := by
  -- between two headers no conditional is open, and no guard of a later one is defined
  induction schemas generalizing state with
  | nil => simp [passedInTurn]
  | cons s schemas ih =>
    rw [List.forall_mem_cons] at hvalid hnew
    rw [List.pairwise_cons] at happart
    rw [List.map_cons, List.foldl_cons, feed_header hvalid.1 hopen, if_neg hnew.1]
    have hrest : ∀ other ∈ schemas, other.guardName ∉ s.guardName :: state.defined := by
      intro other hother
      simp [hnew.2 other hother, (happart.1 other hother).symm]
    rw [ih hvalid.2 happart.2 (by exact hopen) hrest, passedInTurn, List.append_assoc]

/-- Headers of modules with different guards skip none of each other's lines. -/
theorem included_of_ne {schemas : List Schema} (hvalid : ∀ s ∈ schemas, s.Valid)
    (happart : schemas.Pairwise fun s₁ s₂ => s₁.guardName ≠ s₂.guardName) :
    included (schemas.map header) = passedInTurn [] schemas := by
  rw [included, passed_foldl_feed hvalid happart rfl (by simp)]
  rfl

theorem included_singleton (hs : s.Valid) :
    included [s.header] = s.passedLines.map (expand [s.guardName]) := by
  rw [included, List.foldl_cons, List.foldl_nil, feed_header hs rfl, if_neg (by simp)]
  rfl

theorem included_singleton_eq_self (hs : s.Valid) (h : ¬ s.Mentions s.guardName) :
    included [s.header] = s.passedLines := by
  rw [included_singleton hs]
  exact map_expand_passedLines_eq_self hs (by simp [looksLikeGuard_guardName]) (by simpa using h)

/-- Where the guard is the same, nothing is declared by the second header. -/
theorem included_of_eq {s₁ s₂ : Schema} (h₁ : s₁.Valid) (h₂ : s₂.Valid)
    (hguard : s₁.guardName = s₂.guardName) :
    included [s₁.header, s₂.header] = included [s₁.header] ++ [banner, "", ""] := by
  rw [included_singleton h₁, included, List.foldl_cons, List.foldl_cons, List.foldl_nil,
    feed_header h₁ rfl, if_neg (by simp), feed_header h₂ rfl, if_pos (by simp [hguard])]
  rfl

/-- **Headers of two modules included together**: their guards are the same just if the
paths of the modules agree up to dots and underscores, and then nothing is left of the second
header but the lines around its guard. Otherwise no line of either header is skipped, and what
is left of the second one is the same as without the first one, just if its schema calls
nothing like the guard of the first one, which is a macro by then. -/
theorem headers_together {text₁ text₂ : String} {s₁ s₂ : Schema} (h₁ : load text₁ = .ok s₁)
    (h₂ : load text₂ = .ok s₂) :
    (s₁.guardName = s₂.guardName ↔ s₁.flatPath = s₂.flatPath) ∧
      (s₁.flatPath = s₂.flatPath →
        included [s₁.header, s₂.header] = included [s₁.header] ++ [banner, "", ""]) ∧
      (s₁.flatPath ≠ s₂.flatPath →
        included [s₁.header, s₂.header] =
            s₁.passedLines.map (expand [s₁.guardName]) ++
              s₂.passedLines.map (expand [s₂.guardName, s₁.guardName]) ∧
          (included [s₁.header, s₂.header] = included [s₁.header] ++ included [s₂.header] ↔
            ¬ s₂.Mentions s₁.guardName)) := by
  have hs₁ := valid_of_load h₁
  have hs₂ := valid_of_load h₂
  refine ⟨guardName_inj, fun hflat => ?_, fun hflat => ?_⟩
  · exact included_of_eq hs₁ hs₂ (guardName_inj.2 hflat)
  · have hguard : s₁.guardName ≠ s₂.guardName := guardName_inj.not.2 hflat
    have hboth : included [s₁.header, s₂.header] =
        s₁.passedLines.map (expand [s₁.guardName]) ++
          s₂.passedLines.map (expand [s₂.guardName, s₁.guardName]) := by
      have hturn : included ([s₁, s₂].map header) = passedInTurn [] [s₁, s₂] :=
        included_of_ne (by simp [hs₁, hs₂]) (by simp [hguard])
      simpa [passedInTurn] using hturn
    refine ⟨hboth, ?_⟩
    have hlooks : ∀ name ∈ [s₂.guardName, s₁.guardName], LooksLikeGuard name := by
      simp [looksLikeGuard_guardName]
    rw [hboth, included_singleton hs₁, included_singleton hs₂, List.append_cancel_left_eq,
      map_expand_passedLines_eq_iff hs₂ (by simp) hlooks]
    simp [hguard]

end Schema

/-- A schema for a lamp in the given module. -/
def lampPostText (modulePath : String) : String :=
  "module: \"" ++ modulePath ++ "\"\n" ++
  "prop \x7b api_name: \"on\" type: Boolean access: ReadWrite \x7d\n"

/-- What such a text loads as. -/
def lampPost (modulePath : String) : Schema where
  modulePath := modulePath
  props := [
    { apiName := "on", type := ⟨.boolean, false⟩, access := .readWrite, propName := some "on" }]

/-- A schema with a property that is called like the guard of a lamp. -/
def deskText : String :=
  "module: \"home.Desk\"\n" ++
  "prop \x7b api_name: \"SYSPROPGEN_home_Lamp_H_\" type: Boolean access: ReadWrite \x7d\n"

/-- What it loads as. -/
def desk : Schema where
  modulePath := "home.Desk"
  props := [
    { apiName := "SYSPROPGEN_home_Lamp_H_", type := ⟨.boolean, false⟩, access := .readWrite,
      propName := some "SYSPROPGEN_home_Lamp_H_" }]

/-- The header of a lamp before that of a module whose path goes on from its path, and before
one in which its guard takes the name of a getter away. -/
theorem lamps_together :
    Schema.load (lampPostText "home.Lamp") = .ok (lampPost "home.Lamp") ∧
      Schema.load (lampPostText "home.Lamp.Post") = .ok (lampPost "home.Lamp.Post") ∧
      (lampPost "home.Lamp").guardName ≠ (lampPost "home.Lamp.Post").guardName ∧
      included [(lampPost "home.Lamp").header, (lampPost "home.Lamp.Post").header] =
        (lampPost "home.Lamp").passedLines ++ (lampPost "home.Lamp.Post").passedLines ∧
      included [(lampPost "home.Lamp").header, (lampPost "home.Lamp.Post").header] =
        included [(lampPost "home.Lamp").header] ++ included [(lampPost "home.Lamp.Post").header] ∧
      Schema.load deskText = .ok desk ∧
      "std::optional<bool> SYSPROPGEN_home_Lamp_H_();" ∈ desk.passedLines ∧
      "std::optional<bool> ();" ∈ included [(lampPost "home.Lamp").header, desk.header] ∧
      included [(lampPost "home.Lamp").header, desk.header] ≠
        included [(lampPost "home.Lamp").header] ++ included [desk.header] := by
  have hload₁ : Schema.load (lampPostText "home.Lamp") = .ok (lampPost "home.Lamp") := by
    decide +kernel
  have hload₂ : Schema.load (lampPostText "home.Lamp.Post") = .ok (lampPost "home.Lamp.Post") := by
    decide +kernel
  have hload₃ : Schema.load deskText = .ok desk := by decide +kernel
  obtain ⟨hguard, _, happart⟩ := Schema.headers_together hload₁ hload₂
  obtain ⟨hboth, halone⟩ := happart (by decide +kernel)
  obtain ⟨_, _, hdesk⟩ := Schema.headers_together hload₁ hload₃
  obtain ⟨hlines, hspoilt⟩ := hdesk (by decide +kernel)
  rw [Schema.map_expand_passedLines_eq_self (Schema.valid_of_load hload₁)
      (by simp [Schema.looksLikeGuard_guardName]) (by decide +kernel),
    Schema.map_expand_passedLines_eq_self (Schema.valid_of_load hload₂)
      (by simp [Schema.looksLikeGuard_guardName]) (by decide +kernel)] at hboth
  have hgetter : "std::optional<bool> SYSPROPGEN_home_Lamp_H_();" ∈ desk.passedLines := by
    decide +kernel
  have hexpanded : expand [desk.guardName, (lampPost "home.Lamp").guardName]
      "std::optional<bool> SYSPROPGEN_home_Lamp_H_();" = "std::optional<bool> ();" := by
    decide +kernel
  refine ⟨hload₁, hload₂, hguard.not.2 (by decide +kernel), hboth, halone.2 (by decide +kernel),
    hload₃, hgetter, ?_, fun hsame => hspoilt.1 hsame (by decide +kernel)⟩
  rw [hlines, List.mem_append, ← hexpanded]
  exact .inr (List.mem_map_of_mem hgetter)

/-- Two modules with one guard: whichever header comes second declares nothing. -/
theorem lamp_posts_clash :
    Schema.load (lampPostText "home.Lamp_Post") = .ok (lampPost "home.Lamp_Post") ∧
      Schema.load (lampPostText "home.Lamp.Post") = .ok (lampPost "home.Lamp.Post") ∧
      (lampPost "home.Lamp_Post").modulePath ≠ (lampPost "home.Lamp.Post").modulePath ∧
      (lampPost "home.Lamp_Post").guardName = (lampPost "home.Lamp.Post").guardName ∧
      included [(lampPost "home.Lamp_Post").header, (lampPost "home.Lamp.Post").header] =
        (lampPost "home.Lamp_Post").passedLines ++ [banner, "", ""] ∧
      included [(lampPost "home.Lamp.Post").header, (lampPost "home.Lamp_Post").header] =
        (lampPost "home.Lamp.Post").passedLines ++ [banner, "", ""] := by
  have hload₁ : Schema.load (lampPostText "home.Lamp_Post") = .ok (lampPost "home.Lamp_Post") := by
    decide +kernel
  have hload₂ : Schema.load (lampPostText "home.Lamp.Post") = .ok (lampPost "home.Lamp.Post") := by
    decide +kernel
  have hguard : (lampPost "home.Lamp_Post").guardName = (lampPost "home.Lamp.Post").guardName := by
    decide +kernel
  have hs₁ := Schema.valid_of_load hload₁
  have hs₂ := Schema.valid_of_load hload₂
  have hfirst := Schema.included_of_eq hs₁ hs₂ hguard
  have hsecond := Schema.included_of_eq hs₂ hs₁ hguard.symm
  rw [Schema.included_singleton_eq_self hs₁ (by decide +kernel)] at hfirst
  rw [Schema.included_singleton_eq_self hs₂ (by decide +kernel)] at hsecond
  exact ⟨hload₁, hload₂, by decide, hguard, hfirst, hsecond⟩

end PropSchema
