/-
PropSchema.Proofs.Artifact.Contents — the files of a schema, read back.

The blocks of the properties stand between lines that are the same in every file, but for
the name of the namespace. None of these lines starts a section, and so the readers find
in a file of a valid schema what they find in the blocks of its properties, in order.

§1 Initials — lines that start neither a namespace nor a table.
§2 Headers  — the namespace, the signatures and the enum types of a header.
§3 Sources  — the code of a source file: its namespace, functions and tables.
-/
import PropSchema.Proofs.Artifact.Blocks
import PropSchema.Proofs.Artifact.Names

namespace PropSchema

open Artifact

/-! ## §1 Initials -/

namespace Artifact

/-- Whether a line, as its beginning shows, starts neither a namespace nor a table, and
does not end a namespace. -/
structure IsInner (line : String) : Prop where
  notNamespace : line.toList.head? ≠ some 'n'
  notTable : line.toList.head? ≠ some 'c'
  notEnd : line.toList.take 2 ≠ ['\x7d', ' ']

-- As for `IsCode`, the characters of a literal are found by unification.
theorem IsInner.ofList {cs : List Char}
    (h : cs.head? ≠ some 'n' ∧ cs.head? ≠ some 'c' ∧ cs.take 2 ≠ ['\x7d', ' ']) :
    IsInner (String.ofList cs) :=
  ⟨by simpa using h.1, by simpa using h.2.1, by simpa using h.2.2⟩

theorem IsInner.ofList_append {c : Char} {cs : List Char} (h : c ≠ 'n' ∧ c ≠ 'c' ∧ c ≠ '\x7d')
    (text : String) : IsInner (String.ofList (c :: cs) ++ text) :=
  ⟨by simpa using h.1, by simpa using h.2.1, by simp [h.2.2]⟩

theorem IsInner.of_indented {line : String} (h : line.toList.head? = some ' ') :
    IsInner line := by
  obtain ⟨cs, hcs⟩ := List.head?_eq_some_iff.1 h
  exact ⟨by simp [h], by simp [h], by simp [hcs]⟩

theorem IsInner.ne_end {line : String} (h : IsInner line) (name : String) :
    line ≠ "\x7d  // namespace " ++ name := by
  rintro rfl
  exact h.notEnd (by simp)

/-- A namespace around lines that neither start nor end one is read back. -/
theorem yields_namespace (name : String) {body : List String}
    (h : ∀ line ∈ body, IsInner line) :
    Yields namespaceHeading? ("\x7d  // namespace " ++ ·)
      (("namespace " ++ name ++ " \x7b") :: (body ++ ["\x7d  // namespace " ++ name]))
      [(name, body)] :=
  yields_section (between?_append _ _ _)
    (fun line hline => namespaceHeading?_eq_none (h line hline).notNamespace)
    (fun hmem => (h _ hmem).ne_end name rfl) (namespaceHeading?_eq_none (by simp))

theorem isInner_of_mem_supportCode : ∀ line ∈ supportCode, IsInner line := by
  simp only [supportCode, supportParts, listTrait, booleanParser, integerParsers, doubleParser,
    stringParser, listParser, scalarFormatters, listFormatter, reader, List.intercalate_cons_cons,
    List.intercalate_singleton, List.forall_mem_append, List.forall_mem_cons, List.not_mem_nil,
    false_implies, implies_true, and_true]
  repeat' apply And.intro
  all_goals exact .ofList (by decide)

theorem isInner_of_mem_digitWriters : ∀ line ∈ digitWriters, IsInner line := by
  simp only [digitWriters, List.forall_mem_cons, List.not_mem_nil, false_implies, implies_true,
    and_true]
  repeat' apply And.intro
  all_goals exact .ofList (by decide)

end Artifact

namespace Property

variable {p : Property}

theorem isInner_of_mem_definitionLines (owner : Owner) (p : Property) :
    ∀ line ∈ p.definitionLines owner, IsInner line := by
  have hgetter : IsInner (p.getterSignature ++ " \x7b") := by
    rw [getterSignature_eq]
    exact ⟨by simp, by simp, by simp⟩
  have hsetter : IsInner (p.setterSignature ++ " \x7b") := by
    rw [setterSignature_eq]
    exact ⟨by simp, by simp, by simp⟩
  simp only [definitionLines_eq, List.cons_append, List.nil_append, List.forall_mem_cons]
  exact ⟨hgetter, .of_indented (head?_getterStatement owner p), .ofList (by decide),
    .ofList (by decide), hsetter, .of_indented (head?_setterStatement owner p),
    .ofList (by decide), .ofList (by decide), by simp⟩

theorem isInner_of_mem_declarationLines (p : Property) :
    ∀ line ∈ p.declarationLines, IsInner line := by
  have hgetter : IsInner (p.getterSignature ++ ";") := by
    rw [getterSignature_eq]
    exact ⟨by simp, by simp, by simp⟩
  have hsetter : IsInner (p.setterSignature ++ ";") := by
    rw [setterSignature_eq]
    exact ⟨by simp, by simp, by simp⟩
  have henum : ∀ line ∈ p.enumLines, IsInner line := by
    rw [enumLines_eq]
    split
    · simp only [String.append_assoc, List.forall_mem_cons, List.forall_mem_append,
        List.forall_mem_map]
      exact ⟨.ofList_append (by decide) _, fun _ _ => .ofList_append (by decide) _,
        .ofList (by decide), .ofList (by decide), by simp⟩
    · simp
  simp only [declarationLines, List.forall_mem_append, List.forall_mem_cons]
  exact ⟨henum, hgetter, hsetter, .ofList (by decide), by simp⟩

theorem isInner_of_mem_enumParserLines (p : Property) :
    ∀ line ∈ p.enumParserLines, IsInner line := by
  have hbody : ∀ line ∈ p.parserBody, IsInner line := fun line hline =>
    .of_indented (head?_of_mem_parserBody p line hline)
  simp only [enumParserLines_eq, String.append_assoc, List.forall_mem_append,
    List.forall_mem_cons]
  exact ⟨⟨.ofList (by decide), by simp⟩, .ofList_append (by decide) _, hbody,
    .ofList (by decide), .ofList (by decide), by simp⟩

theorem isInner_of_mem_enumFormatterLines (owner : Owner) (p : Property) :
    ∀ line ∈ p.enumFormatterLines owner, IsInner line := by
  have hbody : ∀ line ∈ p.formatterBody owner, IsInner line := fun line hline =>
    .of_indented (head?_of_mem_formatterBody owner p line hline)
  simp only [enumFormatterLines_eq, String.append_assoc, List.forall_mem_append,
    List.forall_mem_cons]
  exact ⟨.ofList_append (by decide) _, hbody, .ofList (by decide), .ofList (by decide), by simp⟩

/-- Of the private code for an enumeration, the table is read as one. -/
theorem yields_enumSupportLines_tables (owner : Owner) (hp : IsPlain p.identifier) :
    Yields tableHeading? (fun _ => "\x7d;") (p.enumSupportLines owner)
      (if p.type.isEnum then [((p.enumTypeName, p.tableName), p.symbols.map p.tableRow)]
        else []) := by
  have hparser : ∀ line ∈ p.enumParserLines, tableHeading? line = none := fun line hline =>
    tableHeading?_eq_none (p.isInner_of_mem_enumParserLines line hline).notTable
  have hformatter : ∀ line ∈ p.enumFormatterLines owner, tableHeading? line = none :=
    fun line hline =>
      tableHeading?_eq_none (p.isInner_of_mem_enumFormatterLines owner line hline).notTable
  unfold enumSupportLines
  split
  · exact ((yields_tableLines hp).append (yields_of_none _ hparser)).append
      (yields_of_none _ hformatter)
  · exact yields_of_none _ (by simp)

theorem head?_of_mem_enumSupportLines (owner : Owner) (p : Property) :
    ∀ line ∈ p.enumSupportLines owner, line.toList.head? ≠ some 'n' := by
  have htable : ∀ line ∈ p.tableLines, line.toList.head? ≠ some 'n' := by
    simp only [tableLines_eq, List.cons_append, List.forall_mem_cons, List.forall_mem_append,
      List.forall_mem_map, head?_tableRow]
    simp
  unfold enumSupportLines
  split
  · simp only [List.forall_mem_append]
    exact ⟨⟨htable, fun line hline => (p.isInner_of_mem_enumParserLines line hline).notNamespace⟩,
      fun line hline => (p.isInner_of_mem_enumFormatterLines owner line hline).notNamespace⟩
  · simp

end Property

/-! ## §2 Headers -/

/-- Blocks of the items that meet a condition, and nothing for the others. -/
theorem flatMap_ite {α β : Type} (P : α → Bool) (f : α → List β) (items : List α) :
    (items.flatMap fun a => if P a then f a else []) = (items.filter P).flatMap f := by
  induction items with
  | nil => rfl
  | cons a items ih =>
    rw [List.flatMap_cons, ih, List.filter_cons]
    split
    · rw [List.flatMap_cons]
    · rfl

namespace Schema

variable {s : Schema}

theorem not_mem_namespaceName (hs : s.Valid) {c : Char} (hkey : Text.isKeyChar c = false)
    (hcolon : c ∉ "::".toList) : c ∉ s.namespaceName.toList :=
  not_mem_intercalate hcolon fun a ha => (hs.path.2 a ha).isPlain.not_mem hkey

theorem not_mem_guardName (hs : s.Valid) {c : Char} (hkey : Text.isKeyChar c = false) :
    c ∉ s.guardName.toList := by
  have hplain : ∀ name : String, name.toList.all Text.isKeyChar = true → c ∉ name.toList :=
    fun _ h => (isPlain_of_all h).not_mem hkey
  have hsegments := not_mem_intercalate (hplain "_" (by decide))
    fun a ha => (hs.path.2 a ha).isPlain.not_mem hkey
  rw [guardName, String.toList_append, String.toList_append, List.mem_append, List.mem_append]
  rintro ((hmem | hmem) | hmem)
  · exact hplain _ (by decide) hmem
  · exact hsegments hmem
  · exact hplain _ (by decide) hmem

theorem lines_header (hs : s.Valid) : lines s.header = s.headerLines s.props ++ [""] :=
  lines_render (isLine_of_mem_headerLines hs)

theorem declaration?_of_mem_headerOpening (hs : s.Valid) :
    ∀ line ∈ s.headerOpening, declaration? line = none := by
  have hns := not_mem_namespaceName hs (c := ')') (by decide) (by decide)
  have hguard := not_mem_guardName hs (c := ')') (by decide)
  intro line hline
  refine declaration?_eq_none ?_
  revert line
  simp [headerOpening, banner, hns, hguard]

theorem declaration?_of_mem_headerClosing (hs : s.Valid) :
    ∀ line ∈ s.headerClosing ++ [""], declaration? line = none := by
  have hns := not_mem_namespaceName hs (c := ')') (by decide) (by decide)
  have hguard := not_mem_guardName hs (c := ')') (by decide)
  intro line hline
  refine declaration?_eq_none ?_
  revert line
  simp [headerClosing, hns, hguard]

/-- A header declares a getter and a setter for each property, and no other function. -/
theorem declarations_header (hs : s.Valid) :
    declarations (lines s.header) =
      s.props.flatMap fun p => [p.getterSignature, p.setterSignature] := by
  have hopening := List.filterMap_eq_nil_iff.2 (declaration?_of_mem_headerOpening hs)
  have hclosing := List.filterMap_eq_nil_iff.2 (declaration?_of_mem_headerClosing hs)
  have hprops : (s.props.flatMap fun p => p.declarationLines.filterMap declaration?) =
      s.props.flatMap fun p => [p.getterSignature, p.setterSignature] :=
    List.flatMap_congr fun p hp => Property.declarations_declarationLines (hs.props p hp)
  rw [declarations, lines_header hs, headerLines, List.append_assoc, List.filterMap_append,
    List.filterMap_append, hopening, hclosing, List.filterMap_flatMap, hprops, List.nil_append,
    List.append_nil]

/-- A header opens and closes one namespace, around all declarations. -/
theorem namespaces_header (hs : s.Valid) :
    namespaces (lines s.header) =
      [(s.namespaceName, "" :: s.props.flatMap Property.declarationLines)] := by
  have hopening : ∀ line ∈ s.headerOpening.take 10, namespaceHeading? line = none := by
    intro line hline
    refine namespaceHeading?_eq_none ?_
    revert line
    simp [headerOpening, banner]
  have hprops : ∀ line ∈ "" :: s.props.flatMap Property.declarationLines, IsInner line := by
    rw [List.forall_mem_cons, List.forall_mem_flatMap]
    exact ⟨.ofList (by decide), fun p _ => p.isInner_of_mem_declarationLines⟩
  have hclosing : ∀ line ∈ ["", "#endif  // " ++ s.guardName, ""],
      namespaceHeading? line = none := by
    intro line hline
    refine namespaceHeading?_eq_none ?_
    revert line
    simp
  have hall := (yields_of_none _ hopening).append
    ((yields_namespace s.namespaceName hprops).append (yields_of_none _ hclosing))
  rw [namespaces, lines_header hs]
  simpa [headerLines, headerOpening, headerClosing] using hall.sections_eq

/-- A header declares the enum types of its properties, and no others. -/
theorem enums_header (hs : s.Valid) :
    enums (lines s.header) = s.enumProps.map fun p => (p.enumTypeName, p.symbols) := by
  have hopening : ∀ line ∈ s.headerOpening, enumHeading? line = none := by
    intro line hline
    refine enumHeading?_eq_none ?_
    revert line
    simp [headerOpening, banner]
  have hprops := yields_flatMap fun (p : Property) (_ : p ∈ s.props) => p.yields_declarationLines
  have hclosing : ∀ line ∈ s.headerClosing ++ [""], enumHeading? line = none := by
    intro line hline
    refine enumHeading?_eq_none ?_
    revert line
    simp [headerClosing]
  have hall := (yields_of_none _ hopening).append (hprops.append (yields_of_none _ hclosing))
  rw [enums, lines_header hs, headerLines, List.append_assoc, List.append_assoc, hall.sections_eq,
    List.nil_append, List.append_nil, List.filterMap_flatMap, enumProps, List.map_eq_flatMap,
    ← flatMap_ite]
  refine List.flatMap_congr fun p _ => ?_
  split
  · simp [Property.mapM_enumeratorLines]
  · rfl

end Schema

/-! ## §3 Sources -/

namespace Artifact

/-- The code of a file is what stands behind a directive, if there is no other in it. -/
theorem codeLines_eq {text directive : String} {before code : List String}
    (hlines : lines text = before ++ directive :: code)
    (hdirective : directive.toList.head? = some '#')
    (hcode : ∀ line ∈ code, line.toList.head? ≠ some '#') : codeLines text = code := by
  have hall : ∀ line ∈ code.reverse, decide (line.toList.head? ≠ some '#') = true := by
    simpa using hcode
  rw [codeLines, hlines, List.rtakeWhile, List.reverse_append, List.reverse_cons,
    List.append_assoc, List.takeWhile_append_of_pos hall]
  simp [hdirective]

end Artifact

namespace Schema

variable {s : Schema}

/-- The code of a source file, whatever the name of the header. -/
theorem codeLines_source (hs : s.Valid) (includeName : String) :
    codeLines (s.source includeName) = "" :: (s.privateLines ++ s.accessorLines ++ [""]) := by
  obtain ⟨before, hbefore⟩ : ∃ before,
      laterIncludes = before ++ [includeLine "android-base/strings.h", ""] :=
    ⟨laterIncludes.dropLast.dropLast, by decide +kernel⟩
  have hlines : lines (s.source includeName) =
      (banner :: "" :: (lines (includeLine includeName) ++
          "" :: includeLine "cstring" :: before)) ++
        includeLine "android-base/strings.h" ::
          ("" :: (s.privateLines ++ s.accessorLines ++ [""])) := by
    rw [lines_source hs, hbefore]
    simp
  refine codeLines_eq hlines (by simp [includeLine]) ?_
  rw [List.forall_mem_cons, List.forall_mem_append]
  exact ⟨by simp, fun line hline => (isCode_of_mem_code hs line hline).notDirective, by simp⟩

/-- The lines of the code before those of the enumerations. -/
def codeOpening (s : Schema) : List String :=
  ["", "namespace \x7b", "", "using namespace " ++ s.namespaceName ++ ";", "",
    "template <typename T> std::optional<T> DoParse(const char* str);", ""]

/-- The lines of the private part that are the same in every file. -/
def helperLines (s : Schema) : List String :=
  supportCode ++ [""] ++ s.digitWriterLines

/-- The code of a source file, part by part. -/
theorem codeLines_source_eq (hs : s.Valid) (includeName : String) :
    codeLines (s.source includeName) =
      s.codeOpening ++ (s.props.flatMap (Property.enumSupportLines s.owner) ++
        (s.helperLines ++ (["\x7d  // namespace", ""] ++ (s.accessorLines ++ [""])))) := by
  simp [codeLines_source hs, codeOpening, helperLines, privateLines]

theorem isInner_of_mem_helperLines (s : Schema) : ∀ line ∈ s.helperLines, IsInner line := by
  have hdigits : ∀ line ∈ s.digitWriterLines, IsInner line := by
    unfold digitWriterLines
    split
    · rw [List.forall_mem_append, List.forall_mem_singleton]
      exact ⟨isInner_of_mem_digitWriters, .ofList (by decide)⟩
    · simp
  simp only [helperLines, List.forall_mem_append, List.forall_mem_singleton]
  exact ⟨⟨isInner_of_mem_supportCode, .ofList (by decide)⟩, hdigits⟩

theorem isInner_of_mem_definitions (s : Schema) :
    ∀ line ∈ "" :: s.props.flatMap (Property.definitionLines s.owner), IsInner line := by
  rw [List.forall_mem_cons, List.forall_mem_flatMap]
  exact ⟨.ofList (by decide), fun p _ => p.isInner_of_mem_definitionLines s.owner⟩

/-- A source file opens and closes one namespace with a name, around all accessors. -/
theorem namespaces_source (hs : s.Valid) (includeName : String) :
    namespaces (codeLines (s.source includeName)) =
      [(s.namespaceName, "" :: s.props.flatMap (Property.definitionLines s.owner))] := by
  have hopening : ∀ line ∈ s.codeOpening, namespaceHeading? line = none := by
    have hanonymous : namespaceHeading? "namespace \x7b" = none := by decide
    simp only [codeOpening, List.forall_mem_cons]
    exact ⟨namespaceHeading?_eq_none (by simp), hanonymous, namespaceHeading?_eq_none (by simp),
      namespaceHeading?_eq_none (by simp), namespaceHeading?_eq_none (by simp),
      namespaceHeading?_eq_none (by simp), namespaceHeading?_eq_none (by simp), by simp⟩
  have henums : ∀ line ∈ s.props.flatMap (Property.enumSupportLines s.owner),
      namespaceHeading? line = none := by
    rw [List.forall_mem_flatMap]
    exact fun p _ line hline =>
      namespaceHeading?_eq_none (p.head?_of_mem_enumSupportLines s.owner line hline)
  have hhelpers : ∀ line ∈ s.helperLines, namespaceHeading? line = none := fun line hline =>
    namespaceHeading?_eq_none (s.isInner_of_mem_helperLines line hline).notNamespace
  have hblank : namespaceHeading? "" = none := namespaceHeading?_eq_none (by simp)
  have hend : ∀ line ∈ ["\x7d  // namespace", ""], namespaceHeading? line = none := by
    simpa [hblank] using namespaceHeading?_eq_none
      (show "\x7d  // namespace".toList.head? ≠ some 'n' by simp)
  have haccessors :=
    (yields_namespace s.namespaceName s.isInner_of_mem_definitions).append_blank hblank
  have hall := (yields_of_none _ hopening).append ((yields_of_none _ henums).append
    ((yields_of_none _ hhelpers).append ((yields_of_none _ hend).append haccessors)))
  rw [namespaces, codeLines_source_eq hs]
  simpa [accessorLines] using hall.sections_eq

/-- The functions in the namespace of a source file are the accessors, in order. -/
theorem definitionsIn_source (hs : s.Valid) (includeName : String) :
    definitionsIn s.namespaceName (codeLines (s.source includeName)) =
      s.props.flatMap (Property.functions s.owner) := by
  have hblank : ∀ line ∈ [""], definition? line = none := by
    simpa using definition?_blank
  have hall := (yields_of_none (fun _ => "\x7d") hblank).append
    (yields_flatMap fun (p : Property) (_ : p ∈ s.props) => p.yields_definitionLines s.owner)
  rw [definitionsIn, namespaces_source hs]
  simpa [definitions] using hall.sections_eq

/-- The private functions of a source file are the parsers and formatters of its
enumerations, in order, and others behind them. -/
theorem exists_definitions_source (hs : s.Valid) (includeName : String) :
    ∃ others, definitions (codeLines (s.source includeName)) =
      s.props.flatMap (Property.enumFunctions s.owner) ++ others := by
  have hbrace := not_mem_namespaceName hs (c := ')') (by decide) (by decide)
  have hopening : ∀ line ∈ s.codeOpening, definition? line = none := by
    simp only [codeOpening, List.forall_mem_cons]
    exact ⟨definition?_blank, definition?_eq_none (c := ')') (by decide) (by decide),
      definition?_blank, definition?_eq_none (c := ')') (by decide) (by simp [hbrace]),
      definition?_blank, definition?_eq_none (c := '\x7b') (by decide) (by decide),
      definition?_blank, by simp⟩
  have henums := yields_flatMap fun p hp =>
    Property.yields_enumSupportLines s.owner (hs.props p hp).isPlain_identifier
  rw [definitions, codeLines_source_eq hs, ← List.append_assoc,
    (yields_of_none _ hopening).append henums]
  exact ⟨_, rfl⟩

/-- The tables of a source file are those of its enumerations, in order. -/
theorem tables_source (hs : s.Valid) (includeName : String) :
    tables (codeLines (s.source includeName)) =
      s.enumProps.map fun p => (p.tableName, p.table) := by
  have hopening : ∀ line ∈ s.codeOpening, tableHeading? line = none := by
    intro line hline
    refine tableHeading?_eq_none ?_
    revert line
    simp [codeOpening]
  have henums := yields_flatMap fun p hp =>
    Property.yields_enumSupportLines_tables s.owner (hs.props p hp).isPlain_identifier
  have haccessors : ∀ line ∈ s.accessorLines, line.toList.head? ≠ some 'c' := by
    have hbody := s.isInner_of_mem_definitions
    rw [List.forall_mem_cons] at hbody
    simp only [accessorLines, List.forall_mem_append, List.forall_mem_cons]
    exact ⟨⟨⟨by simp, by simp, by simp⟩, fun line hline => (hbody.2 line hline).notTable⟩,
      by simp, by simp⟩
  have hrest : ∀ line ∈ s.helperLines ++ (["\x7d  // namespace", ""] ++ (s.accessorLines ++ [""])),
      tableHeading? line = none := by
    intro line hline
    refine tableHeading?_eq_none ?_
    revert line
    simp only [List.forall_mem_append]
    exact ⟨fun line hline => (s.isInner_of_mem_helperLines line hline).notTable, by simp,
      haccessors, by simp⟩
  have hall := (yields_of_none _ hopening).append (henums.append (yields_of_none _ hrest))
  rw [tables, codeLines_source_eq hs, hall.sections_eq, List.nil_append, List.append_nil,
    List.filterMap_flatMap, enumProps, List.map_eq_flatMap, ← flatMap_ite]
  refine List.flatMap_congr fun p hp => ?_
  split
  · rename_i henum
    simp [Property.mapM_row? (hs.props p hp) henum, Property.table, Table.ofEnumerators]
  · rfl

end Schema

end PropSchema
