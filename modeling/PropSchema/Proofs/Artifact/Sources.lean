/-
PropSchema.Proofs.Artifact.Sources — what a source file says of its schema.

The name in the include of a source file is any text, with line feeds or without,
so that the file cannot be cut at a line that follows the name: the name may
contain that line. It is cut from the end: behind its includes a file has no
directive, and so the last line that includes the string library is the one that
the file itself has. From there on the blocks of a file are as long as what its
header declares calls for, and those that define the accessors say which key a
property has and how its values are stored.

§1 Code       — no line behind the includes is a directive or has a line feed.
§2 Includes   — `include_inj_of_source`.
§3 Properties — `source_inj`.
-/
import PropSchema.Proofs.Artifact.Headers

namespace PropSchema

/-! ## §1 Code -/

namespace Artifact

/-- Whether a text is a single line and no directive. -/
structure IsCode (text : String) : Prop where
  isLine : IsLine text
  notDirective : text.toList.head? ≠ some '#'

-- The fixed texts below are taken as lists of characters: to evaluate `String.toList`,
-- each of them would have to be decoded from its bytes.
theorem IsCode.ofList {cs : List Char} (h : '\n' ∉ cs ∧ cs.head? ≠ some '#') :
    IsCode (String.ofList cs) :=
  ⟨isLine_ofList h.1, by simpa using h.2⟩

/-- A line of code goes on as one. -/
theorem IsCode.ofList_append {c : Char} {cs : List Char} {text : String}
    (h : '\n' ∉ c :: cs ∧ c ≠ '#') (htext : IsLine text) :
    IsCode (String.ofList (c :: cs) ++ text) :=
  ⟨isLine_append_iff.2 ⟨isLine_ofList h.1, htext⟩, by simpa using h.2⟩

/-- No part of the support code is a directive. -/
theorem isCode_of_mem_supportCode : ∀ line ∈ supportCode, IsCode line := by
  simp only [supportCode, supportParts, listTrait, booleanParser, integerParsers, doubleParser,
    stringParser, listParser, scalarFormatters, listFormatter, reader, List.intercalate_cons_cons,
    List.intercalate_singleton, List.forall_mem_append, List.forall_mem_cons, List.not_mem_nil,
    false_implies, implies_true, and_true]
  repeat' apply And.intro
  all_goals exact .ofList (by decide)

theorem isCode_of_mem_digitWriters : ∀ line ∈ digitWriters, IsCode line := by
  simp only [digitWriters, List.forall_mem_cons, List.not_mem_nil, false_implies,
    implies_true, and_true]
  repeat' apply And.intro
  all_goals exact .ofList (by decide)

end Artifact

open Artifact

namespace Property

variable {owner : Owner} {p : Property}

theorem isLine_enumTypeName (hp : p.Valid owner) : IsLine p.enumTypeName := by
  simp +decide [enumTypeName, hp.isPlain_identifier.isLine]

theorem isLine_tableName (hp : p.Valid owner) : IsLine p.tableName := by
  simp +decide [tableName, hp.isPlain_identifier.isLine]

theorem isLine_keyLiteral (hp : p.Valid owner) : IsLine (stringLiteral (p.key owner)) := by
  simp +decide [stringLiteral, hp.isPlain_key.isLine]

theorem isCode_of_mem_tableLines (hp : p.Valid owner) (henum : p.type.isEnum = true) :
    ∀ line ∈ p.tableLines, IsCode line := by
  have htype := isLine_enumTypeName hp
  have htable := isLine_tableName hp
  simp only [tableLines, tableRow, stringLiteral, String.append_assoc, List.cons_append,
    List.forall_mem_cons, List.forall_mem_append, List.forall_mem_map, List.not_mem_nil,
    false_implies, implies_true, and_true]
  refine ⟨.ofList_append (by decide) ?_, fun symbol hmem => ?_, .ofList (by decide),
    .ofList (by decide)⟩
  · simp +decide [htype, htable]
  · have hsymbol := (hp.isPlain_symbol henum hmem).isLine
    exact .ofList_append (by decide) (by simp +decide [htype, hsymbol])

theorem isCode_tableLoop (hp : p.Valid owner) : IsCode p.tableLoop := by
  show IsCode ("    for (auto [name, val] : " ++ p.tableName ++ ") \x7b")
  rw [String.append_assoc]
  exact .ofList_append (by decide) (by simp +decide [isLine_tableName hp])

theorem isCode_of_mem_enumParserLines (hp : p.Valid owner) :
    ∀ line ∈ p.enumParserLines, IsCode line := by
  have htype := isLine_enumTypeName hp
  simp only [enumParserLines, String.append_assoc, List.forall_mem_cons, List.not_mem_nil,
    false_implies, implies_true, and_true]
  refine ⟨.ofList (by decide), .ofList_append (by decide) ?_, isCode_tableLoop hp, ?_⟩
  · exact isLine_append_iff.2 ⟨htype, isLine_ofList (by decide)⟩
  · repeat' apply And.intro
    all_goals exact .ofList (by decide)

theorem isCode_of_mem_enumFormatterLines (hp : p.Valid owner) :
    ∀ line ∈ p.enumFormatterLines owner, IsCode line := by
  have htype := isLine_enumTypeName hp
  have hkey := isLine_keyLiteral hp
  simp only [enumFormatterLines, String.append_assoc, List.forall_mem_cons, List.not_mem_nil,
    false_implies, implies_true, and_true]
  refine ⟨.ofList_append (by decide) ?_, isCode_tableLoop hp, ?_⟩
  · exact isLine_append_iff.2 ⟨htype, isLine_ofList (by decide)⟩
  · repeat' apply And.intro
    all_goals try exact .ofList (by decide)
    exact .ofList_append (by decide) (by simp +decide [hkey])

theorem isCode_of_mem_enumSupportLines (hp : p.Valid owner) :
    ∀ line ∈ p.enumSupportLines owner, IsCode line := by
  unfold enumSupportLines
  split
  · rename_i henum
    rw [List.forall_mem_append, List.forall_mem_append]
    exact ⟨⟨isCode_of_mem_tableLines hp henum, isCode_of_mem_enumParserLines hp⟩,
      isCode_of_mem_enumFormatterLines hp⟩
  · simp

theorem isLine_encodedArgument (p : Property) : IsLine p.encodedArgument := by
  unfold encodedArgument
  split
  · exact isLine_ofList (by decide)
  · split
    · exact isLine_ofList (by decide)
    · exact isLine_ofList (by decide)

theorem isCode_of_mem_definitionLines (hp : p.Valid owner) :
    ∀ line ∈ p.definitionLines owner, IsCode line := by
  have hid := hp.isPlain_identifier.isLine
  have hkey := isLine_keyLiteral hp
  have htype := isLine_valueTypeName hp
  have hargument := isLine_encodedArgument p
  have hgetter : IsCode (p.getterSignature ++ " \x7b") := by
    show IsCode ("std::optional<" ++ p.valueTypeName ++ "> " ++ p.identifier ++ "()" ++ " \x7b")
    simp only [String.append_assoc]
    exact .ofList_append (by decide) (by simp +decide [htype, hid])
  have hsetter : IsCode (p.setterSignature ++ " \x7b") := by
    show IsCode ("bool " ++ p.identifier ++ "(const " ++ p.valueTypeName ++ "& value)" ++ " \x7b")
    simp only [String.append_assoc]
    exact .ofList_append (by decide) (by simp +decide [htype, hid])
  simp only [definitionLines, getterLines, setterLines, List.cons_append, List.nil_append,
    String.append_assoc, List.forall_mem_cons, List.not_mem_nil, false_implies, implies_true,
    and_true]
  refine ⟨hgetter, .ofList_append (by decide) ?_, .ofList (by decide), .ofList (by decide),
    hsetter, .ofList_append (by decide) ?_, .ofList (by decide), .ofList (by decide)⟩
  · simp +decide [htype, hkey]
  · simp +decide [hkey, hargument]

end Property

namespace Schema

theorem isCode_of_mem_digitWriterLines (s : Schema) : ∀ line ∈ s.digitWriterLines, IsCode line := by
  unfold digitWriterLines
  split
  · rw [List.forall_mem_append, List.forall_mem_singleton]
    exact ⟨isCode_of_mem_digitWriters, .ofList (by decide)⟩
  · simp

theorem isCode_of_mem_privateLines {s : Schema} (hs : s.Valid) :
    ∀ line ∈ s.privateLines, IsCode line := by
  have hname := isLine_namespaceName hs
  simp only [privateLines, String.append_assoc, List.forall_mem_append, List.forall_mem_flatMap,
    List.forall_mem_cons, List.not_mem_nil, false_implies, implies_true, and_true]
  refine ⟨⟨⟨⟨⟨?_, fun p hp => Property.isCode_of_mem_enumSupportLines (hs.props p hp)⟩,
    isCode_of_mem_supportCode⟩, .ofList (by decide)⟩, isCode_of_mem_digitWriterLines s⟩, ?_⟩
  · repeat' apply And.intro
    all_goals try exact .ofList (by decide)
    exact .ofList_append (by decide) (by simp +decide [hname])
  · exact ⟨.ofList (by decide), .ofList (by decide)⟩

theorem isCode_of_mem_accessorLines {s : Schema} (hs : s.Valid) :
    ∀ line ∈ s.accessorLines, IsCode line := by
  have hname := isLine_namespaceName hs
  simp only [accessorLines, String.append_assoc, List.forall_mem_append, List.forall_mem_flatMap,
    List.forall_mem_cons, List.not_mem_nil, false_implies, implies_true, and_true]
  exact ⟨⟨⟨.ofList_append (by decide) (by simp +decide [hname]), .ofList (by decide)⟩,
    fun p hp => Property.isCode_of_mem_definitionLines (hs.props p hp)⟩,
    .ofList_append (by decide) hname⟩

/-! ## §2 Includes -/

/-- The includes behind the first one that every source file has. -/
def laterIncludes : List String :=
  (includeLines "").drop 5

theorem isLine_of_mem_laterIncludes : ∀ line ∈ laterIncludes, IsLine line := by
  decide +kernel

theorem includeLine_not_mem_laterIncludes : includeLine "cstring" ∉ laterIncludes := by
  simp [laterIncludes, includeLines, includeLine]

theorem sourceLines_eq (s : Schema) (name : String) :
    s.sourceLines name = banner :: "" :: includeLine name :: "" :: includeLine "cstring" ::
      (laterIncludes ++ (s.privateLines ++ s.accessorLines)) := by
  rw [← List.append_assoc]
  rfl

/-- The code of a source file, behind its includes. -/
theorem isCode_of_mem_code {s : Schema} (hs : s.Valid) :
    ∀ line ∈ s.privateLines ++ s.accessorLines, IsCode line :=
  List.forall_mem_append.2 ⟨isCode_of_mem_privateLines hs, isCode_of_mem_accessorLines hs⟩

/-- The lines of a source file. The name in the include may be any text: it takes up as
many lines as it has. -/
theorem lines_source {s : Schema} (hs : s.Valid) (name : String) :
    lines (s.source name) = banner :: "" :: ((lines (includeLine name) ++ [""]) ++
      includeLine "cstring" :: (laterIncludes ++ (s.privateLines ++ s.accessorLines) ++ [""])) := by
  have hrest : ∀ line ∈ "" :: includeLine "cstring" ::
      (laterIncludes ++ (s.privateLines ++ s.accessorLines)), IsLine line := by
    rw [List.forall_mem_cons, List.forall_mem_cons, List.forall_mem_append]
    exact ⟨by decide, by decide, isLine_of_mem_laterIncludes,
      fun line hline => (isCode_of_mem_code hs line hline).isLine⟩
  have hbanner : lines banner = [banner] := lines_of_isLine (isLine_ofList (by decide))
  rw [source, sourceLines_eq, render_cons, render_cons, render_cons, lines_append_newline,
    lines_append_newline, lines_append_newline, lines_render hrest, lines_empty, hbanner]
  simp

/-- **Includes are read back**: the name in the include is what stands before the last of
the lines that include the string library. -/
theorem include_inj_of_source {s₁ s₂ : Schema} (h₁ : s₁.Valid) (h₂ : s₂.Valid) {n₁ n₂ : String}
    (h : s₁.source n₁ = s₂.source n₂) :
    n₁ = n₂ ∧ s₁.privateLines ++ s₁.accessorLines = s₂.privateLines ++ s₂.accessorLines := by
  have hmark : ∀ s : Schema, s.Valid →
      includeLine "cstring" ∉ laterIncludes ++ (s.privateLines ++ s.accessorLines) ++ [""] := by
    intro s hs hmem
    rw [List.mem_append, List.mem_append] at hmem
    rcases hmem with (hmem | hmem) | hmem
    · exact includeLine_not_mem_laterIncludes hmem
    · exact (isCode_of_mem_code hs _ hmem).notDirective rfl
    · simp [includeLine] at hmem
  rw [← lines_inj, lines_source h₁, lines_source h₂, List.cons_inj_right, List.cons_inj_right,
    append_cons_inj_of_last (hmark s₁ h₁) (hmark s₂ h₂), List.append_cancel_right_eq, lines_inj,
    List.append_cancel_right_eq, List.append_cancel_left_eq] at h
  refine ⟨?_, h.2⟩
  have hname : "#include <" ++ n₁ ++ ">" = "#include <" ++ n₂ ++ ">" := h.1
  simpa using hname

end Schema

/-! ## §3 Properties -/

/-- Two properties have the same accessors, each under the owner of its own schema: the
same declarations, and the same text stored under the same key. -/
structure Property.SameAccessors (o₁ o₂ : Owner) (p q : Property) : Prop
    extends p.SameDeclaration q where
  key : p.key o₁ = q.key o₂
  integerAsBool : p.integerAsBool = q.integerAsBool

theorem forall₂_iff_map_eq_map {α β γ : Type} {f : α → γ} {g : β → γ} {as : List α}
    {bs : List β} : List.Forall₂ (fun a b => f a = g b) as bs ↔ as.map f = bs.map g := by
  rw [← List.forall₂_eq_eq_eq, List.forall₂_map_left_iff, List.forall₂_map_right_iff]

/-- Runs of blocks are the same only if their blocks are, where those that stand at the
same place are equally long. -/
theorem flatMap_append_inj {α β γ : Type} {f : α → List γ} {g : β → List γ} {R : α → β → Prop}
    (hlength : ∀ a b, R a b → (f a).length = (g b).length) {as : List α} {bs : List β}
    (hR : List.Forall₂ R as bs) {xs ys : List γ} (h : as.flatMap f ++ xs = bs.flatMap g ++ ys) :
    List.Forall₂ (fun a b => R a b ∧ f a = g b) as bs ∧ xs = ys := by
  induction hR with
  | nil => exact ⟨.nil, h⟩
  | cons hab _ ih =>
    rw [List.flatMap_cons, List.flatMap_cons, List.append_assoc, List.append_assoc] at h
    obtain ⟨hblock, hrest⟩ := List.append_inj h (hlength _ _ hab)
    obtain ⟨hblocks, hxy⟩ := ih hrest
    exact ⟨.cons ⟨hab, hblock⟩ hblocks, hxy⟩

namespace Property

variable {o₁ o₂ : Owner} {p q : Property}

theorem SameDeclaration.type (h : p.SameDeclaration q) : p.type = q.type :=
  congrArg Descriptor.type h.descriptor

theorem SameDeclaration.symbols (h : p.SameDeclaration q) (henum : p.type.isEnum = true) :
    p.symbols = q.symbols := by
  have hsymbols := congrArg Descriptor.symbols h.descriptor
  simpa [Property.descriptor, ← h.type, henum] using hsymbols

theorem SameDeclaration.valueTypeName (h : p.SameDeclaration q) :
    p.valueTypeName = q.valueTypeName := by
  simp only [Property.valueTypeName, elementTypeName, enumTypeName, h.type, h.identifier]

theorem SameDeclaration.length_enumSupportLines (h : p.SameDeclaration q) :
    (p.enumSupportLines o₁).length = (q.enumSupportLines o₂).length := by
  unfold enumSupportLines
  rw [← h.type]
  split
  · simp [tableLines, enumParserLines, enumFormatterLines, h.symbols ‹_›]
  · rfl

theorem integerAsBool_iff_encodedArgument :
    p.integerAsBool = true ↔ p.encodedArgument = "FormatIntegerAsBool(value).c_str()" := by
  unfold encodedArgument
  cases p.integerAsBool with
  | true => simp
  | false =>
    rw [if_neg (by simp)]
    split <;> simp

/-- **Accessors of like declarations** are the same only if they use the same key and
store booleans in the same way. -/
theorem SameDeclaration.sameAccessors (h : p.SameDeclaration q)
    (hlines : p.definitionLines o₁ = q.definitionLines o₂) : p.SameAccessors o₁ o₂ q := by
  simp only [definitionLines, getterLines, setterLines, List.cons_append, List.nil_append,
    List.cons.injEq, ← h.valueTypeName] at hlines
  obtain ⟨_, hgetter, _, _, _, hsetter, _⟩ := hlines
  have hkey : p.key o₁ = q.key o₂ := by
    simpa [Artifact.stringLiteral] using hgetter
  have hargument : p.encodedArgument = q.encodedArgument := by
    simpa [hkey] using hsetter
  refine ⟨h, hkey, ?_⟩
  rw [Bool.eq_iff_iff, integerAsBool_iff_encodedArgument, hargument,
    integerAsBool_iff_encodedArgument]

end Property

namespace Schema

/-- The private part of a source file adds nothing to what is known of the accessors,
and ends where theirs starts. -/
theorem privateLines_append_inj {s₁ s₂ : Schema}
    (hname : s₁.namespaceName = s₂.namespaceName)
    (hsame : List.Forall₂ Property.SameDeclaration s₁.props s₂.props) {xs ys : List String}
    (h : s₁.privateLines ++ xs = s₂.privateLines ++ ys) : xs = ys := by
  simp only [privateLines, hname, List.append_assoc] at h
  have hblocks := List.append_cancel_left h
  obtain ⟨_, hsupport⟩ :=
    flatMap_append_inj (fun _ _ hpq => hpq.length_enumSupportLines) hsame hblocks
  have hdigits := List.append_cancel_left (List.append_cancel_left hsupport)
  unfold digitWriterLines at hdigits
  split at hdigits <;> split at hdigits
  · simpa using hdigits
  · simp [digitWriters] at hdigits
  · simp [digitWriters] at hdigits
  · simpa using hdigits

/-- **Source files are read back**, given the declarations that the header says. -/
theorem source_inj {s₁ s₂ : Schema} (h₁ : s₁.Valid) (h₂ : s₂.Valid)
    (hpath : s₁.modulePath = s₂.modulePath)
    (hsame : List.Forall₂ Property.SameDeclaration s₁.props s₂.props) {n₁ n₂ : String}
    (h : s₁.source n₁ = s₂.source n₂) :
    n₁ = n₂ ∧ List.Forall₂ (Property.SameAccessors s₁.owner s₂.owner) s₁.props s₂.props := by
  have hname : s₁.namespaceName = s₂.namespaceName := by
    rw [namespaceName, namespaceName, segments, segments, hpath]
  obtain ⟨hinclude, hcode⟩ := include_inj_of_source h₁ h₂ h
  have haccessors := privateLines_append_inj hname hsame hcode
  simp only [accessorLines, hname, List.append_assoc] at haccessors
  obtain ⟨hlines, _⟩ := flatMap_append_inj
    (f := Property.definitionLines s₁.owner) (g := Property.definitionLines s₂.owner)
    (fun _ _ _ => rfl) hsame (List.append_cancel_left haccessors)
  exact ⟨hinclude, hlines.imp fun _ _ ⟨hpq, hpqlines⟩ => hpq.sameAccessors hpqlines⟩

end Schema

end PropSchema
