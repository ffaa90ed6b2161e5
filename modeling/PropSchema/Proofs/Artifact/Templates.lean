/-
PropSchema.Proofs.Artifact.Templates — generated files as templates that are filled in.

What a generator takes over from its input may end a name or a string literal too early and
be read as code. Here it cannot: apart from the name of the header, which does not come from
the schema, the files are templates that are the same for all schemas of one shape, and what
fills their places are identifiers, and keys and symbols of which no character ends a
literal. `artifacts_fill_templates` says so for every schema that loads, and that symbols of
a property without an enumeration, which are never checked, are not taken over.

§1 Templates — lines with places in them, and what may fill them.
§2 Layouts   — the templates of a header and of a source file.
§3 Contents  — the files are their templates, filled in.
§4 Safety    — what fills a place ends neither names nor literals.
§5 Files     — `artifacts_fill_templates`.
-/
import PropSchema.Proofs.Artifact.DigestInput

namespace PropSchema

/-! ## §1 Templates -/

namespace Artifact

/-- A piece of a line in a template: a text of its own, or a place to be filled in. -/
inductive Piece (σ : Type) where
  | fixed (text : String)
  /-- The place of an identifier. -/
  | name (place : σ)
  /-- A string literal, the place of what is between its quotes. -/
  | literal (place : σ)
  deriving DecidableEq, Repr

/-- The lines of a template. -/
abbrev Template (σ : Type) := List (List (Piece σ))

/-- Lines without places. -/
def fixedLines {σ : Type} (texts : List String) : Template σ :=
  texts.map fun text => [.fixed text]

variable {σ : Type}

/-- What is written for a piece of a line. -/
def Piece.text (filling : σ → String) : Piece σ → String
  | .fixed text => text
  | .name place => filling place
  | .literal place => stringLiteral (filling place)

/-- A line with its places filled in. -/
def filledLine (filling : σ → String) (line : List (Piece σ)) : String :=
  String.join (line.map (Piece.text filling))

/-- A template with its places filled in. -/
def filled (filling : σ → String) (template : Template σ) : List String :=
  template.map (filledLine filling)

/-- Whether a piece does not reach beyond itself: a fixed text stays on its line, and what
fills a place is a single identifier, or ends no literal. -/
def Piece.IsSafe (filling : σ → String) : Piece σ → Prop
  | .fixed text => IsLine text
  | .name place => IsIdentifier (filling place)
  | .literal place => IsDottedName (filling place)

/-- Whether all pieces of a line are safe. -/
def IsSafeLine (filling : σ → String) (line : List (Piece σ)) : Prop :=
  ∀ piece ∈ line, piece.IsSafe filling

/-- Whether all pieces of a template are safe. -/
def IsSafe (filling : σ → String) (template : Template σ) : Prop :=
  ∀ line ∈ template, IsSafeLine filling line

variable {filling : σ → String}

@[simp]
theorem filledLine_nil : filledLine filling [] = "" := rfl

@[simp]
theorem filledLine_cons (piece : Piece σ) (line : List (Piece σ)) :
    filledLine filling (piece :: line) = piece.text filling ++ filledLine filling line := by
  simp [filledLine, String.join_cons]

@[simp]
theorem filledLine_append (line rest : List (Piece σ)) :
    filledLine filling (line ++ rest) = filledLine filling line ++ filledLine filling rest := by
  induction line with
  | nil => simp
  | cons piece line ih =>
    rw [List.cons_append, filledLine_cons, filledLine_cons, ih, String.append_assoc]

@[simp]
theorem filled_nil : filled filling [] = [] := rfl

@[simp]
theorem filled_cons (line : List (Piece σ)) (template : Template σ) :
    filled filling (line :: template) = filledLine filling line :: filled filling template :=
  rfl

@[simp]
theorem filled_append (template rest : Template σ) :
    filled filling (template ++ rest) = filled filling template ++ filled filling rest :=
  List.map_append

@[simp]
theorem filled_fixedLines (texts : List String) : filled filling (fixedLines texts) = texts := by
  simp [filled, fixedLines, Piece.text, Function.comp_def]

theorem Piece.IsSafe.isLine {piece : Piece σ} (h : piece.IsSafe filling) :
    IsLine (piece.text filling) := by
  cases piece with
  | fixed text => exact h
  | name place => exact (IsIdentifier.isPlain h).isLine
  | literal place => simp +decide [text, stringLiteral, (IsDottedName.isPlain h).isLine]

theorem IsSafeLine.isLine {line : List (Piece σ)} (h : IsSafeLine filling line) :
    IsLine (filledLine filling line) := by
  induction line with
  | nil => simp [IsLine]
  | cons piece line ih =>
    obtain ⟨hpiece, hline⟩ := List.forall_mem_cons.1 h
    rw [filledLine_cons, isLine_append_iff]
    exact ⟨hpiece.isLine, ih hline⟩

theorem IsSafe.isLine {template : Template σ} (h : IsSafe filling template) :
    ∀ line ∈ filled filling template, IsLine line :=
  List.forall_mem_map.2 fun line hline => (h line hline).isLine

/-- Parts with a separator between them are written with it between them. -/
theorem filledLine_intersperse (sep : String) (line : List (Piece σ)) :
    filledLine filling (line.intersperse (.fixed sep)) =
      sep.intercalate (line.map (Piece.text filling)) := by
  induction line with
  | nil => rfl
  | cons piece line ih =>
    cases line with
    | nil => simp
    | cons next line =>
      rw [List.intersperse_cons_cons, filledLine_cons, filledLine_cons, ih]
      simp [Piece.text, String.intercalate_cons_cons, String.append_assoc]

/-- Places that are numbered from zero are filled from a list. -/
theorem map_range_getD (texts : List String) :
    ((List.range texts.length).map fun i => texts.getD i "") = texts := by
  refine List.ext_getElem (by simp) fun i _ hi => ?_
  simp [hi]

end Artifact

open Artifact

/-! ## §2 Layouts -/

/-- The places that are filled once for a file. -/
inductive FramePlace where
  | guard
  | segment (i : Nat)
  deriving DecidableEq, Repr

/-- The places that are filled for each property. -/
inductive PropertyPlace where
  | accessor
  | enumType
  | table
  | symbol (i : Nat)
  | key
  deriving DecidableEq, Repr

/-- What the templates of a property depend on: none of its texts. -/
structure Property.Shape where
  type : ValueType
  symbolCount : Nat
  integerAsBool : Bool
  deriving DecidableEq, Repr

namespace Layout

/-- The name of a namespace with the given number of segments. -/
def namespaceName (segments : Nat) : List (Piece FramePlace) :=
  ((List.range segments).map fun i => .name (.segment i)).intersperse (.fixed "::")

/-- The type of a single value. -/
def elementType : Kind → List (Piece PropertyPlace)
  | .boolean => [.fixed "bool"]
  | .int32 => [.fixed "std::int32_t"]
  | .int64 => [.fixed "std::int64_t"]
  | .double => [.fixed "double"]
  | .string => [.fixed "std::string"]
  | .enumeration => [.name .enumType]

/-- The type of a property's values. -/
def valueType (type : ValueType) : List (Piece PropertyPlace) :=
  if type.isList then .fixed "std::vector<" :: (elementType type.kind ++ [.fixed ">"])
  else elementType type.kind

def getterSignature (type : ValueType) : List (Piece PropertyPlace) :=
  .fixed "std::optional<" :: (valueType type ++ [.fixed "> ", .name .accessor, .fixed "()"])

def setterSignature (type : ValueType) : List (Piece PropertyPlace) :=
  .fixed "bool " :: .name .accessor :: .fixed "(const " :: (valueType type ++ [.fixed "& value)"])

/-! ### Headers -/

def headerOpening (segments : Nat) : Template FramePlace :=
  fixedLines [banner, ""] ++
    [[.fixed "#ifndef ", .name .guard], [.fixed "#define ", .name .guard]] ++
    fixedLines ["", "#include <cstdint>", "#include <optional>", "#include <string>",
      "#include <vector>", ""] ++
    [.fixed "namespace " :: (namespaceName segments ++ [.fixed " \x7b"]), []]

def headerClosing (segments : Nat) : Template FramePlace :=
  [.fixed "\x7d  // namespace " :: namespaceName segments, [],
    [.fixed "#endif  // ", .name .guard]]

def enumerator (i : Nat) : List (Piece PropertyPlace) :=
  [.fixed "    ", .name (.symbol i), .fixed ","]

def enumDeclaration (shape : Property.Shape) : Template PropertyPlace :=
  if shape.type.isEnum then
    [.fixed "enum class ", .name .enumType, .fixed " \x7b"] ::
      ((List.range shape.symbolCount).map enumerator ++ fixedLines ["\x7d;", ""])
  else []

/-- The declarations of a property. -/
def declarations (shape : Property.Shape) : Template PropertyPlace :=
  enumDeclaration shape ++
    [getterSignature shape.type ++ [.fixed ";"], setterSignature shape.type ++ [.fixed ";"], []]

/-! ### Sources -/

def tableRow (i : Nat) : List (Piece PropertyPlace) :=
  [.fixed "    \x7b", .literal (.symbol i), .fixed ", ", .name .enumType, .fixed "::",
    .name (.symbol i), .fixed "\x7d,"]

def table (shape : Property.Shape) : Template PropertyPlace :=
  [.fixed "constexpr const std::pair<const char*, ", .name .enumType, .fixed "> ", .name .table,
      .fixed "[] = \x7b"] ::
    ((List.range shape.symbolCount).map tableRow ++ fixedLines ["\x7d;", ""])

/-- The line that starts a loop over a table. -/
def tableLoop : List (Piece PropertyPlace) :=
  [.fixed "    for (auto [name, val] : ", .name .table, .fixed ") \x7b"]

def enumParser : Template PropertyPlace :=
  fixedLines ["template <>"] ++
    [[.fixed "std::optional<", .name .enumType, .fixed "> DoParse(const char* str) \x7b"],
      tableLoop] ++
    fixedLines ["        if (strcmp(str, name) == 0) \x7b", "            return val;",
      "        \x7d", "    \x7d", "    return std::nullopt;", "\x7d", ""]

def enumFormatter : Template PropertyPlace :=
  [[.fixed "std::string FormatValue(", .name .enumType, .fixed " value) \x7b"], tableLoop] ++
    fixedLines ["        if (val == value) \x7b", "            return name;", "        \x7d",
      "    \x7d"] ++
    [[.fixed ("    LOG(FATAL) << \"Invalid value \" << static_cast<std::int32_t>(value) << " ++
        "\" for property \" << "), .literal .key, .fixed ";"]] ++
    fixedLines ["    __builtin_unreachable();", "\x7d", ""]

/-- The private code for the enumeration of a property, if it has one. -/
def enumSupport (shape : Property.Shape) : Template PropertyPlace :=
  if shape.type.isEnum then table shape ++ enumParser ++ enumFormatter else []

/-- The expression for the stored text of a setter's argument. -/
def encodedArgument (shape : Property.Shape) : String :=
  if shape.integerAsBool then "FormatIntegerAsBool(value).c_str()"
  else if shape.type = ⟨.string, false⟩ then "value.c_str()"
  else "FormatValue(value).c_str()"

/-- The definitions of a property's accessors. -/
def definitions (shape : Property.Shape) : Template PropertyPlace :=
  [getterSignature shape.type ++ [.fixed " \x7b"],
    .fixed "    return GetProp<" :: (valueType shape.type ++
      [.fixed ">(", .literal .key, .fixed ");"])] ++
    fixedLines ["\x7d", ""] ++
    [setterSignature shape.type ++ [.fixed " \x7b"],
      [.fixed "    return __system_property_set(", .literal .key, .fixed ", ",
        .fixed (encodedArgument shape), .fixed ") == 0;"]] ++
    fixedLines ["\x7d", ""]

def privateOpening (segments : Nat) : Template FramePlace :=
  fixedLines ["namespace \x7b", ""] ++
    [.fixed "using namespace " :: (namespaceName segments ++ [.fixed ";"])] ++
    fixedLines ["", "template <typename T> std::optional<T> DoParse(const char* str);", ""]

/-- The helpers, with the writers of booleans as digits where they are needed. -/
def privateClosing (digits : Bool) : Template FramePlace :=
  fixedLines (supportCode ++ [""] ++ (if digits then digitWriters ++ [""] else []) ++
    ["\x7d  // namespace", ""])

def accessorOpening (segments : Nat) : Template FramePlace :=
  [.fixed "namespace " :: (namespaceName segments ++ [.fixed " \x7b"]), []]

def accessorClosing (segments : Nat) : Template FramePlace :=
  [.fixed "\x7d  // namespace " :: namespaceName segments]

end Layout

/-- A part of a file: lines that it has once, or lines for each property. -/
inductive Block where
  | once (template : Template FramePlace)
  | each (template : Property.Shape → Template PropertyPlace)

/-- The layout of a header, for a module path with so many segments. -/
def headerLayout (segments : Nat) : List Block :=
  [.once (Layout.headerOpening segments), .each Layout.declarations,
    .once (Layout.headerClosing segments)]

/-- The layout of a source file behind the line that includes the header. -/
def sourceLayout (segments : Nat) (digits : Bool) : List Block :=
  [.once (fixedLines ("" :: includeLine "cstring" :: Schema.laterIncludes)),
    .once (Layout.privateOpening segments), .each Layout.enumSupport,
    .once (Layout.privateClosing digits), .once (Layout.accessorOpening segments),
    .each Layout.definitions, .once (Layout.accessorClosing segments)]

/-! ## §3 Contents -/

namespace Property

/-- The shape of a property. -/
def shape (p : Property) : Shape :=
  ⟨p.type, p.descriptor.symbols.length, p.integerAsBool⟩

/-- What fills the places for a property. -/
def filling (owner : Owner) (p : Property) : PropertyPlace → String
  | .accessor => p.identifier
  | .enumType => p.enumTypeName
  | .table => p.tableName
  | .symbol i => p.symbols.getD i ""
  | .key => p.key owner

end Property

namespace Schema

/-- What fills the places of the frame of a file. -/
def filling (s : Schema) : FramePlace → String
  | .guard => s.guardName
  | .segment i => s.segments.getD i ""

/-- A layout filled in with what a schema has, for some of its properties. -/
def fill (s : Schema) (props : List Property) (layout : List Block) : List String :=
  layout.flatMap fun
    | .once template => filled s.filling template
    | .each template => props.flatMap fun p => filled (p.filling s.owner) (template p.shape)

end Schema

namespace Property

variable {owner : Owner}

theorem filled_valueType (p : Property) :
    filledLine (p.filling owner) (Layout.valueType p.type) = p.valueTypeName := by
  have helement : filledLine (p.filling owner) (Layout.elementType p.type.kind) =
      p.elementTypeName := by
    unfold Layout.elementType elementTypeName
    cases p.type.kind <;> simp [Piece.text, filling]
  unfold Layout.valueType valueTypeName
  split
  · simp [Piece.text, helement, String.append_assoc]
  · exact helement

-- The equations of the lines of the generator are found by `rfl`: they are too long to be
-- unfolded by `simp`.
theorem filled_getterSignature (p : Property) :
    filledLine (p.filling owner) (Layout.getterSignature p.type) = p.getterSignature := by
  simp only [Layout.getterSignature, filledLine_cons, filledLine_append, filledLine_nil,
    filled_valueType, String.append_empty, ← String.append_assoc]
  rfl

theorem filled_setterSignature (p : Property) :
    filledLine (p.filling owner) (Layout.setterSignature p.type) = p.setterSignature := by
  simp only [Layout.setterSignature, filledLine_cons, filledLine_append, filledLine_nil,
    filled_valueType, String.append_empty, ← String.append_assoc]
  rfl

/-- With a line for each place of a symbol there is one for each symbol. -/
theorem filled_symbols (p : Property) (henum : p.type.isEnum = true)
    {line : Nat → List (Piece PropertyPlace)} {text : String → String}
    (h : ∀ i, filledLine (p.filling owner) (line i) = text (p.symbols.getD i "")) :
    filled (p.filling owner) ((List.range p.shape.symbolCount).map line) = p.symbols.map text := by
  have hcount : p.shape.symbolCount = p.symbols.length := by
    simp [shape, descriptor, henum]
  rw [← map_range_getD p.symbols, hcount]
  simp [filled, h]

theorem filled_enumerator (p : Property) (i : Nat) :
    filledLine (p.filling owner) (Layout.enumerator i) =
      "    " ++ p.symbols.getD i "" ++ "," := by
  simp only [Layout.enumerator, filledLine_cons, filledLine_nil, String.append_empty,
    ← String.append_assoc]
  rfl

theorem filled_enumDeclaration (p : Property) :
    filled (p.filling owner) (Layout.enumDeclaration p.shape) = p.enumLines := by
  rw [enumLines_eq, Layout.enumDeclaration]
  by_cases henum : p.type.isEnum = true
  · have hsymbols : filled (p.filling owner)
        ((List.range p.shape.symbolCount).map Layout.enumerator) =
          p.symbols.map fun symbol => "    " ++ symbol ++ "," :=
      p.filled_symbols henum p.filled_enumerator
    rw [if_pos henum, if_pos (by exact henum), filled_cons, filled_append, hsymbols,
      filled_fixedLines]
    simp only [filledLine_cons, filledLine_nil, String.append_empty, ← String.append_assoc]
    rfl
  · rw [if_neg henum, if_neg (by exact henum), filled_nil]

theorem filled_declarations (p : Property) :
    filled (p.filling owner) (Layout.declarations p.shape) = p.declarationLines := by
  rw [Layout.declarations, filled_append, filled_enumDeclaration, declarationLines]
  simp [shape, filled_getterSignature, filled_setterSignature, Piece.text]

theorem filled_tableRow (p : Property) (i : Nat) :
    filledLine (p.filling owner) (Layout.tableRow i) = p.tableRow (p.symbols.getD i "") := by
  simp only [Layout.tableRow, filledLine_cons, filledLine_nil, String.append_empty,
    ← String.append_assoc]
  rfl

theorem filled_table (p : Property) (henum : p.type.isEnum = true) :
    filled (p.filling owner) (Layout.table p.shape) = p.tableLines := by
  rw [Layout.table, filled_cons, filled_append, p.filled_symbols henum p.filled_tableRow,
    filled_fixedLines, tableLines]
  simp only [filledLine_cons, filledLine_nil, String.append_empty, ← String.append_assoc]
  rfl

theorem filled_enumParser (p : Property) :
    filled (p.filling owner) Layout.enumParser = p.enumParserLines := by
  simp only [Layout.enumParser, Layout.tableLoop, filled_append, filled_cons, filled_nil,
    filled_fixedLines, filledLine_cons, filledLine_nil, String.append_empty, ← String.append_assoc]
  rfl

theorem filled_enumFormatter (p : Property) :
    filled (p.filling owner) Layout.enumFormatter = p.enumFormatterLines owner := by
  simp only [Layout.enumFormatter, Layout.tableLoop, filled_append, filled_cons, filled_nil,
    filled_fixedLines, filledLine_cons, filledLine_nil, String.append_empty, ← String.append_assoc]
  rfl

theorem filled_enumSupport (p : Property) :
    filled (p.filling owner) (Layout.enumSupport p.shape) = p.enumSupportLines owner := by
  rw [Layout.enumSupport, enumSupportLines]
  by_cases henum : p.type.isEnum = true
  · rw [if_pos henum, if_pos (by exact henum), filled_append, filled_append, p.filled_table henum,
      filled_enumParser, filled_enumFormatter]
  · rw [if_neg henum, if_neg (by exact henum), filled_nil]

theorem filled_definitions (p : Property) :
    filled (p.filling owner) (Layout.definitions p.shape) = p.definitionLines owner := by
  have htype : p.shape.type = p.type := rfl
  simp only [Layout.definitions, htype, filled_append, filled_cons, filled_nil, filled_fixedLines,
    filledLine_append, filledLine_cons, filledLine_nil, filled_getterSignature,
    filled_setterSignature, filled_valueType, String.append_empty, ← String.append_assoc]
  rfl

end Property

namespace Schema

theorem filled_namespaceName (s : Schema) :
    filledLine s.filling (Layout.namespaceName s.segments.length) = s.namespaceName := by
  rw [Layout.namespaceName, filledLine_intersperse, List.map_map, namespaceName]
  exact congrArg _ (map_range_getD s.segments)

/-- The header that declares some of the properties is the layout of headers, filled in. -/
theorem fill_headerLayout (s : Schema) (props : List Property) :
    s.fill props (headerLayout s.segments.length) = s.headerLines props := by
  simp [fill, headerLayout, headerLines, Layout.headerOpening, Layout.headerClosing, headerOpening,
    headerClosing, Property.filled_declarations, filled_namespaceName, Piece.text, filling,
    String.append_assoc]

/-- The lines of a source file up to the name of the header, and behind it the layout of
source files, filled in. -/
theorem sourceLines_eq_fill (s : Schema) (includeName : String) :
    s.sourceLines includeName = banner :: "" :: includeLine includeName ::
      s.fill s.props (sourceLayout s.segments.length (s.props.any Property.integerAsBool)) := by
  rw [sourceLines_eq]
  simp [fill, sourceLayout, privateLines, accessorLines, digitWriterLines, Layout.privateOpening,
    Layout.privateClosing, Layout.accessorOpening, Layout.accessorClosing,
    Property.filled_enumSupport, Property.filled_definitions, filled_namespaceName, Piece.text,
    String.append_assoc]

end Schema

/-! ## §4 Safety -/

namespace Schema.Valid

variable {s : Schema}

theorem isIdentifier_segment (hs : s.Valid) {i : Nat} (hi : i < s.segments.length) :
    IsIdentifier (s.segments.getD i "") := by
  simpa [hi] using hs.path.2 _ (List.getElem_mem hi)

theorem isIdentifier_guardName (hs : s.Valid) : IsIdentifier s.guardName := by
  have hopening : IsIdentifier "SYSPROPGEN_" := isIdentifier_iff.1 (by decide)
  have hmark : IsIdentifier "_" := isIdentifier_iff.1 (by decide)
  have hclosing : IsIdentifier "_H_" := isIdentifier_iff.1 (by decide)
  refine (hopening.append fun c hc => ?_).append hclosing.isWordText
  obtain hsep | ⟨segment, hsegment, hc⟩ := mem_intercalate hc
  · exact hmark.isWordText c hsep
  · exact (hs.path.2 segment hsegment).isWordText c hc

end Schema.Valid

namespace Artifact

variable {σ : Type} {filling : σ → String}

@[simp]
theorem isSafe_fixed_iff {text : String} : (Piece.fixed text).IsSafe filling ↔ IsLine text :=
  Iff.rfl

@[simp]
theorem isSafe_name_iff {place : σ} :
    (Piece.name place).IsSafe filling ↔ IsIdentifier (filling place) :=
  Iff.rfl

@[simp]
theorem isSafe_literal_iff {place : σ} :
    (Piece.literal place).IsSafe filling ↔ IsDottedName (filling place) :=
  Iff.rfl

@[simp]
theorem isSafeLine_nil : IsSafeLine filling [] :=
  List.forall_mem_nil _

@[simp]
theorem isSafeLine_cons_iff {piece : Piece σ} {line : List (Piece σ)} :
    IsSafeLine filling (piece :: line) ↔ piece.IsSafe filling ∧ IsSafeLine filling line :=
  List.forall_mem_cons

@[simp]
theorem isSafeLine_append_iff {line rest : List (Piece σ)} :
    IsSafeLine filling (line ++ rest) ↔ IsSafeLine filling line ∧ IsSafeLine filling rest :=
  List.forall_mem_append

theorem isSafeLine_intersperse {sep : String} {line : List (Piece σ)} (hsep : IsLine sep)
    (h : IsSafeLine filling line) : IsSafeLine filling (line.intersperse (.fixed sep)) := by
  induction line with
  | nil => simp
  | cons piece line ih =>
    cases line with
    | nil => simpa using h
    | cons next line =>
      rw [isSafeLine_cons_iff] at h
      rw [List.intersperse_cons_cons, isSafeLine_cons_iff, isSafeLine_cons_iff]
      exact ⟨h.1, hsep, ih h.2⟩

@[simp]
theorem isSafe_nil : IsSafe filling [] :=
  List.forall_mem_nil _

@[simp]
theorem isSafe_cons_iff {line : List (Piece σ)} {template : Template σ} :
    IsSafe filling (line :: template) ↔ IsSafeLine filling line ∧ IsSafe filling template :=
  List.forall_mem_cons

@[simp]
theorem isSafe_append_iff {template rest : Template σ} :
    IsSafe filling (template ++ rest) ↔ IsSafe filling template ∧ IsSafe filling rest :=
  List.forall_mem_append

@[simp]
theorem isSafe_fixedLines_iff {texts : List String} :
    IsSafe filling (fixedLines texts) ↔ ∀ text ∈ texts, IsLine text := by
  simp [IsSafe, fixedLines]

/-- Numbered lines are safe if each of them is. -/
theorem isSafe_map_range {line : Nat → List (Piece σ)} {count : Nat}
    (h : ∀ i < count, IsSafeLine filling (line i)) :
    IsSafe filling ((List.range count).map line) := by
  simpa [IsSafe] using h

end Artifact

namespace Property.Valid

variable {owner : Owner} {p : Property}

theorem isIdentifier_symbol (h : p.Valid owner) (henum : p.type.isEnum = true) {i : Nat}
    (hi : i < p.shape.symbolCount) : IsIdentifier (p.symbols.getD i "") := by
  have hcount : i < p.symbols.length := by
    simpa [shape, descriptor, henum] using hi
  simpa [hcount] using (h.symbols (of_decide_eq_true henum)).1 _ (List.getElem_mem hcount)

theorem isSafeLine_valueType (h : p.Valid owner) :
    IsSafeLine (p.filling owner) (Layout.valueType p.type) := by
  have helement : IsSafeLine (p.filling owner) (Layout.elementType p.type.kind) := by
    unfold Layout.elementType
    split <;> simp +decide [filling, h.isIdentifier_enumTypeName]
  unfold Layout.valueType
  split
  · simp +decide [helement]
  · exact helement

theorem isSafeLine_getterSignature (h : p.Valid owner) :
    IsSafeLine (p.filling owner) (Layout.getterSignature p.type) := by
  simp +decide [Layout.getterSignature, filling, h.isSafeLine_valueType, h.isIdentifier_identifier]

theorem isSafeLine_setterSignature (h : p.Valid owner) :
    IsSafeLine (p.filling owner) (Layout.setterSignature p.type) := by
  simp +decide [Layout.setterSignature, filling, h.isSafeLine_valueType, h.isIdentifier_identifier]

theorem isSafe_declarations (h : p.Valid owner) :
    IsSafe (p.filling owner) (Layout.declarations p.shape) := by
  have henum : IsSafe (p.filling owner) (Layout.enumDeclaration p.shape) := by
    unfold Layout.enumDeclaration
    split
    · rename_i henum
      have hsymbols : IsSafe (p.filling owner)
          ((List.range p.shape.symbolCount).map Layout.enumerator) := by
        refine isSafe_map_range fun i hi => ?_
        simpa +decide [Layout.enumerator, filling] using h.isIdentifier_symbol henum hi
      simp +decide [hsymbols, filling, h.isIdentifier_enumTypeName]
    · simp
  have htype : p.shape.type = p.type := rfl
  simp +decide [Layout.declarations, henum, htype, h.isSafeLine_getterSignature,
    h.isSafeLine_setterSignature]

theorem isSafe_table (h : p.Valid owner) (henum : p.type.isEnum = true) :
    IsSafe (p.filling owner) (Layout.table p.shape) := by
  have hrows : IsSafe (p.filling owner) ((List.range p.shape.symbolCount).map Layout.tableRow) := by
    refine isSafe_map_range fun i hi => ?_
    have hsymbol := h.isIdentifier_symbol henum hi
    simpa +decide [Layout.tableRow, filling, h.isIdentifier_enumTypeName] using
      And.intro hsymbol.isDottedName hsymbol
  simp +decide [Layout.table, hrows, filling, h.isIdentifier_enumTypeName, h.isIdentifier_tableName]

theorem isSafe_enumSupport (h : p.Valid owner) :
    IsSafe (p.filling owner) (Layout.enumSupport p.shape) := by
  unfold Layout.enumSupport
  split
  · rename_i henum
    simp +decide [h.isSafe_table henum, Layout.enumParser, Layout.enumFormatter, Layout.tableLoop,
      filling, h.isIdentifier_enumTypeName, h.isIdentifier_tableName, h.key]
  · simp

theorem isSafe_definitions (h : p.Valid owner) :
    IsSafe (p.filling owner) (Layout.definitions p.shape) := by
  have hargument : IsLine (Layout.encodedArgument p.shape) := p.isLine_encodedArgument
  have htype : p.shape.type = p.type := rfl
  simp +decide [Layout.definitions, htype, hargument, filling, h.isSafeLine_valueType,
    h.isSafeLine_getterSignature, h.isSafeLine_setterSignature, h.key]

end Property.Valid

namespace Schema.Valid

variable {s : Schema}

theorem isSafeLine_namespaceName (hs : s.Valid) :
    IsSafeLine s.filling (Layout.namespaceName s.segments.length) := by
  refine isSafeLine_intersperse (by decide) ?_
  simpa [IsSafeLine, filling] using fun i (hi : i < s.segments.length) =>
    hs.isIdentifier_segment hi

theorem isSafe_headerOpening (hs : s.Valid) :
    IsSafe s.filling (Layout.headerOpening s.segments.length) := by
  simp +decide [Layout.headerOpening, filling, hs.isIdentifier_guardName,
    hs.isSafeLine_namespaceName]

theorem isSafe_headerClosing (hs : s.Valid) :
    IsSafe s.filling (Layout.headerClosing s.segments.length) := by
  simp +decide [Layout.headerClosing, filling, hs.isIdentifier_guardName,
    hs.isSafeLine_namespaceName]

theorem isSafe_privateOpening (hs : s.Valid) :
    IsSafe s.filling (Layout.privateOpening s.segments.length) := by
  simp +decide [Layout.privateOpening, hs.isSafeLine_namespaceName]

theorem isSafe_privateClosing (digits : Bool) :
    IsSafe s.filling (Layout.privateClosing digits) := by
  have hsupport : ∀ text ∈ supportCode, IsLine text :=
    fun text htext => (isCode_of_mem_supportCode text htext).isLine
  have hwriters : ∀ text ∈ digitWriters, IsLine text :=
    fun text htext => (isCode_of_mem_digitWriters text htext).isLine
  rw [Layout.privateClosing, isSafe_fixedLines_iff]
  simp only [List.forall_mem_append]
  refine ⟨⟨⟨hsupport, by simp +decide⟩, ?_⟩, by simp +decide⟩
  split
  · exact List.forall_mem_append.2 ⟨hwriters, by simp +decide⟩
  · simp

theorem isSafe_accessorOpening (hs : s.Valid) :
    IsSafe s.filling (Layout.accessorOpening s.segments.length) := by
  simp +decide [Layout.accessorOpening, hs.isSafeLine_namespaceName]

theorem isSafe_accessorClosing (hs : s.Valid) :
    IsSafe s.filling (Layout.accessorClosing s.segments.length) := by
  simp +decide [Layout.accessorClosing, hs.isSafeLine_namespaceName]

end Schema.Valid

/-! ## §5 Files -/

namespace Schema

/-- Whether a layout is safe with what a schema and its properties fill into it. -/
def FillsSafely (s : Schema) (layout : List Block) : Prop :=
  ∀ block ∈ layout, match block with
    | .once template => IsSafe s.filling template
    | .each template => ∀ p ∈ s.props, IsSafe (p.filling s.owner) (template p.shape)

theorem FillsSafely.isLine {s : Schema} {layout : List Block} (h : s.FillsSafely layout)
    {props : List Property} (hprops : props ⊆ s.props) :
    ∀ line ∈ s.fill props layout, IsLine line := by
  rw [fill, List.forall_mem_flatMap]
  intro block hblock
  have hsafe := h block hblock
  cases block with
  | once template => exact IsSafe.isLine hsafe
  | each template =>
    rw [List.forall_mem_flatMap]
    exact fun p hp => IsSafe.isLine (hsafe p (hprops hp))

variable {s : Schema}

theorem Valid.fillsSafely_headerLayout (hs : s.Valid) :
    s.FillsSafely (headerLayout s.segments.length) := by
  simp only [FillsSafely, headerLayout, List.forall_mem_cons]
  exact ⟨hs.isSafe_headerOpening, fun p hp => (hs.props p hp).isSafe_declarations,
    hs.isSafe_headerClosing, by simp⟩

theorem Valid.fillsSafely_sourceLayout (hs : s.Valid) (digits : Bool) :
    s.FillsSafely (sourceLayout s.segments.length digits) := by
  have hincludes : ∀ text ∈ "" :: includeLine "cstring" :: laterIncludes, IsLine text := by
    rw [List.forall_mem_cons, List.forall_mem_cons]
    exact ⟨by decide, by decide, isLine_of_mem_laterIncludes⟩
  simp only [FillsSafely, sourceLayout, List.forall_mem_cons]
  exact ⟨isSafe_fixedLines_iff.2 hincludes, hs.isSafe_privateOpening,
    fun p hp => (hs.props p hp).isSafe_enumSupport, isSafe_privateClosing digits,
    hs.isSafe_accessorOpening, fun p hp => (hs.props p hp).isSafe_definitions,
    hs.isSafe_accessorClosing, by simp⟩

end Schema

/-- The property with another text for its symbols, if it has no enumeration. -/
def Property.withIdleSymbols (enumValues : String) (p : Property) : Property :=
  if p.type.isEnum then p else { p with enumValues }

/-- The schema with other texts for the symbols of the properties without an enumeration. -/
def Schema.withIdleSymbols (s : Schema) (enumValues : Property → String) : Schema :=
  { s with props := s.props.map fun p => p.withIdleSymbols (enumValues p) }

theorem Property.sameAccessors_withIdleSymbols (owner : Owner) (enumValues : String)
    (p : Property) : (p.withIdleSymbols enumValues).SameAccessors owner owner p := by
  unfold withIdleSymbols
  split
  · exact { identifier := rfl, descriptor := rfl, key := rfl, integerAsBool := rfl }
  · rename_i henum
    exact {
      identifier := rfl
      descriptor := by simp [descriptor, henum]
      key := rfl
      integerAsBool := rfl }

namespace Schema

variable (s : Schema) (enumValues : Property → String)

theorem forall₂_withIdleSymbols (props : List Property) :
    List.Forall₂ (Property.SameAccessors s.owner s.owner)
      (props.map fun p => p.withIdleSymbols (enumValues p)) props := by
  rw [List.forall₂_map_left_iff, List.forall₂_same]
  exact fun p _ => p.sameAccessors_withIdleSymbols s.owner (enumValues p)

theorem header_withIdleSymbols : (s.withIdleSymbols enumValues).header = s.header :=
  header_congr rfl ((s.forall₂_withIdleSymbols enumValues s.props).imp
    fun _ _ hpq => hpq.toSameDeclaration)

-- The public header is the header of the schema that has the properties in it alone.
theorem publicHeader_withIdleSymbols :
    (s.withIdleSymbols enumValues).publicHeader = s.publicHeader := by
  have hprops : (s.withIdleSymbols enumValues).props.filter (fun p => p.scope = .exported) =
      (s.props.filter fun p => p.scope = .exported).map fun p =>
        p.withIdleSymbols (enumValues p) := by
    have hscope : ∀ p : Property, (p.withIdleSymbols (enumValues p)).scope = p.scope := by
      intro p
      unfold Property.withIdleSymbols
      split <;> rfl
    simp only [withIdleSymbols, List.filter_map, Function.comp_def, hscope]
  have hheader := header_withIdleSymbols
    { s with props := s.props.filter fun p => p.scope = .exported } enumValues
  rw [publicHeader, hprops]
  exact hheader

theorem source_withIdleSymbols (includeName : String) :
    (s.withIdleSymbols enumValues).source includeName = s.source includeName := by
  have hpath : (s.withIdleSymbols enumValues).modulePath = s.modulePath := rfl
  have hsame : List.Forall₂ (Property.SameAccessors (s.withIdleSymbols enumValues).owner s.owner)
      (s.withIdleSymbols enumValues).props s.props :=
    s.forall₂_withIdleSymbols enumValues s.props
  exact source_congr hpath hsame includeName

/-- **Templates**: for every schema that loads, header and source file are line for line
their templates, which depend on nothing but the shape of the schema and its properties,
filled in with identifiers and with literals that end where they should. The one text that
is not of this kind is the name of the header in the source file. What stands for the
symbols of a property without an enumeration is not taken over at all. -/
theorem artifacts_fill_templates {text : String} {s : Schema} (h : load text = .ok s) :
    lines s.header = s.fill s.props (headerLayout s.segments.length) ++ [""] ∧
      lines s.publicHeader =
        s.fill (s.props.filter fun p => p.scope = .exported) (headerLayout s.segments.length) ++
          [""] ∧
      (∀ includeName, lines (s.source includeName) =
        banner :: "" :: (lines (includeLine includeName) ++
          s.fill s.props (sourceLayout s.segments.length (s.props.any Property.integerAsBool)) ++
          [""])) ∧
      s.FillsSafely (headerLayout s.segments.length) ∧
      s.FillsSafely (sourceLayout s.segments.length (s.props.any Property.integerAsBool)) ∧
      ∀ enumValues : Property → String,
        (s.withIdleSymbols enumValues).header = s.header ∧
          (s.withIdleSymbols enumValues).publicHeader = s.publicHeader ∧
          ∀ includeName,
            (s.withIdleSymbols enumValues).source includeName = s.source includeName := by
  have hs := valid_of_load h
  have hheader := hs.fillsSafely_headerLayout
  have hsource := hs.fillsSafely_sourceLayout (s.props.any Property.integerAsBool)
  refine ⟨?_, ?_, fun includeName => ?_, hheader, hsource, ?_⟩
  · rw [header, ← fill_headerLayout]
    exact lines_render (hheader.isLine (List.Subset.refl _))
  · rw [publicHeader, ← fill_headerLayout]
    exact lines_render (hheader.isLine (List.filter_subset_self _))
  · have hbanner : lines banner = [banner] := lines_of_isLine (isLine_ofList (by decide))
    rw [source, sourceLines_eq_fill, render_cons, render_cons, render_cons, lines_append_newline,
      lines_append_newline, lines_append_newline,
      lines_render (hsource.isLine (List.Subset.refl _)), lines_empty, hbanner]
    simp
  · exact fun enumValues => ⟨s.header_withIdleSymbols enumValues,
      s.publicHeader_withIdleSymbols enumValues, s.source_withIdleSymbols enumValues⟩

end Schema

/-- An enumeration, and a property whose name starts with a digit and where a text stands
for symbols that would end a literal and go on as code. -/
def aquariumText : String :=
  "module: \"home.Aqua_2.Reef\"\n" ++
  "prop \x7b api_name: \"lamp\" type: EnumList enum_values: \"off|_dim\" \x7d\n" ++
  "prop \x7b api_name: \"2nd-tank.on\" type: Boolean enum_values: \"\\\"); //\" \x7d\n"

/-- What it loads as. -/
def aquarium : Schema where
  modulePath := "home.Aqua_2.Reef"
  props := [
    { apiName := "lamp", type := ⟨.enumeration, true⟩, propName := some "ro.lamp",
      enumValues := "off|_dim" },
    { apiName := "2nd-tank.on", type := ⟨.boolean, false⟩, propName := some "ro.2nd-tank.on",
      enumValues := "\"); //" }]

/-- The templates with what the aquarium fills into them: the helpers of a source file are in
its fixed part, and an accessor stands behind them. -/
theorem aquarium_fills_templates :
    Schema.load aquariumText = .ok aquarium ∧
      aquarium.props.map Property.identifier = ["lamp", "_2nd_tank_on"] ∧
      lines aquarium.header = aquarium.fill aquarium.props (headerLayout 3) ++ [""] ∧
      lines (aquarium.source "reef.h") =
        banner :: "" :: (lines (includeLine "reef.h") ++
          aquarium.fill aquarium.props (sourceLayout 3 false) ++ [""]) ∧
      ["std::optional<T> GetProp(const char* key) \x7b", "std::optional<bool> _2nd_tank_on() \x7b",
          "    return GetProp<bool>(\"ro.2nd-tank.on\");"].Sublist
        (aquarium.fill aquarium.props (sourceLayout 3 false)) ∧
      aquarium.FillsSafely (headerLayout 3) ∧ aquarium.FillsSafely (sourceLayout 3 false) ∧
      (aquarium.withIdleSymbols fun _ => "").source "reef.h" = aquarium.source "reef.h" := by
  have hload : Schema.load aquariumText = .ok aquarium := by decide +kernel
  have hsegments : aquarium.segments.length = 3 := by decide +kernel
  obtain ⟨hheader, _, hsource, hsafe, hsafeSource, hidle⟩ :=
    Schema.artifacts_fill_templates hload
  rw [hsegments] at hheader hsource hsafe hsafeSource
  exact ⟨hload, by decide +kernel, hheader, hsource "reef.h", by decide +kernel, hsafe,
    hsafeSource, (hidle fun _ => "").2.2 "reef.h"⟩

end PropSchema
