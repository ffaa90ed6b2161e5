/-
PropSchema.Proofs.Artifact.Reading — generated code read back.

What a generated file says is what a reader finds in it. The readers here know as much
of the language of the files as a compiler needs for them, and nothing of how the files
are made. They go by lines: a section (a namespace, an enum type, a table, a function)
starts at a heading of its own and goes up to its closing line, and a line is cut at the
fixed texts around its names.

§1 Texts      — what stands between two texts, and a string literal in a line.
§2 Sections   — headings and closing lines; a block of lines and what it `Yields`.
§3 Functions  — namespaces, signatures, and what a getter and a setter do.
§4 Types      — the value type that a type name stands for.
§5 Enum types — enumerators, tables, and the loops that scan a table.
-/
import PropSchema.Proofs.Artifact.Lines
import Mathlib.Data.List.DropRight

namespace PropSchema

namespace Artifact

/-! ## §1 Texts -/

/-- What stands between an opening and a closing, if a text starts with one and ends with
the other. -/
def between? (opening closing text : String) : Option String :=
  ((text.toList.dropPrefix? opening.toList).bind (·.dropSuffix? closing.toList)).map String.ofList

theorem between?_eq_some_iff {opening closing text inner : String} :
    between? opening closing text = some inner ↔ text = opening ++ inner ++ closing := by
  have hlist : ∀ cs, ((text.toList.dropPrefix? opening.toList).bind
      (·.dropSuffix? closing.toList)) = some cs ↔
        text.toList = opening.toList ++ cs ++ closing.toList := by
    intro cs
    simp [Option.bind_eq_some_iff, List.dropPrefix?_eq_some_iff, List.dropSuffix?_eq_some_iff]
  rw [between?, Option.map_eq_some_iff]
  constructor
  · rintro ⟨cs, hcs, rfl⟩
    rw [← String.toList_inj, (hlist cs).1 hcs]
    simp
  · rintro rfl
    exact ⟨inner.toList, (hlist _).2 (by simp), String.ofList_toList⟩

@[simp]
theorem between?_append (opening inner closing : String) :
    between? opening closing (opening ++ inner ++ closing) = some inner :=
  between?_eq_some_iff.2 rfl

@[simp]
theorem between?_empty_append (inner closing : String) :
    between? "" closing (inner ++ closing) = some inner :=
  between?_eq_some_iff.2 (by rw [String.empty_append])

/-- A text with another initial than the opening has nothing between. -/
theorem between?_eq_none_of_head? {c : Char} {cs : List Char} {text : String}
    (h : text.toList.head? ≠ some c) (closing : String) :
    between? (String.ofList (c :: cs)) closing text = none := by
  rw [Option.eq_none_iff_forall_ne_some]
  rintro inner hinner
  rw [between?_eq_some_iff] at hinner
  simp [hinner] at h

/-- A text without some character of the closing has nothing before it. -/
theorem between?_eq_none_of_not_mem {c : Char} {closing text : String}
    (hc : c ∈ closing.toList) (h : c ∉ text.toList) (opening : String) :
    between? opening closing text = none := by
  rw [Option.eq_none_iff_forall_ne_some]
  rintro inner hinner
  rw [between?_eq_some_iff] at hinner
  simp [hinner, hc] at h

/-- The only string literal of a line, with what stands before it and behind it. One with
an escape in it is not read. -/
def literal? (line : String) : Option (String × String × String) :=
  match Text.pieces '"' line with
  | [before, text, rest] => if '\\' ∈ text.toList then none else some (before, text, rest)
  | _ => none

theorem pieces_eq_cons {sep : Char} {text : String} (first rest : String)
    (h : sep ∉ first.toList) (htext : text.toList = first.toList ++ sep :: rest.toList) :
    Text.pieces sep text = first :: Text.pieces sep rest := by
  rw [Text.pieces, htext, Text.split_append_sep h, List.map_cons, String.ofList_toList]
  rfl

theorem pieces_eq_singleton {sep : Char} {text : String} (h : sep ∉ text.toList) :
    Text.pieces sep text = [text] := by
  simp [Text.pieces, Text.split_of_not_mem h]

/-- A line around a plain text between quotes is read so. -/
theorem literal?_append {before text rest : String} (hbefore : '"' ∉ before.toList)
    (htext : IsPlain text) (hrest : '"' ∉ rest.toList) :
    literal? (before ++ stringLiteral text ++ rest) = some (before, text, rest) := by
  have hpieces : Text.pieces '"' (before ++ stringLiteral text ++ rest) = [before, text, rest] := by
    rw [pieces_eq_cons before (text ++ "\"" ++ rest) hbefore (by simp [stringLiteral]),
      pieces_eq_cons text rest (htext.not_mem (by decide)) (by simp), pieces_eq_singleton hrest]
  simp [literal?, hpieces, htext.not_mem (show Text.isKeyChar '\\' = false by decide)]

/-! ## §2 Sections -/

/-- The sections of a file: what is read in each heading, with the lines up to the closing
line. A heading without one is none. -/
def sections {α : Type} (heading? : String → Option α) (closing : α → String) :
    List String → List (α × List String)
  | [] => []
  | line :: rest =>
    match heading? line with
    | none => sections heading? closing rest
    | some a =>
      if closing a ∈ rest then
        (a, rest.takeWhile (· ≠ closing a)) :: sections heading? closing rest
      else sections heading? closing rest

section

variable {α : Type} {heading? : String → Option α} {closing : α → String}

variable (heading? closing) in
/-- Whether a block of lines adds some sections to a file, whatever stands behind it. -/
def Yields (block : List String) (found : List (α × List String)) : Prop :=
  ∀ rest, sections heading? closing (block ++ rest) = found ++ sections heading? closing rest

theorem Yields.sections_eq {block : List String} {found : List (α × List String)}
    (h : Yields heading? closing block found) : sections heading? closing block = found := by
  simpa [sections] using h []

theorem Yields.append {block others : List String} {found more : List (α × List String)}
    (h : Yields heading? closing block found) (h' : Yields heading? closing others more) :
    Yields heading? closing (block ++ others) (found ++ more) := by
  intro rest
  rw [List.append_assoc, h, h', List.append_assoc]

variable (closing) in
/-- Lines without a heading add nothing. -/
theorem yields_of_none {block : List String} (h : ∀ line ∈ block, heading? line = none) :
    Yields heading? closing block [] := by
  intro rest
  induction block with
  | nil => rfl
  | cons line block ih =>
    rw [List.forall_mem_cons] at h
    rw [List.cons_append, sections, h.1]
    exact ih h.2

/-- A blank line behind a block adds nothing to it. -/
theorem Yields.append_blank {block : List String} {found : List (α × List String)}
    (h : Yields heading? closing block found) (hblank : heading? "" = none) :
    Yields heading? closing (block ++ [""]) found := by
  have hlines : ∀ line ∈ [""], heading? line = none := by
    simpa using hblank
  simpa using h.append (yields_of_none closing hlines)

theorem takeWhile_ne_append {closing : String} {body : List String} (h : closing ∉ body)
    (rest : List String) : (body ++ closing :: rest).takeWhile (· ≠ closing) = body := by
  have hall : ∀ line ∈ body, decide (line ≠ closing) = true := by
    simpa using fun line hline (heq : line = closing) => h (heq ▸ hline)
  rw [List.takeWhile_append_of_pos hall]
  simp

theorem sections_cons_some {line : String} {a : α} {body : List String}
    (hline : heading? line = some a) (hopen : closing a ∉ body) (rest : List String) :
    sections heading? closing (line :: (body ++ closing a :: rest)) =
      (a, body) :: sections heading? closing (body ++ closing a :: rest) := by
  rw [sections, hline]
  simp only
  rw [if_pos (by simp), takeWhile_ne_append hopen]

/-- A heading adds the section up to its closing line. -/
theorem yields_section {line : String} {a : α} {body : List String}
    (hline : heading? line = some a) (hbody : ∀ l ∈ body, heading? l = none)
    (hopen : closing a ∉ body) (hclosing : heading? (closing a) = none) :
    Yields heading? closing (line :: (body ++ [closing a])) [(a, body)] := by
  intro rest
  have hrest : ∀ l ∈ body ++ [closing a], heading? l = none :=
    List.forall_mem_append.2 ⟨hbody, by simpa using hclosing⟩
  have hnone := yields_of_none closing hrest rest
  rw [List.append_assoc, List.singleton_append] at hnone
  rw [List.cons_append, List.append_assoc, List.singleton_append, sections_cons_some hline hopen,
    hnone]
  rfl

theorem yields_flatMap {β : Type} {block : β → List String}
    {found : β → List (α × List String)} {items : List β}
    (h : ∀ item ∈ items, Yields heading? closing (block item) (found item)) :
    Yields heading? closing (items.flatMap block) (items.flatMap found) := by
  induction items with
  | nil => exact yields_of_none closing (by simp)
  | cons item items ih =>
    rw [List.forall_mem_cons] at h
    exact h.1.append (ih h.2)

/-- Lines in front of a file take no section from it. -/
theorem mem_sections_append {found : α × List String} {rest : List String}
    (h : found ∈ sections heading? closing rest) (block : List String) :
    found ∈ sections heading? closing (block ++ rest) := by
  induction block with
  | nil => exact h
  | cons line block ih =>
    rw [List.cons_append, sections]
    split
    · exact ih
    · split
      · exact List.mem_cons_of_mem _ ih
      · exact ih

/-- A heading with its closing line behind it heads a section. -/
theorem mem_sections {before body rest : List String} {line : String} {a : α}
    (hline : heading? line = some a) (hopen : closing a ∉ body) :
    (a, body) ∈ sections heading? closing (before ++ line :: (body ++ closing a :: rest)) := by
  refine mem_sections_append ?_ before
  rw [sections_cons_some hline hopen]
  exact List.mem_cons_self

end

/-- The code of a file: what stands behind its last directive. -/
def codeLines (text : String) : List String :=
  (lines text).rtakeWhile fun line => line.toList.head? ≠ some '#'

/-! ## §3 Functions -/

/-- The name in the line that opens a namespace. -/
def namespaceHeading? (line : String) : Option String :=
  between? "namespace " " \x7b" line

theorem namespaceHeading?_eq_none {line : String} (h : line.toList.head? ≠ some 'n') :
    namespaceHeading? line = none :=
  between?_eq_none_of_head? h _

/-- The named namespaces of a file. -/
def namespaces : List String → List (String × List String) :=
  sections namespaceHeading? ("\x7d  // namespace " ++ ·)

/-- The signature that a line declares. -/
def declaration? (line : String) : Option String :=
  (between? "" ");" line).map (· ++ ")")

/-- The signatures that a file declares. -/
def declarations (file : List String) : List String :=
  file.filterMap declaration?

/-- What stands before the brace of a line that opens one behind a parenthesis. -/
def opened? (line : String) : Option String :=
  (between? "" ") \x7b" line).map (· ++ ")")

/-- The signature that a line starts the definition of. Indented lines go on with one. -/
def definition? (line : String) : Option String :=
  if line.toList.head? = some ' ' then none else opened? line

/-- The functions defined in a part of a file: their signatures and bodies. -/
def definitions : List String → List (String × List String) :=
  sections definition? fun _ => "\x7d"

/-- The functions defined in the namespaces of the given name. -/
def definitionsIn (name : String) (file : List String) : List (String × List String) :=
  ((namespaces file).filter fun part => part.1 = name).flatMap fun part => definitions part.2

theorem declaration?_append (inner : String) :
    declaration? (inner ++ ")" ++ ";") = some (inner ++ ")") := by
  have hline : inner ++ ")" ++ ";" = inner ++ ");" := by
    rw [String.append_assoc]
    rfl
  rw [declaration?, hline, between?_empty_append]
  rfl

theorem declaration?_eq_none {line : String} (h : ')' ∉ line.toList) :
    declaration? line = none := by
  rw [declaration?, between?_eq_none_of_not_mem (by decide) h]
  rfl

theorem opened?_append (inner : String) :
    opened? (inner ++ ")" ++ " \x7b") = some (inner ++ ")") := by
  have hline : inner ++ ")" ++ " \x7b" = inner ++ ") \x7b" := by
    rw [String.append_assoc]
    rfl
  rw [opened?, hline, between?_empty_append]
  rfl

theorem opened?_eq_none {c : Char} {line : String} (hc : c ∈ ") \x7b".toList)
    (h : c ∉ line.toList) : opened? line = none := by
  rw [opened?, between?_eq_none_of_not_mem hc h]
  rfl

/-- A line that is not indented starts a definition if a brace is opened at its end. -/
theorem definition?_eq {line : String} (h : line.toList.head? ≠ some ' ') :
    definition? line = opened? line :=
  if_neg h

theorem definition?_eq_none_of_indented {line : String} (h : line.toList.head? = some ' ') :
    definition? line = none :=
  if_pos h

theorem definition?_eq_none {c : Char} {line : String} (hc : c ∈ ") \x7b".toList)
    (h : c ∉ line.toList) : definition? line = none := by
  rw [definition?, opened?_eq_none hc h]
  exact ite_self _

theorem definition?_blank : definition? "" = none :=
  definition?_eq_none (c := ')') (by decide) (by decide)

theorem definition?_brace : definition? "\x7d" = none :=
  definition?_eq_none (c := ')') (by decide) (by decide)

/-- A function with an indented body is read as such. -/
theorem yields_function {line signature : String} {body : List String}
    (hline : definition? line = some signature)
    (hbody : ∀ l ∈ body, l.toList.head? = some ' ') :
    Yields definition? (fun _ => "\x7d") (line :: (body ++ ["\x7d", ""])) [(signature, body)] := by
  have hopen : "\x7d" ∉ body := fun hmem => by simpa using hbody _ hmem
  have hsection : Yields definition? (fun _ => "\x7d") (line :: (body ++ ["\x7d"]))
      [(signature, body)] :=
    yields_section hline (fun l hl => definition?_eq_none_of_indented (hbody l hl)) hopen
      definition?_brace
  simpa using hsection.append_blank definition?_blank

/-- The type of the values that an accessor with a given signature returns or takes. -/
def typeIn? (signature : String) : Option String :=
  match Text.pieces ' ' signature with
  | [result, _] => between? "std::optional<" ">" result
  | [_, _, parameter, _] => between? "" "&" parameter
  | _ => none

/-- What a getter does: it returns values of a type, asking the store for one of some type
under a key. -/
structure Getter where
  name : String
  type : String
  read : String
  key : String

/-- What a setter does: it takes values of a type, and stores what an expression makes of
them under a key. -/
structure Setter where
  name : String
  type : String
  key : String
  argument : String

/-- The function that makes the text to be stored out of a value. -/
def Setter.encoder (setter : Setter) : String :=
  String.ofList (setter.argument.toList.takeWhile (· ≠ '('))

/-- The getter that a function is. -/
def getter? (function : String × List String) : Option Getter :=
  match Text.pieces ' ' function.1, function.2 with
  | [result, name], [statement] => do
    let (call, key, rest) ← literal? statement
    if rest = ");" then
      return ⟨← between? "" "()" name, ← between? "std::optional<" ">" result,
        ← between? "    return GetProp<" ">(" call, key⟩
    else none
  | _, _ => none

/-- The setter that a function is. -/
def setter? (function : String × List String) : Option Setter :=
  match Text.pieces ' ' function.1, function.2 with
  | [result, name, parameter, last], [statement] => do
    let (call, key, rest) ← literal? statement
    if result = "bool" ∧ last = "value)" ∧ call = "    return __system_property_set(" then
      return ⟨← between? "" "(const" name, ← between? "" "&" parameter, key,
        ← between? ", " ") == 0;" rest⟩
    else none
  | _, _ => none

/-- The getters defined in the namespaces of the given name, in order. -/
def gettersIn (name : String) (file : List String) : List Getter :=
  (definitionsIn name file).filterMap getter?

/-- The setters defined in the namespaces of the given name, in order. -/
def settersIn (name : String) (file : List String) : List Setter :=
  (definitionsIn name file).filterMap setter?

/-! ## §4 Types -/

/-- The types that need no declaration, and the kinds of their values. -/
def builtInTypes : List (String × Kind) :=
  [("bool", .boolean), ("std::int32_t", .int32), ("std::int64_t", .int64),
    ("double", .double), ("std::string", .string)]

/-- The kind of the values of an element type: any that is not built in is an enum type. -/
def kindOf (elementType : String) : Kind :=
  (builtInTypes.lookup elementType).getD .enumeration

/-- The type of the elements, of a list type, and any other type itself. -/
def elementOf (type : String) : String :=
  (between? "std::vector<" ">" type).getD type

/-- The value type that a type stands for. -/
def valueTypeOf (type : String) : ValueType :=
  ⟨kindOf (elementOf type), (between? "std::vector<" ">" type).isSome⟩

/-- The enum type that a signature names. -/
def enumIn? (signature : String) : Option String :=
  ((typeIn? signature).map elementOf).filter fun element => kindOf element = .enumeration

/-! ## §5 Enum types -/

/-- The name in the line that starts the declaration of an enum type. -/
def enumHeading? (line : String) : Option String :=
  between? "enum class " " \x7b" line

theorem enumHeading?_eq_none {line : String} (h : line.toList.head? ≠ some 'e') :
    enumHeading? line = none :=
  between?_eq_none_of_head? h _

/-- The enum types that a file declares, with their enumerators. -/
def enums (file : List String) : List (String × List String) :=
  (sections enumHeading? (fun _ => "\x7d;") file).filterMap
    fun (type, body) => (body.mapM (between? "    " ",")).map (type, ·)

theorem mapM_map_eq_some {α β γ : Type} {f : β → Option γ} {g : α → β} {h : α → γ}
    {xs : List α} (hf : ∀ x ∈ xs, f (g x) = some (h x)) :
    (xs.map g).mapM f = some (xs.map h) := by
  induction xs with
  | nil => rfl
  | cons x xs ih =>
    rw [List.forall_mem_cons] at hf
    rw [List.map_cons, List.mapM_cons, hf.1, ih hf.2]
    rfl

/-- A row of a table: a name, and the enumerator beside it. -/
structure Row where
  name : String
  enumerator : String
  deriving DecidableEq

/-- A table of the enumerators of a type. -/
structure Table where
  type : String
  rows : List Row
  deriving DecidableEq

/-- The table with a row for each of the given enumerators, in order, under its own name. -/
def Table.ofEnumerators (type : String) (enumerators : List String) : Table :=
  ⟨type, enumerators.map fun enumerator => ⟨enumerator, enumerator⟩⟩

/-- The type and the name in the line that starts a table. -/
def tableHeading? (line : String) : Option (String × String) :=
  (between? "constexpr const std::pair<const char*, " "[] = \x7b" line).bind fun inner =>
    match Text.pieces ' ' inner with
    | [type, name] => (between? "" ">" type).map (·, name)
    | _ => none

theorem tableHeading?_eq_none {line : String} (h : line.toList.head? ≠ some 'c') :
    tableHeading? line = none := by
  rw [tableHeading?, between?_eq_none_of_head? h]
  rfl

/-- The row that a line of a table of the given type is. -/
def row? (type line : String) : Option Row := do
  let (before, name, rest) ← literal? line
  if before = "    \x7b" then
    return ⟨name, ← between? (", " ++ type ++ "::") "\x7d," rest⟩
  else none

/-- The tables that a file has, by their names. -/
def tables (file : List String) : List (String × Table) :=
  (sections tableHeading? (fun _ => "\x7d;") file).filterMap fun ((type, name), body) =>
    (body.mapM (row? type)).map fun rows => (name, ⟨type, rows⟩)

/-- A loop over a table that returns something for the first row that meets a
condition. -/
structure Scan where
  table : String
  condition : String
  result : String
  deriving DecidableEq

/-- The loop that a function starts with. -/
def scan? : List String → Option Scan
  | loop :: test :: exit :: "        \x7d" :: "    \x7d" :: _ => do
    return ⟨← between? "    for (auto [name, val] : " ") \x7b" loop,
      ← between? "        if (" ") \x7b" test, ← between? "            return " ";" exit⟩
  | _ => none

theorem scan?_loop (table condition result : String) (rest : List String) :
    scan? (("    for (auto [name, val] : " ++ table ++ ") \x7b") ::
      ("        if (" ++ condition ++ ") \x7b") :: ("            return " ++ result ++ ";") ::
        "        \x7d" :: "    \x7d" :: rest) = some ⟨table, condition, result⟩ := by
  simp [scan?]

/-- The signature of the parser of a type. -/
def parserSignature (type : String) : String :=
  "std::optional<" ++ type ++ "> DoParse(const char* str)"

/-- The signature of the formatter of a type. -/
def formatterSignature (type : String) : String :=
  "std::string FormatValue(" ++ type ++ " value)"

theorem parserSignature_inj {a b : String} (h : parserSignature a = parserSignature b) : a = b := by
  have h' : "std::optional<" ++ a ++ "> DoParse(const char* str)" =
      "std::optional<" ++ b ++ "> DoParse(const char* str)" := h
  simpa using h'

theorem formatterSignature_inj {a b : String} (h : formatterSignature a = formatterSignature b) :
    a = b := by
  have h' : "std::string FormatValue(" ++ a ++ " value)" =
      "std::string FormatValue(" ++ b ++ " value)" := h
  simpa using h'

theorem formatterSignature_ne_parserSignature (a b : String) :
    formatterSignature a ≠ parserSignature b := by
  intro h
  have h' : "std::string FormatValue(" ++ a ++ " value)" =
      "std::optional<" ++ b ++ "> DoParse(const char* str)" := h
  simp [← String.toList_inj] at h'

theorem definition?_parserSignature (type : String) :
    definition? ("std::optional<" ++ type ++ "> DoParse(const char* str) \x7b") =
      some (parserSignature type) := by
  have hline : "std::optional<" ++ type ++ "> DoParse(const char* str) \x7b" =
      "std::optional<" ++ type ++ "> DoParse(const char* str" ++ ")" ++ " \x7b" := by
    simp [← String.toList_inj]
  have hsignature : parserSignature type =
      "std::optional<" ++ type ++ "> DoParse(const char* str" ++ ")" := by
    show "std::optional<" ++ type ++ "> DoParse(const char* str)" = _
    simp [← String.toList_inj]
  rw [definition?_eq (by simp), hline, hsignature, opened?_append]

theorem definition?_formatterSignature (type : String) :
    definition? ("std::string FormatValue(" ++ type ++ " value) \x7b") =
      some (formatterSignature type) := by
  have hline : "std::string FormatValue(" ++ type ++ " value) \x7b" =
      "std::string FormatValue(" ++ type ++ " value" ++ ")" ++ " \x7b" := by
    simp [← String.toList_inj]
  have hsignature : formatterSignature type =
      "std::string FormatValue(" ++ type ++ " value" ++ ")" := by
    show "std::string FormatValue(" ++ type ++ " value)" = _
    simp [← String.toList_inj]
  rw [definition?_eq (by simp), hline, hsignature, opened?_append]

/-- The signature of the function that writes booleans of a type as digits. -/
def digitWriterSignature (type : ValueType) : String :=
  if type.isList then
    "[[maybe_unused]] std::string FormatIntegerAsBool(const std::vector<bool>& value)"
  else "[[maybe_unused]] std::string FormatIntegerAsBool(bool value)"

/-- What is generated for an enum type: its enumerators, and the rows of a table. -/
structure EnumCode where
  enumerators : List String
  rows : List Row

namespace EnumCode

/-- Whether two files have this code for a type: the enumerators in the header, and in the
source file a table that the parser of the type scans by name and its formatter by value. -/
structure IsIn (c : EnumCode) (header code : List String) (type : String) : Prop where
  declared : (enums header).lookup type = some c.enumerators
  scanned : ∃ name, (tables code).lookup name = some ⟨type, c.rows⟩ ∧
    ((definitions code).lookup (parserSignature type)).bind scan? =
      some ⟨name, "strcmp(str, name) == 0", "val"⟩ ∧
    ((definitions code).lookup (formatterSignature type)).bind scan? =
      some ⟨name, "val == value", "name"⟩

/-- The row that the scan by name selects. -/
def rowFor? (c : EnumCode) (raw : String) : Option Nat :=
  c.rows.findIdx? fun row => row.name = raw

/-- The value that the scan by name returns. Enumerators are numbered in order. -/
def parse (c : EnumCode) (raw : String) : Option Nat :=
  (c.rows.find? fun row => row.name = raw).bind fun row => c.enumerators.idxOf? row.enumerator

/-- The name that the scan by value returns. -/
def format (c : EnumCode) (value : Nat) : Option String :=
  (c.rows.find? fun row => c.enumerators.idxOf? row.enumerator == some value).map (·.name)

end EnumCode

end Artifact

end PropSchema
