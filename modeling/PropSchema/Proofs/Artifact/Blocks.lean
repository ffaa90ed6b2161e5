/-
PropSchema.Proofs.Artifact.Blocks — the code of one property, read back.

Each property adds a few blocks of lines to the generated files. Identifiers, symbols and
keys are plain, and the names of types are plain up to the angle brackets and colons of
the language; so no name has a mark in it at which a reader cuts, and what the readers
find in a block are the names that went into it.

§1 Types      — `valueTypeOf_valueTypeName`: a type name stands for the property's type.
§2 Signatures — the pieces of a getter's and a setter's signature.
§3 Accessors  — `yields_definitionLines`, and what the two functions do.
§4 Enum types — what the enum type, its table, its parser and its formatter yield.
-/
import PropSchema.Proofs.Artifact.Reading
import PropSchema.Proofs.Artifact.Sources

namespace PropSchema

open Artifact

/-- Whether a character occurs in the names of types. -/
def isTypeChar (c : Char) : Bool :=
  Text.isKeyChar c || c = ':' || c = '<' || c = '>'

theorem isPlain_of_all {name : String} (h : name.toList.all Text.isKeyChar = true) :
    IsPlain name :=
  List.all_eq_true.1 h

theorem IsPlain.append {a b : String} (ha : IsPlain a) (hb : IsPlain b) : IsPlain (a ++ b) := by
  intro c hc
  rw [String.toList_append, List.mem_append] at hc
  exact hc.elim (ha c) (hb c)

namespace Property

variable {owner : Owner} {p : Property}

/-! ## §1 Types -/

theorem isPlain_enumTypeName (hp : IsPlain p.identifier) : IsPlain p.enumTypeName :=
  hp.append (isPlain_of_all (by decide))

theorem isPlain_tableName (hp : IsPlain p.identifier) : IsPlain p.tableName :=
  hp.append (isPlain_of_all (by decide))

theorem all_elementTypeName (hp : IsPlain p.identifier) :
    p.elementTypeName.toList.all isTypeChar = true := by
  unfold elementTypeName
  split
  · decide
  · decide
  · decide
  · decide
  · decide
  · exact List.all_eq_true.2 fun c hc => by
      simp [isTypeChar, isPlain_enumTypeName hp c hc]

theorem all_valueTypeName (hp : IsPlain p.identifier) :
    p.valueTypeName.toList.all isTypeChar = true := by
  have helement := all_elementTypeName hp
  unfold valueTypeName
  split
  · rw [String.toList_append, String.toList_append, List.all_append, List.all_append, helement]
    decide
  · exact helement

theorem not_mem_valueTypeName (hp : IsPlain p.identifier) {c : Char}
    (hc : isTypeChar c = false) : c ∉ p.valueTypeName.toList := by
  intro hmem
  simp [List.all_eq_true.1 (all_valueTypeName hp) c hmem] at hc

/-- No built-in type is called like an enum type: their names end differently. -/
theorem kindOf_enumTypeName (p : Property) : kindOf p.enumTypeName = .enumeration := by
  have hlast : p.enumTypeName.toList.getLast? = some 's' := by
    simp [enumTypeName]
  have hbuiltIn : ∀ entry ∈ builtInTypes, entry.1.toList.getLast? ≠ some 's' := by
    decide
  have hnone : builtInTypes.lookup p.enumTypeName = none := by
    rw [List.lookup_eq_none_iff]
    intro entry hentry
    exact bne_iff_ne.2 fun heq => hbuiltIn entry hentry (heq ▸ hlast)
  rw [kindOf, hnone]
  rfl

theorem kindOf_elementTypeName (p : Property) : kindOf p.elementTypeName = p.type.kind := by
  unfold elementTypeName
  split <;> rename_i hkind <;> rw [hkind]
  · decide
  · decide
  · decide
  · decide
  · decide
  · exact kindOf_enumTypeName p

theorem between?_valueTypeName (hp : IsPlain p.identifier) :
    between? "std::vector<" ">" p.valueTypeName =
      if p.type.isList then some p.elementTypeName else none := by
  by_cases hlist : p.type.isList = true
  · rw [valueTypeName, if_pos hlist, if_pos hlist, between?_append]
  · rw [if_neg hlist, Option.eq_none_iff_forall_ne_some]
    intro inner hinner
    rw [between?_eq_some_iff] at hinner
    rw [← mem_valueTypeName_iff hp, hinner] at hlist
    simp at hlist

theorem elementOf_valueTypeName (hp : IsPlain p.identifier) :
    elementOf p.valueTypeName = p.elementTypeName := by
  rw [elementOf, between?_valueTypeName hp, valueTypeName]
  split <;> rfl

/-- The name of a value type stands for that type. -/
theorem valueTypeOf_valueTypeName (hp : IsPlain p.identifier) :
    valueTypeOf p.valueTypeName = p.type := by
  have hlist : (if p.type.isList then some p.elementTypeName else none).isSome =
      p.type.isList := by
    split <;> simp [*]
  rw [valueTypeOf, elementOf_valueTypeName hp, kindOf_elementTypeName, between?_valueTypeName hp,
    hlist]

/-! ## §2 Signatures -/

theorem getterSignature_eq (p : Property) :
    p.getterSignature =
      "std::optional<" ++ p.valueTypeName ++ "> " ++ p.identifier ++ "(" ++ ")" := by
  show "std::optional<" ++ p.valueTypeName ++ "> " ++ p.identifier ++ "()" = _
  simp [← String.toList_inj]

theorem setterSignature_eq (p : Property) :
    p.setterSignature =
      "bool " ++ p.identifier ++ "(const " ++ p.valueTypeName ++ "& value" ++ ")" := by
  show "bool " ++ p.identifier ++ "(const " ++ p.valueTypeName ++ "& value)" = _
  simp [← String.toList_inj]

theorem pieces_getterSignature (hp : IsPlain p.identifier) :
    Text.pieces ' ' p.getterSignature =
      ["std::optional<" ++ p.valueTypeName ++ ">", p.identifier ++ "()"] := by
  have htype := not_mem_valueTypeName hp (show isTypeChar ' ' = false by decide)
  have hname := hp.not_mem (show Text.isKeyChar ' ' = false by decide)
  have hcut : p.getterSignature.toList = ("std::optional<" ++ p.valueTypeName ++ ">").toList ++
      ' ' :: (p.identifier ++ "()").toList := by
    simp [getterSignature_eq]
  rw [pieces_eq_cons _ _ (by simp [htype]) hcut, pieces_eq_singleton (by simp [hname])]

theorem pieces_setterSignature (hp : IsPlain p.identifier) :
    Text.pieces ' ' p.setterSignature =
      ["bool", p.identifier ++ "(const", p.valueTypeName ++ "&", "value)"] := by
  have htype := not_mem_valueTypeName hp (show isTypeChar ' ' = false by decide)
  have hname := hp.not_mem (show Text.isKeyChar ' ' = false by decide)
  have hcut : p.setterSignature.toList = "bool".toList ++ ' ' ::
      (p.identifier ++ "(const" ++ " " ++ p.valueTypeName ++ "& value)").toList := by
    simp [setterSignature_eq]
  rw [pieces_eq_cons _ _ (by decide) hcut,
    pieces_eq_cons (p.identifier ++ "(const") (p.valueTypeName ++ "& value)") (by simp [hname])
      (by simp),
    pieces_eq_cons (p.valueTypeName ++ "&") "value)" (by simp [htype]) (by simp),
    pieces_eq_singleton (by decide)]

theorem typeIn?_getterSignature (hp : IsPlain p.identifier) :
    typeIn? p.getterSignature = some p.valueTypeName := by
  rw [typeIn?, pieces_getterSignature hp]
  exact between?_append _ _ _

theorem typeIn?_setterSignature (hp : IsPlain p.identifier) :
    typeIn? p.setterSignature = some p.valueTypeName := by
  rw [typeIn?, pieces_setterSignature hp]
  exact between?_empty_append _ _

/-- The signatures of a property's accessors name its enum type, if it has one. -/
theorem enumIn?_of_typeIn? (hp : IsPlain p.identifier) {signature : String}
    (h : typeIn? signature = some p.valueTypeName) :
    enumIn? signature = if p.type.isEnum then some p.enumTypeName else none := by
  rw [enumIn?, h, Option.map_some, elementOf_valueTypeName hp, Option.filter_some,
    kindOf_elementTypeName]
  by_cases henum : p.type.kind = .enumeration
  · simp [ValueType.isEnum, elementTypeName, henum]
  · simp [ValueType.isEnum, henum]

/-! ## §3 Accessors -/

/-- The statement of a getter. -/
def getterStatement (owner : Owner) (p : Property) : String :=
  "    return GetProp<" ++ p.valueTypeName ++ ">(" ++ stringLiteral (p.key owner) ++ ");"

/-- The statement of a setter. -/
def setterStatement (owner : Owner) (p : Property) : String :=
  "    return __system_property_set(" ++ stringLiteral (p.key owner) ++ ", " ++
    p.encodedArgument ++ ") == 0;"

theorem head?_getterStatement (owner : Owner) (p : Property) :
    (p.getterStatement owner).toList.head? = some ' ' := by
  show ("    return GetProp<" ++ p.valueTypeName ++ ">(" ++ stringLiteral (p.key owner) ++
    ");").toList.head? = _
  simp

theorem head?_setterStatement (owner : Owner) (p : Property) :
    (p.setterStatement owner).toList.head? = some ' ' := by
  show ("    return __system_property_set(" ++ stringLiteral (p.key owner) ++ ", " ++
    p.encodedArgument ++ ") == 0;").toList.head? = _
  simp

/-- The functions that the accessors of a property are. -/
def functions (owner : Owner) (p : Property) : List (String × List String) :=
  [(p.getterSignature, [p.getterStatement owner]),
    (p.setterSignature, [p.setterStatement owner])]

theorem definitionLines_eq (owner : Owner) (p : Property) :
    p.definitionLines owner =
      (p.getterSignature ++ " \x7b") :: ([p.getterStatement owner] ++ ["\x7d", ""]) ++
        (p.setterSignature ++ " \x7b") :: ([p.setterStatement owner] ++ ["\x7d", ""]) :=
  rfl

theorem opened?_getterSignature (p : Property) :
    opened? (p.getterSignature ++ " \x7b") = some p.getterSignature := by
  rw [getterSignature_eq, opened?_append]

theorem opened?_setterSignature (p : Property) :
    opened? (p.setterSignature ++ " \x7b") = some p.setterSignature := by
  rw [setterSignature_eq, opened?_append]

/-- The definitions of a property are read back as its getter and its setter. -/
theorem yields_definitionLines (owner : Owner) (p : Property) :
    Yields definition? (fun _ => "\x7d") (p.definitionLines owner) (p.functions owner) := by
  have hgetter : definition? (p.getterSignature ++ " \x7b") = some p.getterSignature :=
    (definition?_eq (by simp [getterSignature_eq])).trans p.opened?_getterSignature
  have hsetter : definition? (p.setterSignature ++ " \x7b") = some p.setterSignature :=
    (definition?_eq (by simp [setterSignature_eq])).trans p.opened?_setterSignature
  rw [definitionLines_eq]
  exact (yields_function hgetter (by simp [head?_getterStatement])).append
    (yields_function hsetter (by simp [head?_setterStatement]))

theorem not_mem_encodedArgument (p : Property) :
    '"' ∉ p.encodedArgument.toList ∧ '\x7b' ∉ p.encodedArgument.toList := by
  unfold encodedArgument
  split
  · decide
  · split <;> decide

/-- Of the lines of the definitions, the headings open a brace behind a parenthesis. -/
theorem filterMap_opened?_definitionLines (hp : p.Valid owner) :
    (p.definitionLines owner).filterMap opened? = [p.getterSignature, p.setterSignature] := by
  have htype := not_mem_valueTypeName hp.isPlain_identifier
    (show isTypeChar '\x7b' = false by decide)
  have hkey := hp.isPlain_key.not_mem (show Text.isKeyChar '\x7b' = false by decide)
  have hget : opened? (p.getterStatement owner) = none := by
    refine opened?_eq_none (c := '\x7b') (by decide) ?_
    show _ ∉ ("    return GetProp<" ++ p.valueTypeName ++ ">(" ++ stringLiteral (p.key owner) ++
      ");").toList
    simp [stringLiteral, htype, hkey]
  have hset : opened? (p.setterStatement owner) = none := by
    refine opened?_eq_none (c := '\x7b') (by decide) ?_
    show _ ∉ ("    return __system_property_set(" ++ stringLiteral (p.key owner) ++ ", " ++
      p.encodedArgument ++ ") == 0;").toList
    simp [stringLiteral, hkey, (not_mem_encodedArgument p).2]
  have hblank : opened? "" = none := opened?_eq_none (c := ')') (by decide) (by decide)
  have hbrace : opened? "\x7d" = none := opened?_eq_none (c := ')') (by decide) (by decide)
  simp [definitionLines_eq, opened?_getterSignature, opened?_setterSignature, hget, hset, hblank,
    hbrace]

/-- No line of an enum type's declaration declares a function. -/
theorem declaration?_of_mem_enumLines (hp : p.Valid owner) :
    ∀ line ∈ p.enumLines, declaration? line = none := by
  have htype := (isPlain_enumTypeName hp.isPlain_identifier).not_mem
    (show Text.isKeyChar ')' = false by decide)
  rw [enumLines_eq]
  split
  · rename_i henum
    simp only [List.forall_mem_cons, List.forall_mem_append, List.forall_mem_map]
    refine ⟨declaration?_eq_none (by simp [htype]), fun symbol hmem => ?_,
      declaration?_eq_none (by decide), declaration?_eq_none (by decide), by simp⟩
    have hsymbol := (hp.isPlain_symbol henum hmem).not_mem
      (show Text.isKeyChar ')' = false by decide)
    exact declaration?_eq_none (by simp [hsymbol])
  · simp

/-- The lines of the accessors declare them. -/
theorem declarations_accessors (p : Property) :
    declarations [p.getterSignature ++ ";", p.setterSignature ++ ";", ""] =
      [p.getterSignature, p.setterSignature] := by
  have hgetter : declaration? (p.getterSignature ++ ";") = some p.getterSignature := by
    rw [getterSignature_eq, declaration?_append]
  have hsetter : declaration? (p.setterSignature ++ ";") = some p.setterSignature := by
    rw [setterSignature_eq, declaration?_append]
  have hblank : declaration? "" = none := declaration?_eq_none (by decide)
  simp [declarations, hgetter, hsetter, hblank]

theorem declarations_declarationLines (hp : p.Valid owner) :
    declarations p.declarationLines = [p.getterSignature, p.setterSignature] := by
  have henum : declarations p.enumLines = [] :=
    List.filterMap_eq_nil_iff.2 (declaration?_of_mem_enumLines hp)
  have haccessors := p.declarations_accessors
  unfold declarations at henum haccessors ⊢
  rw [declarationLines, List.filterMap_append, henum, haccessors, List.nil_append]

/-- The getter that a property has. -/
def getter (owner : Owner) (p : Property) : Getter :=
  ⟨p.identifier, p.valueTypeName, p.valueTypeName, p.key owner⟩

/-- The setter that a property has. -/
def setter (owner : Owner) (p : Property) : Setter :=
  ⟨p.identifier, p.valueTypeName, p.key owner, p.encodedArgument⟩

theorem getter?_getter (hp : IsPlain p.identifier) (hkey : IsPlain (p.key owner)) :
    getter? (p.getterSignature, [p.getterStatement owner]) = some (p.getter owner) := by
  have htype := not_mem_valueTypeName hp (show isTypeChar '"' = false by decide)
  have hliteral : literal? (p.getterStatement owner) = some
      ("    return GetProp<" ++ p.valueTypeName ++ ">(", p.key owner, ");") :=
    literal?_append (by simp [htype]) hkey (by decide)
  simp [getter?, getter, pieces_getterSignature hp, hliteral]

theorem setter?_setter (hp : IsPlain p.identifier) (hkey : IsPlain (p.key owner)) :
    setter? (p.setterSignature, [p.setterStatement owner]) = some (p.setter owner) := by
  have hstatement : p.setterStatement owner = "    return __system_property_set(" ++
      stringLiteral (p.key owner) ++ (", " ++ p.encodedArgument ++ ") == 0;") := by
    rw [← String.append_assoc, ← String.append_assoc]
    rfl
  have hliteral : literal? (p.setterStatement owner) = some
      ("    return __system_property_set(", p.key owner,
        ", " ++ p.encodedArgument ++ ") == 0;") := by
    rw [hstatement]
    exact literal?_append (by decide) hkey (by simp [(not_mem_encodedArgument p).1])
  simp [setter?, setter, pieces_setterSignature hp, hliteral]

/-- A setter is no getter, and the other way round: their signatures have more or fewer
pieces. -/
theorem getter?_setter (hp : IsPlain p.identifier) (body : List String) :
    getter? (p.setterSignature, body) = none := by
  simp [getter?, pieces_setterSignature hp]

theorem setter?_getter (hp : IsPlain p.identifier) (body : List String) :
    setter? (p.getterSignature, body) = none := by
  simp [setter?, pieces_getterSignature hp]

/-- A setter writes booleans as digits just if they are to be stored so. -/
theorem encoder_setter (owner : Owner) (p : Property) :
    (p.setter owner).encoder = "FormatIntegerAsBool" ↔ p.integerAsBool = true := by
  show String.ofList (p.encodedArgument.toList.takeWhile (· ≠ '(')) = "FormatIntegerAsBool" ↔ _
  unfold encodedArgument
  cases p.integerAsBool with
  | true =>
    rw [if_pos rfl]
    decide
  | false =>
    rw [if_neg (by decide)]
    split <;> decide

/-! ## §4 Enum types -/

/-- The enumerators of an enum type, a line each. -/
def enumeratorLines (p : Property) : List String :=
  p.symbols.map fun symbol => "    " ++ symbol ++ ","

/-- The body of the parser of a property's enumeration. -/
def parserBody (p : Property) : List String :=
  [p.tableLoop,
    "        if (strcmp(str, name) == 0) \x7b",
    "            return val;",
    "        \x7d",
    "    \x7d",
    "    return std::nullopt;"]

/-- The body of the formatter of a property's enumeration. -/
def formatterBody (owner : Owner) (p : Property) : List String :=
  [p.tableLoop,
    "        if (val == value) \x7b",
    "            return name;",
    "        \x7d",
    "    \x7d",
    "    LOG(FATAL) << \"Invalid value \" << static_cast<std::int32_t>(value) << " ++
      "\" for property \" << " ++ stringLiteral (p.key owner) ++ ";",
    "    __builtin_unreachable();"]

theorem enumParserLines_eq (p : Property) :
    p.enumParserLines = ["template <>"] ++
      ("std::optional<" ++ p.enumTypeName ++ "> DoParse(const char* str) \x7b") ::
        (p.parserBody ++ ["\x7d", ""]) :=
  rfl

theorem enumFormatterLines_eq (owner : Owner) (p : Property) :
    p.enumFormatterLines owner =
      ("std::string FormatValue(" ++ p.enumTypeName ++ " value) \x7b") ::
        (p.formatterBody owner ++ ["\x7d", ""]) :=
  rfl

theorem tableLines_eq (p : Property) :
    p.tableLines =
      ("constexpr const std::pair<const char*, " ++ p.enumTypeName ++ "> " ++ p.tableName ++
        "[] = \x7b") :: (p.symbols.map p.tableRow ++ ["\x7d;"]) ++ [""] := by
  rw [tableLines]
  simp

theorem head?_tableLoop (p : Property) : p.tableLoop.toList.head? = some ' ' := by
  show ("    for (auto [name, val] : " ++ p.tableName ++ ") \x7b").toList.head? = _
  simp

theorem head?_tableRow (p : Property) (symbol : String) :
    (p.tableRow symbol).toList.head? = some ' ' := by
  show ("    \x7b" ++ stringLiteral symbol ++ ", " ++ p.enumTypeName ++ "::" ++ symbol ++
    "\x7d,").toList.head? = _
  simp

theorem head?_of_mem_parserBody (p : Property) :
    ∀ line ∈ p.parserBody, line.toList.head? = some ' ' := by
  simp only [parserBody, List.forall_mem_cons, head?_tableLoop]
  decide

theorem head?_of_mem_formatterBody (owner : Owner) (p : Property) :
    ∀ line ∈ p.formatterBody owner, line.toList.head? = some ' ' := by
  simp only [formatterBody, List.forall_mem_cons, head?_tableLoop]
  simp

theorem definition?_of_mem_tableLines (hp : IsPlain p.identifier) :
    ∀ line ∈ p.tableLines, definition? line = none := by
  have htype := (isPlain_enumTypeName hp).not_mem (show Text.isKeyChar ')' = false by decide)
  have htable := (isPlain_tableName hp).not_mem (show Text.isKeyChar ')' = false by decide)
  have hheading : ')' ∉ ("constexpr const std::pair<const char*, " ++ p.enumTypeName ++ "> " ++
      p.tableName ++ "[] = \x7b").toList := by
    simp [htype, htable]
  simp only [tableLines_eq, List.cons_append, List.forall_mem_cons, List.forall_mem_append,
    List.forall_mem_map]
  exact ⟨definition?_eq_none (by decide) hheading,
    ⟨fun symbol _ => definition?_eq_none_of_indented (head?_tableRow p symbol),
      definition?_eq_none (c := ')') (by decide) (by decide), by simp⟩,
    definition?_blank, by simp⟩

/-- The functions that the private code of an enumeration has. -/
def enumFunctions (owner : Owner) (p : Property) : List (String × List String) :=
  if p.type.isEnum then
    [(parserSignature p.enumTypeName, p.parserBody),
      (formatterSignature p.enumTypeName, p.formatterBody owner)]
  else []

theorem yields_enumSupportLines (owner : Owner) (hp : IsPlain p.identifier) :
    Yields definition? (fun _ => "\x7d") (p.enumSupportLines owner) (p.enumFunctions owner) := by
  have htemplate : ∀ line ∈ ["template <>"], definition? line = none := by
    simpa using definition?_eq_none (c := ')') (by decide) (by decide)
  unfold enumSupportLines enumFunctions
  split
  · rw [enumParserLines_eq, enumFormatterLines_eq]
    have hparser := yields_function (definition?_parserSignature p.enumTypeName)
      (head?_of_mem_parserBody p)
    have hformatter := yields_function (definition?_formatterSignature p.enumTypeName)
      (head?_of_mem_formatterBody owner p)
    exact ((yields_of_none _ (definition?_of_mem_tableLines hp)).append
      ((yields_of_none _ htemplate).append hparser)).append hformatter
  · exact yields_of_none _ (by simp)

theorem scan?_parserBody (p : Property) :
    scan? p.parserBody = some ⟨p.tableName, "strcmp(str, name) == 0", "val"⟩ := by
  have htest : "        if (strcmp(str, name) == 0) \x7b" =
      "        if (" ++ "strcmp(str, name) == 0" ++ ") \x7b" := by decide
  have hexit : "            return val;" = "            return " ++ "val" ++ ";" := by decide
  rw [parserBody, htest, hexit]
  exact scan?_loop _ _ _ _

theorem scan?_formatterBody (owner : Owner) (p : Property) :
    scan? (p.formatterBody owner) = some ⟨p.tableName, "val == value", "name"⟩ := by
  have htest : "        if (val == value) \x7b" = "        if (" ++ "val == value" ++ ") \x7b" := by
    decide
  have hexit : "            return name;" = "            return " ++ "name" ++ ";" := by decide
  rw [formatterBody, htest, hexit]
  exact scan?_loop _ _ _ _

theorem tableHeading?_table (hp : IsPlain p.identifier) :
    tableHeading? ("constexpr const std::pair<const char*, " ++ p.enumTypeName ++ "> " ++
      p.tableName ++ "[] = \x7b") = some (p.enumTypeName, p.tableName) := by
  have htype := (isPlain_enumTypeName hp).not_mem (show Text.isKeyChar ' ' = false by decide)
  have htable := (isPlain_tableName hp).not_mem (show Text.isKeyChar ' ' = false by decide)
  have hinner : between? "constexpr const std::pair<const char*, " "[] = \x7b"
      ("constexpr const std::pair<const char*, " ++ p.enumTypeName ++ "> " ++ p.tableName ++
        "[] = \x7b") = some (p.enumTypeName ++ ">" ++ " " ++ p.tableName) :=
    between?_eq_some_iff.2 (by simp [← String.toList_inj])
  have hpieces : Text.pieces ' ' (p.enumTypeName ++ ">" ++ " " ++ p.tableName) =
      [p.enumTypeName ++ ">", p.tableName] := by
    rw [pieces_eq_cons (p.enumTypeName ++ ">") p.tableName (by simp [htype]) (by simp),
      pieces_eq_singleton htable]
  rw [tableHeading?, hinner, Option.bind_some, hpieces]
  simp only [between?_empty_append, Option.map_some]

theorem row?_tableRow (hp : IsPlain p.identifier) {symbol : String} (hsymbol : IsPlain symbol) :
    row? p.enumTypeName (p.tableRow symbol) = some ⟨symbol, symbol⟩ := by
  have htype := (isPlain_enumTypeName hp).not_mem (show Text.isKeyChar '"' = false by decide)
  have hquote := hsymbol.not_mem (show Text.isKeyChar '"' = false by decide)
  have hrow : p.tableRow symbol = "    \x7b" ++ stringLiteral symbol ++
      (", " ++ p.enumTypeName ++ "::" ++ symbol ++ "\x7d,") := by
    show "    \x7b" ++ stringLiteral symbol ++ ", " ++ p.enumTypeName ++ "::" ++ symbol ++
      "\x7d," = _
    simp only [String.append_assoc]
  have hliteral : literal? (p.tableRow symbol) =
      some ("    \x7b", symbol, ", " ++ p.enumTypeName ++ "::" ++ symbol ++ "\x7d,") := by
    rw [hrow]
    exact literal?_append (by decide) hsymbol (by simp [htype, hquote])
  rw [row?, hliteral]
  simp

/-- The table of a property's symbols. -/
def table (p : Property) : Table :=
  .ofEnumerators p.enumTypeName p.symbols

theorem mapM_row? (hp : p.Valid owner) (henum : p.type.isEnum = true) :
    (p.symbols.map p.tableRow).mapM (row? p.enumTypeName) = some p.table.rows :=
  mapM_map_eq_some fun _ hsymbol =>
    row?_tableRow hp.isPlain_identifier (hp.isPlain_symbol henum hsymbol)

theorem mapM_enumeratorLines (p : Property) :
    p.enumeratorLines.mapM (between? "    " ",") = some p.symbols := by
  have h : p.enumeratorLines.mapM (between? "    " ",") = some (p.symbols.map id) :=
    mapM_map_eq_some fun _ _ => between?_append _ _ _
  rwa [List.map_id] at h

/-- A table is read back under its name. -/
theorem yields_tableLines (hp : IsPlain p.identifier) :
    Yields tableHeading? (fun _ => "\x7d;") p.tableLines
      [((p.enumTypeName, p.tableName), p.symbols.map p.tableRow)] := by
  have hbody : ∀ l ∈ p.symbols.map p.tableRow, tableHeading? l = none := by
    rw [List.forall_mem_map]
    exact fun symbol _ => tableHeading?_eq_none (by simp [head?_tableRow])
  have hopen : "\x7d;" ∉ p.symbols.map p.tableRow := by
    intro hmem
    obtain ⟨symbol, _, heq⟩ := List.mem_map.1 hmem
    simpa [heq] using head?_tableRow p symbol
  rw [tableLines_eq]
  exact (yields_section (tableHeading?_table hp) hbody hopen
    (tableHeading?_eq_none (by simp))).append_blank (tableHeading?_eq_none (by simp))

/-- An enum type is read back with its enumerators. -/
theorem yields_enumLines (p : Property) :
    Yields enumHeading? (fun _ => "\x7d;") p.enumLines
      (if p.type.isEnum then [(p.enumTypeName, p.enumeratorLines)] else []) := by
  have hbody : ∀ l ∈ p.enumeratorLines, enumHeading? l = none := by
    rw [enumeratorLines, List.forall_mem_map]
    exact fun symbol _ => enumHeading?_eq_none (by simp)
  have hopen : "\x7d;" ∉ p.enumeratorLines := by
    intro hmem
    obtain ⟨symbol, _, heq⟩ := List.mem_map.1 hmem
    simp [← String.toList_inj] at heq
  rw [enumLines_eq]
  split
  · have hsection : Yields enumHeading? (fun _ => "\x7d;")
        (("enum class " ++ p.enumTypeName ++ " \x7b") :: (p.enumeratorLines ++ ["\x7d;"]))
        [(p.enumTypeName, p.enumeratorLines)] :=
      yields_section (between?_append _ _ _) hbody hopen (enumHeading?_eq_none (by simp))
    simpa [enumeratorLines] using hsection.append_blank (enumHeading?_eq_none (by simp))
  · exact yields_of_none _ (by simp)

theorem yields_declarationLines (p : Property) :
    Yields enumHeading? (fun _ => "\x7d;") p.declarationLines
      (if p.type.isEnum then [(p.enumTypeName, p.enumeratorLines)] else []) := by
  have haccessors : ∀ line ∈ [p.getterSignature ++ ";", p.setterSignature ++ ";", ""],
      enumHeading? line = none := by
    intro line hline
    refine enumHeading?_eq_none ?_
    revert line
    simp [getterSignature_eq, setterSignature_eq]
  simpa [declarationLines] using (yields_enumLines p).append (yields_of_none _ haccessors)

end Property

end PropSchema
