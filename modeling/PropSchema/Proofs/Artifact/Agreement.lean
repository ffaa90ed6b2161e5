/-
PropSchema.Proofs.Artifact.Agreement — accessors and generated code do the same.

A schema is used in two ways, by its accessors and by the code generated from it, and
processes of both kinds share a store. So they have to agree property by property: on the
key, on the type of the values, on which booleans are stored as digits, and on the symbols
of enumerations with their places.

§1 Enumerations — the scans of a table against the places of symbols.
§2 Look-ups     — the enum types, tables and functions of a property in its files.
§3 Accessors    — `Schema.accessors_agree`.
-/
import PropSchema.Proofs.Artifact.Correspondence
import PropSchema.Proofs.Value.RoundTrip

namespace PropSchema

open Artifact

/-! ## §1 Enumerations -/

namespace Artifact.EnumCode

/-- Whether the code for an enum type is about the symbols of a descriptor, and takes names
for places and places for names as the descriptor does. -/
structure Renders (c : EnumCode) (d : Descriptor) : Prop where
  enumerators : c.enumerators = d.symbols
  rows : c.rows = d.symbols.map fun symbol => ⟨symbol, symbol⟩
  rowFor? : ∀ raw, c.rowFor? raw = d.ordinal? raw
  parse : ∀ raw, c.parse raw = d.ordinal? raw
  format : ∀ value, c.format value = d.symbol? value

/-- The code with an enumerator and a row for each symbol. -/
def ofSymbols (symbols : List String) : EnumCode :=
  ⟨symbols, symbols.map fun symbol => ⟨symbol, symbol⟩⟩

theorem idxOf?_symbols (d : Descriptor) (symbol : String) :
    d.symbols.idxOf? symbol = d.ordinal? symbol :=
  rfl

/-- An item is found if it is the only one that meets the condition. -/
theorem find?_eq_some_of_unique {α : Type} {P : α → Bool} {items : List α} {a : α}
    (hmem : a ∈ items) (hP : ∀ b ∈ items, P b = true ↔ b = a) : items.find? P = some a := by
  obtain ⟨b, hb⟩ : ∃ b, items.find? P = some b :=
    Option.isSome_iff_exists.1 (List.find?_isSome.2 ⟨a, hmem, (hP a hmem).2 rfl⟩)
  rw [hb, (hP b (List.mem_of_find?_eq_some hb)).1 (List.find?_some hb)]

/-- Where symbols differ, a symbol stands at a place just if that is its place. -/
theorem ordinal?_eq_some_iff {d : Descriptor} (h : d.symbols.Nodup) {symbol : String} {n : Nat} :
    d.ordinal? symbol = some n ↔ d.symbol? n = some symbol := by
  constructor
  · intro hordinal
    obtain ⟨hn, hsymbol, _⟩ := List.findIdx?_eq_some_iff_getElem.1 hordinal
    simpa [Descriptor.symbol?, List.getElem?_eq_some_iff, hn] using hsymbol
  · intro hsymbol
    obtain ⟨hn, rfl⟩ := List.getElem?_eq_some_iff.1 hsymbol
    exact ordinal?_getElem h hn

/-- Code made from the symbols of a descriptor renders it, if the symbols differ. -/
theorem renders_ofSymbols {d : Descriptor} (h : d.symbols.Nodup) :
    (ofSymbols d.symbols).Renders d := by
  refine ⟨rfl, rfl, ?_, ?_, ?_⟩
  · intro raw
    simp [EnumCode.rowFor?, ofSymbols, Descriptor.ordinal?, Function.comp_def]
  · intro raw
    have hfind : (ofSymbols d.symbols).parse raw =
        (d.symbols.find? fun symbol => symbol = raw).bind d.symbols.idxOf? := by
      rw [EnumCode.parse, ofSymbols, List.find?_map, Option.bind_map]
      rfl
    rw [hfind]
    by_cases hraw : raw ∈ d.symbols
    · rw [find?_eq_some_of_unique hraw (by simp)]
      exact idxOf?_symbols d raw
    · have hother : ∀ symbol ∈ d.symbols, symbol ≠ raw := fun symbol hmem heq =>
        hraw (heq ▸ hmem)
      have hnone : d.symbols.find? (fun symbol => symbol = raw) = none := by
        simpa using hother
      have hordinal : d.ordinal? raw = none := by
        simpa [Descriptor.ordinal?] using hother
      rw [hnone, hordinal]
      rfl
  · intro n
    have hfind : (ofSymbols d.symbols).format n =
        d.symbols.find? fun symbol => d.symbols.idxOf? symbol == some n := by
      simp [EnumCode.format, ofSymbols, List.find?_map, Function.comp_def]
    rw [hfind]
    cases hn : d.symbol? n with
    | some symbol =>
      refine find?_eq_some_of_unique (List.mem_of_getElem? hn) fun other _ => ?_
      rw [beq_iff_eq, idxOf?_symbols, ordinal?_eq_some_iff h, hn, Option.some.injEq, eq_comm]
    | none => simp [idxOf?_symbols, ordinal?_eq_some_iff h, hn]

end Artifact.EnumCode

/-! ## §2 Look-ups -/

/-- What is listed under a key is found if nothing else is listed under it. -/
theorem lookup_eq_some_of_unique {β : Type} {entries : List (String × β)} {k : String} {v : β}
    (hmem : (k, v) ∈ entries) (hunique : ∀ w, (k, w) ∈ entries → w = v) :
    entries.lookup k = some v := by
  cases hfound : entries.lookup k with
  | none =>
    rw [List.lookup_eq_none_iff] at hfound
    simpa using hfound _ hmem
  | some w =>
    obtain ⟨before, after, rfl, -⟩ := List.lookup_eq_some_iff.1 hfound
    rw [hunique w (by simp)]

namespace Schema

variable {s : Schema} {p : Property}

/-- Properties with the same identifier are the same. -/
theorem eq_of_identifier_eq (hs : s.Valid) (hp : p ∈ s.props) {q : Property} (hq : q ∈ s.props)
    (h : q.identifier = p.identifier) : q = p :=
  List.inj_on_of_nodup_map (List.pairwise_map.2 hs.identifiers) hq hp h

theorem lookup_enums_header (hs : s.Valid) (hp : p ∈ s.enumProps) :
    (enums (lines s.header)).lookup p.enumTypeName = some p.symbols := by
  rw [enums_header hs]
  refine lookup_eq_some_of_unique (List.mem_map.2 ⟨p, hp, rfl⟩) fun symbols hmem => ?_
  obtain ⟨q, hq, heq⟩ := List.mem_map.1 hmem
  obtain ⟨hname, rfl⟩ := Prod.mk.inj heq
  rw [eq_of_identifier_eq hs (List.mem_of_mem_filter hp) (List.mem_of_mem_filter hq)
    ((String.append_left_inj "_values").1 hname)]

theorem lookup_tables_source (hs : s.Valid) (hp : p ∈ s.enumProps) (includeName : String) :
    (tables (codeLines (s.source includeName))).lookup p.tableName = some p.table := by
  rw [tables_source hs]
  refine lookup_eq_some_of_unique (List.mem_map.2 ⟨p, hp, rfl⟩) fun table hmem => ?_
  obtain ⟨q, hq, heq⟩ := List.mem_map.1 hmem
  obtain ⟨hname, rfl⟩ := Prod.mk.inj heq
  rw [eq_of_identifier_eq hs (List.mem_of_mem_filter hp) (List.mem_of_mem_filter hq)
    ((String.append_left_inj "_list").1 hname)]

theorem mem_enumFunctions (hp : p ∈ s.enumProps) :
    (parserSignature p.enumTypeName, p.parserBody) ∈ p.enumFunctions s.owner ∧
      (formatterSignature p.enumTypeName, p.formatterBody s.owner) ∈ p.enumFunctions s.owner := by
  simp [Property.enumFunctions, (List.mem_filter.1 hp).2]

/-- Of the functions for enumerations, those with the signatures for one enum type are its
parser and its formatter. -/
theorem eq_of_mem_enumFunctions (hs : s.Valid) (hp : p ∈ s.props) {body : List String} :
    ((parserSignature p.enumTypeName, body) ∈ s.props.flatMap (Property.enumFunctions s.owner) →
      body = p.parserBody) ∧
    ((formatterSignature p.enumTypeName, body) ∈
        s.props.flatMap (Property.enumFunctions s.owner) → body = p.formatterBody s.owner) := by
  have hsame : ∀ q ∈ s.props, q.enumTypeName = p.enumTypeName → q = p := fun q hq hname =>
    eq_of_identifier_eq hs hp hq ((String.append_left_inj "_values").1 hname)
  constructor
  · intro hmem
    obtain ⟨q, hq, hmem⟩ := List.mem_flatMap.1 hmem
    unfold Property.enumFunctions at hmem
    split at hmem
    · rcases List.mem_pair.1 hmem with heq | heq
      · obtain ⟨hname, rfl⟩ := Prod.mk.inj heq
        rw [hsame q hq (parserSignature_inj hname.symm)]
      · exact absurd (Prod.mk.inj heq).1.symm (formatterSignature_ne_parserSignature _ _)
    · simp at hmem
  · intro hmem
    obtain ⟨q, hq, hmem⟩ := List.mem_flatMap.1 hmem
    unfold Property.enumFunctions at hmem
    split at hmem
    · rcases List.mem_pair.1 hmem with heq | heq
      · exact absurd (Prod.mk.inj heq).1 (formatterSignature_ne_parserSignature _ _)
      · obtain ⟨hname, rfl⟩ := Prod.mk.inj heq
        rw [hsame q hq (formatterSignature_inj hname.symm)]
    · simp at hmem

/-- The parser and the formatter of an enum type are found in the source file. -/
theorem lookup_definitions_source (hs : s.Valid) (hp : p ∈ s.enumProps) (includeName : String) :
    (definitions (codeLines (s.source includeName))).lookup (parserSignature p.enumTypeName) =
        some p.parserBody ∧
      (definitions (codeLines (s.source includeName))).lookup
        (formatterSignature p.enumTypeName) = some (p.formatterBody s.owner) := by
  obtain ⟨others, hothers⟩ := exists_definitions_source hs includeName
  have hprop := List.mem_of_mem_filter hp
  have hmem := mem_enumFunctions hp
  rw [hothers, List.lookup_append, List.lookup_append,
    lookup_eq_some_of_unique (List.mem_flatMap.2 ⟨p, hprop, hmem.1⟩)
      fun _ => (eq_of_mem_enumFunctions hs hprop).1,
    lookup_eq_some_of_unique (List.mem_flatMap.2 ⟨p, hprop, hmem.2⟩)
      fun _ => (eq_of_mem_enumFunctions hs hprop).2]
  exact ⟨rfl, rfl⟩

/-- The code for the enum type of a property is in the files of its schema. -/
theorem enumCode_isIn (hs : s.Valid) (hp : p ∈ s.enumProps) (includeName : String) :
    (EnumCode.ofSymbols p.symbols).IsIn (lines s.header) (codeLines (s.source includeName))
      p.enumTypeName := by
  obtain ⟨hparser, hformatter⟩ := lookup_definitions_source hs hp includeName
  refine ⟨lookup_enums_header hs hp, p.tableName, lookup_tables_source hs hp includeName, ?_, ?_⟩
  · rw [hparser]
    exact p.scan?_parserBody
  · rw [hformatter]
    exact p.scan?_formatterBody s.owner

/-- The writer of single booleans, and behind it the writer of lists. -/
theorem digitWriters_eq :
    digitWriters =
      (digitWriterSignature ⟨.boolean, false⟩ ++ " \x7b") ::
        (["    return value ? \"1\" : \"0\";"] ++ "\x7d" :: "" ::
      (digitWriterSignature ⟨.boolean, true⟩ ++ " \x7b") ::
        ((digitWriters.drop 5).dropLast ++ ["\x7d"])) := by
  decide

/-- Both writers of booleans as digits are defined by these lines, wherever they stand. -/
theorem digitWriters_defined (type : ValueType) (before after : List String) :
    ∃ body, (digitWriterSignature type, body) ∈
      definitions (before ++ (digitWriters ++ after)) := by
  have hline : ∀ isList, definition? (digitWriterSignature ⟨.boolean, isList⟩ ++ " \x7b") =
      some (digitWriterSignature ⟨.boolean, isList⟩) := by
    decide
  have hsignature : digitWriterSignature type = digitWriterSignature ⟨.boolean, type.isList⟩ :=
    rfl
  have hopen : "\x7d" ∉ (digitWriters.drop 5).dropLast := by decide
  rw [hsignature, digitWriters_eq]
  simp only [List.cons_append, List.append_assoc, List.nil_append]
  cases type.isList with
  | false => exact ⟨["    return value ? \"1\" : \"0\";"], mem_sections (hline false) (by decide)⟩
  | true =>
    have hlist : (digitWriterSignature ⟨.boolean, true⟩, (digitWriters.drop 5).dropLast) ∈
        definitions ([digitWriterSignature ⟨.boolean, false⟩ ++ " \x7b",
          "    return value ? \"1\" : \"0\";", "\x7d", ""] ++
            (digitWriterSignature ⟨.boolean, true⟩ ++ " \x7b") ::
              ((digitWriters.drop 5).dropLast ++ "\x7d" :: after)) :=
      mem_sections (hline true) hopen
    exact ⟨_, mem_sections_append hlist before⟩

/-- A source file defines the writers of booleans as digits if some property is stored so. -/
theorem digitWriter_mem_definitions (hs : s.Valid) (hp : p ∈ s.props)
    (hdigits : p.integerAsBool = true) (includeName : String) (type : ValueType) :
    ∃ body, (digitWriterSignature type, body) ∈ definitions (codeLines (s.source includeName)) := by
  have hany : s.props.any Property.integerAsBool = true :=
    List.any_eq_true.2 ⟨p, hp, hdigits⟩
  have hlines : codeLines (s.source includeName) =
      (s.codeOpening ++ s.props.flatMap (Property.enumSupportLines s.owner) ++
          supportCode ++ [""]) ++
        (digitWriters ++ ([""] ++ (["\x7d  // namespace", ""] ++ (s.accessorLines ++ [""])))) := by
    rw [codeLines_source_eq hs, helperLines, digitWriterLines, if_pos hany]
    simp only [List.append_assoc]
  rw [hlines]
  exact digitWriters_defined type _ _

end Schema

/-! ## §3 Accessors -/

namespace Accessor

/-- Whether a getter and a setter, in two files, do what an accessor does. -/
structure Agrees (a : Accessor) (header code : List String) (getter : Getter)
    (setter : Setter) : Prop where
  names : getter.name = identifierOf a.apiName ∧ setter.name = identifierOf a.apiName
  /-- The keys are those in the string literals. -/
  keys : getter.key = a.key ∧ setter.key = a.key
  /-- What the getter returns is what it asks the store for, and what the setter takes. -/
  types : getter.read = getter.type ∧ setter.type = getter.type
  type : valueTypeOf getter.type = a.descriptor.type
  /-- Booleans are written as digits on both sides or on none. -/
  digits : setter.encoder = "FormatIntegerAsBool" ↔ a.integerAsBool = true
  encode : a.encode = if setter.encoder = "FormatIntegerAsBool" then encodeAsDigits
    else a.descriptor.encode
  /-- The writer for the type is defined where it is called. -/
  digitWriter : setter.encoder = "FormatIntegerAsBool" →
    ∃ body, (digitWriterSignature a.descriptor.type, body) ∈ definitions code
  /-- An enumeration has code that renders the descriptor, for the type in the signatures. -/
  enumeration : a.descriptor.type.isEnum = true →
    ∃ c : EnumCode, c.IsIn header code (elementOf getter.type) ∧ c.Renders a.descriptor

end Accessor

namespace Schema

variable {s : Schema}

theorem gettersIn_source (hs : s.Valid) (includeName : String) :
    gettersIn s.namespaceName (codeLines (s.source includeName)) =
      s.props.map (Property.getter s.owner) := by
  rw [gettersIn, definitionsIn_source hs, List.filterMap_flatMap, List.map_eq_flatMap]
  refine List.flatMap_congr fun p hp => ?_
  have hid := (hs.props p hp).isPlain_identifier
  simp [Property.functions, Property.getter?_getter hid (hs.props p hp).isPlain_key,
    Property.getter?_setter hid]

theorem settersIn_source (hs : s.Valid) (includeName : String) :
    settersIn s.namespaceName (codeLines (s.source includeName)) =
      s.props.map (Property.setter s.owner) := by
  rw [settersIn, definitionsIn_source hs, List.filterMap_flatMap, List.map_eq_flatMap]
  refine List.flatMap_congr fun p hp => ?_
  have hid := (hs.props p hp).isPlain_identifier
  simp [Property.functions, Property.setter?_setter hid (hs.props p hp).isPlain_key,
    Property.setter?_getter hid]

/-- The code of a property agrees with its accessor. -/
theorem agrees_of_mem (hs : s.Valid) {p : Property} (hp : p ∈ s.props) (includeName : String) :
    (Accessor.ofProperty s.owner p).Agrees (lines s.header) (codeLines (s.source includeName))
      (p.getter s.owner) (p.setter s.owner) := by
  have hvalid := hs.props p hp
  have hid := hvalid.isPlain_identifier
  have hdigits := p.encoder_setter s.owner
  refine ⟨⟨rfl, rfl⟩, ⟨rfl, rfl⟩, ⟨rfl, rfl⟩, Property.valueTypeOf_valueTypeName hid, hdigits,
    ?_, fun hcalled => digitWriter_mem_definitions hs hp (hdigits.1 hcalled) includeName _, ?_⟩
  · by_cases h : p.integerAsBool = true
    · rw [if_pos (hdigits.2 h)]
      exact funext fun _ => if_pos h
    · rw [if_neg fun hcalled => h (hdigits.1 hcalled)]
      exact funext fun _ => if_neg h
  · intro henum
    have henum' : p.type.isEnum = true := henum
    have htype : elementOf p.valueTypeName = p.enumTypeName := by
      rw [Property.elementOf_valueTypeName hid, Property.elementTypeName, of_decide_eq_true henum']
    have hsymbols : p.descriptor.symbols = p.symbols := if_pos henum'
    refine ⟨EnumCode.ofSymbols p.symbols, ?_, ?_⟩
    · show EnumCode.IsIn _ _ _ (elementOf p.valueTypeName)
      rw [htype]
      exact enumCode_isIn hs (List.mem_filter.2 ⟨hp, henum'⟩) includeName
    · rw [← hsymbols]
      exact EnumCode.renders_ofSymbols hvalid.wellFormed.distinct

/-- **Accessors and generated code agree**: of a loaded schema, the namespace of the source
file has as many getters and as many setters as the schema has accessors, nothing else, and
those at each place do what the accessor at the place does. -/
theorem accessors_agree {text : String} (h : load text = .ok s) (includeName : String) :
    let header := lines s.header
    let code := codeLines (s.source includeName)
    (definitionsIn s.namespaceName code).length = 2 * s.accessors.length ∧
      (gettersIn s.namespaceName code).length = s.accessors.length ∧
      (settersIn s.namespaceName code).length = s.accessors.length ∧
      ∀ (i : Nat) (a : Accessor), s.accessors[i]? = some a →
        ∃ getter setter, (gettersIn s.namespaceName code)[i]? = some getter ∧
          (settersIn s.namespaceName code)[i]? = some setter ∧
          a.Agrees header code getter setter := by
  have hs := valid_of_load h
  intro header code
  rw [gettersIn_source hs, settersIn_source hs, definitionsIn_source hs]
  refine ⟨?_, by simp [accessors], by simp [accessors], ?_⟩
  · have hlength : ∀ props : List Property,
        (props.flatMap (Property.functions s.owner)).length = 2 * props.length := by
      intro props
      induction props with
      | nil => rfl
      | cons p props ih =>
        rw [List.flatMap_cons, List.length_append, ih, List.length_cons, Property.functions]
        simp only [List.length_cons, List.length_nil]
        omega
    rw [hlength, accessors, List.length_map]
  · intro i a ha
    rw [accessors, List.getElem?_map, Option.map_eq_some_iff] at ha
    obtain ⟨p, hp, rfl⟩ := ha
    refine ⟨p.getter s.owner, p.setter s.owner, by simp [hp], by simp [hp], ?_⟩
    exact agrees_of_mem hs (List.mem_of_getElem? hp) includeName

end Schema

/-- The switch, the mode and the scenes of the chandelier, in the code that includes its header
under any name. -/
theorem chandelier_accessors_agree :
    Schema.load chandelierText = .ok chandelier ∧
      ∀ includeName,
        (∃ setter, (settersIn "home::Chandelier" (codeLines (chandelier.source includeName)))[0]? =
          some setter ∧ setter.encoder = "FormatIntegerAsBool") ∧
        (∃ getter, (gettersIn "home::Chandelier" (codeLines (chandelier.source includeName)))[1]? =
          some getter ∧ ∃ c : EnumCode,
            c.IsIn (lines chandelier.header) (codeLines (chandelier.source includeName))
              (elementOf getter.type) ∧ c.parse "blink" = some 1 ∧ c.format 1 = some "blink") ∧
        (∃ getter, (gettersIn "home::Chandelier" (codeLines (chandelier.source includeName)))[2]? =
          some getter ∧ getter.key = "ro.scenes" ∧
            valueTypeOf getter.type = ⟨.enumeration, true⟩) := by
  refine ⟨load_chandelierText, fun includeName => ?_⟩
  have hname : chandelier.namespaceName = "home::Chandelier" := by decide +kernel
  obtain ⟨_, _, _, h⟩ := Schema.accessors_agree load_chandelierText includeName
  rw [hname] at h
  obtain ⟨_, switch, _, hswitch, hon⟩ := h 0 _ rfl
  obtain ⟨mode, _, hmode, _, hmodes⟩ := h 1 _ rfl
  obtain ⟨scenes, _, hscenes, _, hlist⟩ := h 2 _ rfl
  obtain ⟨c, hc, hrenders⟩ := hmodes.enumeration rfl
  refine ⟨⟨switch, hswitch, hon.digits.2 rfl⟩, ⟨mode, hmode, c, hc, ?_, ?_⟩,
    ⟨scenes, hscenes, hlist.keys.1.trans (by decide +kernel), hlist.type⟩⟩
  · exact (hrenders.parse "blink").trans (by decide +kernel)
  · exact (hrenders.format 1).trans (by decide +kernel)

end PropSchema
