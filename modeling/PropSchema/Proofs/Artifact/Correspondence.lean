/-
PropSchema.Proofs.Artifact.Correspondence — header and source file fit together.

The two files are made apart from each other: the header declares an enum type where the
descriptor of a property has symbols, the source file has a table where the type is an
enumeration, and both build every signature anew. Read back, they say the same: one
namespace, the same functions in the same order, and for each enum type a table of just
its enumerators. No signature names an enum type that has not been declared before it.

§1 Order — `EnumsDeclaredBefore`, block by block.
§2 Files — `Schema.files_correspond`.
-/
import PropSchema.Proofs.Artifact.Contents
import Mathlib.Data.List.Nodup

namespace PropSchema

open Artifact

/-! ## §1 Order -/

namespace Artifact

/-- Whether the enum types in the signatures that a file declares are each declared in the
lines before. -/
def EnumsDeclaredBefore (file : List String) : Prop :=
  ∀ (before after : List String) (line signature type : String),
    file = before ++ line :: after → declaration? line = some signature →
      enumIn? signature = some type → type ∈ (enums before).map (·.1)

/-- Lines in front of a file take no enum type from it. -/
theorem mem_enums_append {type : String} {file : List String}
    (h : type ∈ (enums file).map (·.1)) (block : List String) :
    type ∈ (enums (block ++ file)).map (·.1) := by
  obtain ⟨found, hfound, rfl⟩ := List.mem_map.1 h
  obtain ⟨part, hpart, hread⟩ := List.mem_filterMap.1 hfound
  exact List.mem_map_of_mem (List.mem_filterMap.2 ⟨part, mem_sections_append hpart block, hread⟩)

theorem EnumsDeclaredBefore.append {file block : List String} (h : EnumsDeclaredBefore file)
    (h' : EnumsDeclaredBefore block) : EnumsDeclaredBefore (file ++ block) := by
  intro before after line signature type hsplit hline htype
  rcases List.append_eq_append_iff.1 hsplit with ⟨cs, rfl, hcs⟩ | ⟨cs, rfl, hcs⟩
  · exact mem_enums_append (h' cs after line signature type hcs hline htype) file
  · cases cs with
    | nil =>
      have hempty := h' [] after line signature type (by simpa using hcs.symm) hline htype
      simp [enums, sections] at hempty
    | cons c cs =>
      obtain ⟨rfl, rfl⟩ := List.cons.inj hcs
      exact h before cs line signature type rfl hline htype

theorem enumsDeclaredBefore_of_none {block : List String}
    (h : ∀ line ∈ block, declaration? line = none) : EnumsDeclaredBefore block := by
  rintro before after line signature type rfl hline
  simp [h line (by simp)] at hline

theorem enumsDeclaredBefore_flatMap {α : Type} {block : α → List String} {items : List α}
    (h : ∀ item ∈ items, EnumsDeclaredBefore (block item)) :
    EnumsDeclaredBefore (items.flatMap block) := by
  induction items with
  | nil => exact enumsDeclaredBefore_of_none (by simp)
  | cons item items ih =>
    rw [List.forall_mem_cons] at h
    exact h.1.append (ih h.2)

end Artifact

/-- The declarations of a property start with its enum type. -/
theorem Property.enumsDeclaredBefore {owner : Owner} {p : Property} (hp : p.Valid owner) :
    EnumsDeclaredBefore p.declarationLines := by
  intro before after line signature type hsplit hline htype
  have hid := hp.isPlain_identifier
  obtain ⟨cs, rfl, hcs⟩ : ∃ cs, before = p.enumLines ++ cs ∧
      [p.getterSignature ++ ";", p.setterSignature ++ ";", ""] = cs ++ line :: after := by
    rcases List.append_eq_append_iff.1 hsplit with ⟨cs, hbefore, hcs⟩ | ⟨cs, henum, hcs⟩
    · exact ⟨cs, hbefore, hcs⟩
    · cases cs with
      | nil => exact ⟨[], by simpa using henum.symm, hcs.symm⟩
      | cons c cs =>
        obtain ⟨rfl, -⟩ := List.cons.inj hcs
        simp [declaration?_of_mem_enumLines hp line (by simp [henum])] at hline
  have hmem : signature ∈ [p.getterSignature, p.setterSignature] := by
    rw [← p.declarations_accessors, hcs]
    exact List.mem_filterMap.2 ⟨line, by simp, hline⟩
  have hvalue : typeIn? signature = some p.valueTypeName := by
    rcases List.mem_pair.1 hmem with rfl | rfl
    · exact typeIn?_getterSignature hid
    · exact typeIn?_setterSignature hid
  rw [enumIn?_of_typeIn? hid hvalue, Option.ite_none_right_eq_some, Option.some.injEq] at htype
  obtain ⟨henum, rfl⟩ := htype
  rw [enums, p.yields_enumLines cs, if_pos henum, List.filterMap_append]
  simp [p.mapM_enumeratorLines]

/-! ## §2 Files -/

/-- What the header and the code of a schema's files have in common. -/
structure Schema.Correspond (s : Schema) (header code : List String) : Prop where
  /-- Both have one namespace with a name, that of the module. -/
  declaresIn : (namespaces header).map (·.1) = [s.namespaceName]
  definesIn : (namespaces code).map (·.1) = [s.namespaceName]
  /-- A getter is declared and then a setter, property by property, and nothing else. -/
  declared : declarations header = s.props.flatMap fun p => [p.getterSignature, p.setterSignature]
  /-- In the namespace, the lines that open a brace behind a parenthesis have the declared
  signatures, and each heads a definition. -/
  opened : ((namespaces code).flatMap (·.2)).filterMap opened? = declarations header
  defined : (definitionsIn s.namespaceName code).map (·.1) = declarations header
  /-- The accessors of an enumeration name its enum type. -/
  named : ∀ p ∈ s.props, ∀ signature ∈ [p.getterSignature, p.setterSignature],
    enumIn? signature = if p.type.isEnum then some p.enumTypeName else none
  /-- An enum type that is named is declared once, and before. -/
  once : ∀ signature ∈ declarations header, ∀ type, enumIn? signature = some type →
    ((enums header).map (·.1)).count type = 1
  before : EnumsDeclaredBefore header
  /-- Enumerations, and no other properties, have enum types, with their symbols in them. -/
  enumTypes : enums header = s.enumProps.map fun p => (p.enumTypeName, p.symbols)
  /-- A property has a table just if it has an enum type, with the same members. -/
  tabled : ∀ p ∈ s.props, (tables code).lookup p.tableName =
    ((enums header).lookup p.enumTypeName).map (Table.ofEnumerators p.enumTypeName)

namespace Schema

variable {s : Schema}

theorem enumsDeclaredBefore_header (hs : s.Valid) : EnumsDeclaredBefore (lines s.header) := by
  have hopening := enumsDeclaredBefore_of_none (declaration?_of_mem_headerOpening hs)
  have hprops : EnumsDeclaredBefore (s.props.flatMap Property.declarationLines) :=
    enumsDeclaredBefore_flatMap fun p hp => Property.enumsDeclaredBefore (hs.props p hp)
  have hclosing := enumsDeclaredBefore_of_none (declaration?_of_mem_headerClosing hs)
  rw [lines_header hs, headerLines, List.append_assoc]
  exact (hopening.append hprops).append hclosing

theorem enumTypeNames_nodup (hs : s.Valid) : (s.enumProps.map Property.enumTypeName).Nodup :=
  nodup_map_suffix (hs.identifiers.filter _) "_values"

/-- The enum type that a property has is declared once. -/
theorem count_enums_header (hs : s.Valid) {p : Property} (hp : p ∈ s.props)
    (henum : p.type.isEnum = true) :
    ((enums (lines s.header)).map (·.1)).count p.enumTypeName = 1 := by
  have hnames : (enums (lines s.header)).map (·.1) = s.enumProps.map Property.enumTypeName := by
    rw [enums_header hs, List.map_map]
    rfl
  rw [hnames]
  exact List.count_eq_one_of_mem (enumTypeNames_nodup hs)
    (List.mem_map_of_mem (List.mem_filter.2 ⟨hp, henum⟩))

/-- Lists over the same items that are keyed alike find the same. -/
theorem lookup_map_eq_map_lookup {α β γ : Type} {items : List α} {f f' : α → String} {g : α → β}
    {g' : α → γ} {k k' : String} {h : γ → β} (hkeys : ∀ a ∈ items, f a = k ↔ f' a = k')
    (hvalues : ∀ a ∈ items, f a = k → g a = h (g' a)) :
    (items.map fun a => (f a, g a)).lookup k =
      ((items.map fun a => (f' a, g' a)).lookup k').map h := by
  induction items with
  | nil => rfl
  | cons a items ih =>
    rw [List.forall_mem_cons] at hkeys hvalues
    rw [List.map_cons, List.map_cons, List.lookup_cons, List.lookup_cons]
    by_cases ha : f a = k
    · simp [ha, hkeys.1.1 ha, hvalues.1 ha]
    · have ha' : f' a ≠ k' := fun heq => ha (hkeys.1.2 heq)
      simpa [beq_eq_false_iff_ne.2 (Ne.symm ha), beq_eq_false_iff_ne.2 ha'.symm]
        using ih hkeys.2 hvalues.2

/-- **Header and source file agree**: the header of a loaded schema declares, in the
namespace of the module, a getter and a setter for each property and nothing else, the source
file defines just these in the same namespace, each enum type is declared once and before it
is named, and the source file has tables for the enum types, with the same members. -/
theorem files_correspond {text : String} (h : load text = .ok s) (includeName : String) :
    s.Correspond (lines s.header) (codeLines (s.source includeName)) := by
  have hs := valid_of_load h
  have hdeclared := declarations_header hs
  have hnamed : ∀ p ∈ s.props, ∀ signature ∈ [p.getterSignature, p.setterSignature],
      enumIn? signature = if p.type.isEnum then some p.enumTypeName else none := by
    intro p hp signature hmem
    have hid := (hs.props p hp).isPlain_identifier
    rcases List.mem_pair.1 hmem with rfl | rfl
    · exact Property.enumIn?_of_typeIn? hid (Property.typeIn?_getterSignature hid)
    · exact Property.enumIn?_of_typeIn? hid (Property.typeIn?_setterSignature hid)
  refine ⟨?_, ?_, hdeclared, ?_, ?_, hnamed, ?_, enumsDeclaredBefore_header hs, enums_header hs, ?_⟩
  · rw [namespaces_header hs]
    rfl
  · rw [namespaces_source hs]
    rfl
  · have hblank : opened? "" = none := opened?_eq_none (c := ')') (by decide) (by decide)
    rw [namespaces_source hs, hdeclared, List.flatMap_singleton, List.filterMap_cons_none hblank,
      List.filterMap_flatMap]
    exact List.flatMap_congr fun p hp => Property.filterMap_opened?_definitionLines (hs.props p hp)
  · rw [definitionsIn_source hs, hdeclared, List.map_flatMap]
    rfl
  · intro signature hmem type htype
    rw [hdeclared, List.mem_flatMap] at hmem
    obtain ⟨p, hp, hmem⟩ := hmem
    rw [hnamed p hp signature hmem, Option.ite_none_right_eq_some, Option.some.injEq] at htype
    obtain ⟨henum, rfl⟩ := htype
    exact count_enums_header hs hp henum
  · intro p _
    have hkeys : ∀ q : Property, q.tableName = p.tableName ↔ q.enumTypeName = p.enumTypeName := by
      intro q
      simp [Property.tableName, Property.enumTypeName]
    rw [tables_source hs, enums_header hs]
    refine lookup_map_eq_map_lookup (fun q _ => hkeys q) fun q _ hq => ?_
    rw [Property.table, (hkeys q).1 hq]

end Schema

/-- A chandelier: a switch that is stored as a digit, a mode, and a list of scenes. -/
def chandelierText : String :=
  "module: \"home.Chandelier\"\n" ++
  "prop \x7b api_name: \"on\" type: Boolean access: ReadWrite integer_as_bool: true \x7d\n" ++
  "prop \x7b api_name: \"mode\" type: Enum enum_values: \"steady|blink\" \x7d\n" ++
  "prop \x7b api_name: \"scenes\" type: EnumList enum_values: \"dawn|dusk\" \x7d\n"

/-- What the chandelier's text loads as. -/
def chandelier : Schema where
  modulePath := "home.Chandelier"
  props := [
    { apiName := "on", type := ⟨.boolean, false⟩, access := .readWrite, propName := some "on",
      integerAsBool := true },
    { apiName := "mode", type := ⟨.enumeration, false⟩, propName := some "ro.mode",
      enumValues := "steady|blink" },
    { apiName := "scenes", type := ⟨.enumeration, true⟩, propName := some "ro.scenes",
      enumValues := "dawn|dusk" }]

theorem load_chandelierText : Schema.load chandelierText = .ok chandelier := by
  decide +kernel

/-- The files of the chandelier, included under any name. -/
theorem chandelier_files_correspond :
    Schema.load chandelierText = .ok chandelier ∧
      ∀ includeName,
        (definitionsIn "home::Chandelier" (codeLines (chandelier.source includeName))).map (·.1) =
          ["std::optional<bool> on()", "bool on(const bool& value)",
            "std::optional<mode_values> mode()", "bool mode(const mode_values& value)",
            "std::optional<std::vector<scenes_values>> scenes()",
            "bool scenes(const std::vector<scenes_values>& value)"] ∧
        (tables (codeLines (chandelier.source includeName))).lookup "scenes_list" =
          some ⟨"scenes_values", [⟨"dawn", "dawn"⟩, ⟨"dusk", "dusk"⟩]⟩ := by
  refine ⟨load_chandelierText, fun includeName => ?_⟩
  have h := Schema.files_correspond load_chandelierText includeName
  refine ⟨(h.defined.trans h.declared).trans (by decide +kernel), ?_⟩
  have htable := h.tabled chandelier.props[2] (List.getElem_mem _)
  have hname : chandelier.props[2].tableName = "scenes_list" := by decide +kernel
  rw [hname, h.enumTypes] at htable
  exact htable.trans (by decide +kernel)

end PropSchema
