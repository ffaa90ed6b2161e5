/-
PropSchema.Proofs.Artifact.Names — when the names in generated code clash.

Of the names that generated code introduces, a schema is only checked for those of
its accessors. The others are made from these with a suffix, or are the same in
every file, so that a property can be called what the enum type of another one is
called, or its table, or a helper. Nothing else can clash:
`introducedNames_nodup_iff` says so for every schema that loads, and
`heater_names_clash` shows one where a function is called like an enum type.

§1 Names    — everything that generated code gives a name to.
§2 Suffixes — names made with a suffix are not the same by accident.
§3 Clashes  — `introducedNames_nodup_iff`.
-/
import PropSchema.Artifact.Basic
import PropSchema.Proofs.Schema.Loading
import Mathlib.Control.Monad.Basic

namespace PropSchema

/-! ## §1 Names -/

/-- The helpers in the fixed part of a source file. -/
def Artifact.helperNames : List String :=
  ["is_vector", "DoParse", "DoParseList", "TryParse", "FormatValue", "GetProp",
    "FormatIntegerAsBool"]

namespace Schema

/-- The properties that have an enum type. -/
def enumProps (s : Schema) : List Property :=
  s.props.filter fun p => p.type.isEnum

/-- The names of everything but accessors: the enum types, their tables, and the
helpers. -/
def supportNames (s : Schema) : List String :=
  s.enumProps.map Property.enumTypeName ++
    (s.enumProps.map Property.tableName ++ Artifact.helperNames)

/-- All names that generated code introduces. -/
def introducedNames (s : Schema) : List String :=
  s.props.map Property.identifier ++ s.supportNames

theorem mem_supportNames_iff {s : Schema} {name : String} :
    name ∈ s.supportNames ↔
      name ∈ Artifact.helperNames ∨
        ∃ q ∈ s.props, q.type.isEnum = true ∧ (name = q.enumTypeName ∨ name = q.tableName) := by
  simp only [supportNames, enumProps, List.mem_append, List.mem_map, List.mem_filter]
  constructor
  · rintro (⟨q, ⟨hq, henum⟩, rfl⟩ | ⟨q, ⟨hq, henum⟩, rfl⟩ | hhelper)
    · exact .inr ⟨q, hq, henum, .inl rfl⟩
    · exact .inr ⟨q, hq, henum, .inr rfl⟩
    · exact .inl hhelper
  · rintro (hhelper | ⟨q, hq, henum, rfl | rfl⟩)
    · exact .inr (.inr hhelper)
    · exact .inl ⟨q, ⟨hq, henum⟩, rfl⟩
    · exact .inr (.inl ⟨q, ⟨hq, henum⟩, rfl⟩)

end Schema

/-! ## §2 Suffixes -/

/-- One suffix keeps different identifiers different. -/
theorem nodup_map_suffix {props : List Property}
    (h : props.Pairwise fun p q => p.identifier ≠ q.identifier) (suffix : String) :
    (props.map fun p => p.identifier ++ suffix).Nodup :=
  List.pairwise_map.2 (h.imp fun hne heq => hne ((String.append_left_inj suffix).1 heq))

/-- An enum type is not called like a table: their names end differently. -/
theorem enumTypeName_ne_tableName (p q : Property) : p.enumTypeName ≠ q.tableName := by
  intro h
  have hlast := congrArg (fun name => name.toList.getLast?) h
  simp [Property.enumTypeName, Property.tableName] at hlast

theorem not_suffix_helperNames :
    ∀ name ∈ Artifact.helperNames,
      ¬ "_values".toList <:+ name.toList ∧ ¬ "_list".toList <:+ name.toList := by
  decide +kernel

theorem enumTypeName_not_mem_helperNames (p : Property) :
    p.enumTypeName ∉ Artifact.helperNames := by
  intro hmem
  refine (not_suffix_helperNames _ hmem).1 ?_
  simp [Property.enumTypeName]

theorem tableName_not_mem_helperNames (p : Property) : p.tableName ∉ Artifact.helperNames := by
  intro hmem
  refine (not_suffix_helperNames _ hmem).2 ?_
  simp [Property.tableName]

/-! ## §3 Clashes -/

namespace Schema

/-- Enum types, tables and helpers have names of their own. -/
theorem supportNames_nodup {s : Schema} (hs : s.Valid) : s.supportNames.Nodup := by
  have hprops : s.enumProps.Pairwise fun p q => p.identifier ≠ q.identifier :=
    hs.identifiers.filter _
  have htables : (s.enumProps.map Property.tableName ++ Artifact.helperNames).Nodup := by
    refine List.nodup_append.2 ⟨nodup_map_suffix hprops "_list", by decide +kernel, ?_⟩
    rintro name hname helper hhelper rfl
    obtain ⟨q, _, rfl⟩ := List.mem_map.1 hname
    exact tableName_not_mem_helperNames q hhelper
  refine List.nodup_append.2 ⟨nodup_map_suffix hprops "_values", htables, ?_⟩
  rintro name hname other hother rfl
  obtain ⟨p, _, rfl⟩ := List.mem_map.1 hname
  rcases List.mem_append.1 hother with htable | hhelper
  · obtain ⟨q, _, hq⟩ := List.mem_map.1 htable
    exact enumTypeName_ne_tableName p q hq.symm
  · exact enumTypeName_not_mem_helperNames p hhelper

/-- **When names clash.** The names that the code generated from a loaded schema introduces
are pairwise different just if no property has the identifier of a helper, of the enum type
of a property, or of its table. -/
theorem introducedNames_nodup_iff {text : String} {s : Schema} (h : load text = .ok s) :
    s.introducedNames.Nodup ↔
      ∀ p ∈ s.props, p.identifier ∉ Artifact.helperNames ∧
        ∀ q ∈ s.props, q.type.isEnum = true →
          p.identifier ≠ q.enumTypeName ∧ p.identifier ≠ q.tableName := by
  have hs := valid_of_load h
  have happart : s.introducedNames.Nodup ↔ ∀ p ∈ s.props, p.identifier ∉ s.supportNames := by
    rw [introducedNames, List.nodup_append]
    constructor
    · rintro ⟨_, _, hne⟩ p hp hmem
      exact hne _ (List.mem_map_of_mem hp) _ hmem rfl
    · intro hnot
      refine ⟨List.pairwise_map.2 hs.identifiers, supportNames_nodup hs, ?_⟩
      rintro name hname other hother rfl
      obtain ⟨p, hp, rfl⟩ := List.mem_map.1 hname
      exact hnot p hp hother
  rw [happart]
  refine forall₂_congr fun p hp => ?_
  rw [mem_supportNames_iff]
  constructor
  · intro hnot
    refine ⟨fun hhelper => hnot (.inl hhelper), fun q hq henum => ⟨fun heq => ?_, fun heq => ?_⟩⟩
    · exact hnot (.inr ⟨q, hq, henum, .inl heq⟩)
    · exact hnot (.inr ⟨q, hq, henum, .inr heq⟩)
  · rintro ⟨hhelper, hapart⟩ (hmem | ⟨q, hq, henum, heq | heq⟩)
    · exact hhelper hmem
    · exact (hapart q hq henum).1 heq
    · exact (hapart q hq henum).2 heq

end Schema

/-- A heater with a mode and a second property. -/
def heaterText (apiName : String) : String :=
  "module: \"home.Heater\"\n" ++
  "prop \x7b api_name: \"mode\" type: Enum enum_values: \"off|low|high\" \x7d\n" ++
  "prop \x7b api_name: \"" ++ apiName ++ "\" type: Integer access: ReadWrite \x7d\n"

/-- What such a text loads as. -/
def heater (apiName : String) : Schema where
  modulePath := "home.Heater"
  props := [
    { apiName := "mode", type := ⟨.enumeration, false⟩, propName := some "ro.mode",
      enumValues := "off|low|high" },
    { apiName := apiName, type := ⟨.int32, false⟩, access := .readWrite, propName := some apiName }]

/-- Names that come close to each other and still differ. -/
theorem heater_names_differ :
    Schema.load (heaterText "mode.value") = .ok (heater "mode.value") ∧
      (heater "mode.value").introducedNames.Nodup := by
  have hload : Schema.load (heaterText "mode.value") = .ok (heater "mode.value") := by
    decide +kernel
  refine ⟨hload, (Schema.introducedNames_nodup_iff hload).2 ?_⟩
  decide +kernel

/-- With another name the schema still loads, and its header declares a function that is
called like an enum type before it. -/
theorem heater_names_clash :
    Schema.load (heaterText "mode.values") = .ok (heater "mode.values") ∧
      ¬ (heater "mode.values").introducedNames.Nodup ∧
      ["enum class mode_values \x7b", "std::optional<std::int32_t> mode_values();"].Sublist
        ((heater "mode.values").headerLines (heater "mode.values").props) := by
  decide +kernel

end PropSchema
