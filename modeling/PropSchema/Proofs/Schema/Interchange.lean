/-
PropSchema.Proofs.Schema.Interchange — a schema is read back from its JSON.

A property has three fields that its JSON need not have, and writing leaves out two of them: a
key that is absent, and an enumeration without text. Each is matched by what reading takes a
missing member for. A key that is present is written also if it is empty, so that an absent key
and an empty one, which mean the same, are still told apart.

§1 Members — the members of an object, and the value of each.
§2 Objects — properties and schemas as JSON values.
§3 Texts   — `json_reads_back`, for both writers and whatever blanks stand around the text.
-/
import PropSchema.Proofs.Json.Spelling
import PropSchema.Schema.Json
import Mathlib.Control.Monad.Basic

namespace PropSchema

/-! ## §1 Members -/

/-- Names that are written are read. -/
theorem Json.members?_ofMembers (members : List (String × Json)) :
    (ofMembers members).members? = some members := by
  have hmember : ((fun (m : List Char × Json) =>
      (unescape? m.1).map fun name => (String.ofList name, m.2)) ∘
        fun (m : String × Json) => (escape m.1.toList, m.2)) = fun m => pure m := by
    funext m
    simp [unescape?_escape]
  rw [ofMembers, members?, List.mapM_map, hmember, List.mapM_pure, List.map_id']
  rfl

theorem Vocabulary.ofJson?_toJson {α : Type} [Vocabulary α] {c : α}
    (h : ofName? (name c) = some c) : ofJson? (toJson c) = some c := by
  rw [ofJson?, toJson, Json.text?_ofText, Option.bind_some, h]

theorem optionalText?_ofText (s : String) : optionalText? (.ofText s) = some (some s) := by
  have h := Json.text?_ofText s
  simp only [Json.ofText] at h ⊢
  simp [optionalText?, h]

/-! ## §2 Objects -/

namespace Property

/-- The names of the members that are written. -/
def jsonNames (p : Property) : List String :=
  p.jsonMembers.map Prod.fst

/-- A key is written just if it is present, whether empty or not. -/
theorem prop_name_mem_jsonNames_iff {p : Property} :
    "prop_name" ∈ p.jsonNames ↔ p.propName ≠ none := by
  cases h : p.propName <;> by_cases he : p.enumValues = "" <;>
    simp [jsonNames, jsonMembers, h, he]

/-- The symbols are written just if there is some text of them. -/
theorem enum_values_mem_jsonNames_iff {p : Property} :
    "enum_values" ∈ p.jsonNames ↔ p.enumValues ≠ "" := by
  cases h : p.propName <;> by_cases he : p.enumValues = "" <;>
    simp [jsonNames, jsonMembers, h, he]

theorem ofJson?_toJson (p : Property) : ofJson? p.toJson = some p := by
  have htype := Vocabulary.ofJson?_toJson p.type.ofName?_name
  have haccess := Vocabulary.ofJson?_toJson p.access.ofName?_name
  have hscope := Vocabulary.ofJson?_toJson p.scope.ofName?_name
  rw [ofJson?, toJson, Json.members?_ofMembers]
  cases h : p.propName <;> by_cases he : p.enumValues = "" <;>
    simp [jsonMembers, requiredMember?, memberOr?, uniqueMember?, h, he, htype, haccess, hscope,
      Json.text?_ofText, optionalText?_ofText, Json.bool?, Property.ext_iff]

theorem legible_toJson (p : Property) : p.toJson.Legible := by
  have htext := Json.legible_ofText
  refine Json.legible_ofMembers ?_
  cases h : p.propName <;> by_cases he : p.enumValues = "" <;>
    simp [jsonMembers, Vocabulary.toJson, h, he, htext, Json.legible_bool]

end Property

namespace Schema

theorem ofJson?_toJson (s : Schema) : ofJson? s.toJson = some s := by
  have howner := Vocabulary.ofJson?_toJson s.owner.ofName?_name
  have hprops : (s.props.map Property.toJson).mapM Property.ofJson? = some s.props := by
    have hprop : Property.ofJson? ∘ Property.toJson = fun p => pure p :=
      funext Property.ofJson?_toJson
    rw [List.mapM_map, hprop, List.mapM_pure, List.map_id']
    rfl
  rw [ofJson?, toJson, Json.members?_ofMembers]
  simp [requiredMember?, uniqueMember?, howner, Json.text?_ofText, Json.items?, hprops]

theorem legible_toJson (s : Schema) : s.toJson.Legible := by
  refine Json.legible_ofMembers ?_
  simp only [List.forall_mem_cons]
  refine ⟨Json.legible_ofText _, Json.legible_ofText _, Json.legible_array ?_, by simp⟩
  rw [List.forall_mem_map]
  exact fun p _ => p.legible_toJson

/-! ## §3 Texts -/

/-- A schema is read back from any text of its JSON. -/
theorem ofJson?_of_spells {s : Schema} {text before after : String}
    (h : Json.Spells s.toJson text.toList) (hbefore : Json.IsBlank before.toList)
    (hafter : Json.IsBlank after.toList) :
    (Json.parse? (before ++ text ++ after)).bind ofJson? = some s := by
  rw [Json.parse?, String.toList_append, String.toList_append,
    Json.ofChars?_of_spells h hbefore hafter, Option.bind_some, ofJson?_toJson]

theorem spells_line (s : Schema) : Json.Spells s.toJson s.toJson.line.toList := by
  rw [Json.line, String.toList_ofList]
  exact s.legible_toJson.1

theorem spells_pretty (s : Schema) : Json.Spells s.toJson s.toJson.pretty.toList := by
  rw [Json.pretty, String.toList_ofList]
  exact s.legible_toJson.2 0

/-- Schemas with a text in common are the same. -/
theorem eq_of_spells {s t : Schema} {text : String} (hs : Json.Spells s.toJson text.toList)
    (ht : Json.Spells t.toJson text.toList) : s = t := by
  have hblank : Json.IsBlank "".toList := Json.isBlank_nil
  have hread := ofJson?_of_spells hs hblank hblank
  rw [ofJson?_of_spells ht hblank hblank] at hread
  exact (Option.some.inj hread).symm

/-- **A schema is read back from its JSON**, written on one line or over several, with any
blanks before and behind the text. A property's key is written just if it is present, and its
symbols just if there is some text of them; all the same, schemas that differ, be it in whether
a key is absent or empty, are written differently. -/
theorem json_reads_back (s : Schema) {before after : String}
    (hbefore : ∀ c ∈ before.toList, Json.isSpace c = true)
    (hafter : ∀ c ∈ after.toList, Json.isSpace c = true) :
    (Json.parse? (before ++ s.toJson.line ++ after)).bind ofJson? = some s ∧
      (Json.parse? (before ++ s.toJson.pretty ++ after)).bind ofJson? = some s ∧
      (∀ p ∈ s.props, ("prop_name" ∈ p.jsonNames ↔ p.propName ≠ none) ∧
        ("enum_values" ∈ p.jsonNames ↔ p.enumValues ≠ "")) ∧
      ∀ t : Schema, t ≠ s → t.toJson.line ≠ s.toJson.line ∧ t.toJson.pretty ≠ s.toJson.pretty := by
  refine ⟨ofJson?_of_spells s.spells_line hbefore hafter,
    ofJson?_of_spells s.spells_pretty hbefore hafter,
    fun p _ => ⟨p.prop_name_mem_jsonNames_iff, p.enum_values_mem_jsonNames_iff⟩,
    fun t hne => ⟨fun heq => hne ?_, fun heq => hne ?_⟩⟩
  · have ht := t.spells_line
    rw [heq] at ht
    exact eq_of_spells ht s.spells_line
  · have ht := t.spells_pretty
    rw [heq] at ht
    exact eq_of_spells ht s.spells_pretty

end Schema

/-- A schema of a letterbox as nobody would write it: with quotes, a backslash, a line feed and
a null in its texts, and with a property whose key may be absent. -/
def letterbox (flapKey : Option String) : Schema where
  owner := .vendor
  modulePath := "home.\"Letter\\box\""
  props := [
    { apiName := "flap\n\u0000", propName := flapKey },
    { apiName := "", propName := some "vendor.\t", integerAsBool := true, scope := .system },
    { apiName := "flap", type := ⟨.enumeration, true⟩, enumValues := "öffen|" }]

/-- It is read back with blanks around it, and written differently if the key is empty instead
of absent. -/
theorem letterbox_reads_back :
    (∀ c ∈ " \n".toList, Json.isSpace c = true) ∧ (∀ c ∈ "\t".toList, Json.isSpace c = true) ∧
      (Json.parse? (" \n" ++ (letterbox none).toJson.line ++ "\t")).bind Schema.ofJson? =
        some (letterbox none) ∧
      (Json.parse? (" \n" ++ (letterbox none).toJson.pretty ++ "\t")).bind Schema.ofJson? =
        some (letterbox none) ∧
      (letterbox (some "")).toJson.line ≠ (letterbox none).toJson.line := by
  have hbefore : ∀ c ∈ " \n".toList, Json.isSpace c = true := by simp [Json.isSpace]
  have hafter : ∀ c ∈ "\t".toList, Json.isSpace c = true := by simp [Json.isSpace]
  obtain ⟨hline, hpretty, _, hdiffer⟩ := (letterbox none).json_reads_back hbefore hafter
  exact ⟨hbefore, hafter, hline, hpretty, (hdiffer (letterbox (some "")) (by decide)).1⟩

end PropSchema
