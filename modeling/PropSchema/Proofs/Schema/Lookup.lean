/-
PropSchema.Proofs.Schema.Lookup — every declared property is found by its API name.

Properties and accessors are looked up apart from each other, each in its own list and by the
first that has the name. The two searches end at the same place, whatever the schema is, since the
accessors are made of the properties in order. In a loaded schema that place is the one of the
property that was asked for: two properties with one API name would have one identifier, and that
is against the rules.

§1 Places  — where a search for a name ends.
§2 Schemas — `properties_addressable`.
-/
import PropSchema.Accessor
import PropSchema.Proofs.Schema.Loading
import Mathlib.Control.Monad.Basic

namespace PropSchema

/-! ## §1 Places -/

/-- Where names differ, the search for the name of an element ends at that element. -/
theorem find?_getElem_of_pairwise {α β : Type} [DecidableEq β] {name : α → β} {as : List α}
    (h : as.Pairwise fun a b => name a ≠ name b) {i : Nat} (hi : i < as.length) :
    as.find? (fun a => name a = name as[i]) = some as[i] := by
  rw [List.find?_eq_some_iff_getElem]
  refine ⟨by simp, i, hi, rfl, fun j hj => ?_⟩
  have hne := List.pairwise_iff_getElem.1 h j i (by omega) hi hj
  simpa using hne

namespace Schema

/-- Whether a name is found at a place: a property has it there, and none before. -/
def IsFoundAt (s : Schema) (apiName : String) (i : Nat) : Prop :=
  ∃ hi : i < s.props.length, s.props[i].apiName = apiName ∧
    ∀ j (hj : j < i), s.props[j].apiName ≠ apiName

theorem property?_eq_some_iff {s : Schema} {apiName : String} {p : Property} :
    s.property? apiName = some p ↔ ∃ i, s.IsFoundAt apiName i ∧ s.props[i]? = some p := by
  rw [property?, List.find?_eq_some_iff_getElem]
  constructor
  · rintro ⟨hp, i, hi, rfl, hbefore⟩
    refine ⟨i, ⟨hi, by simpa using hp, fun j hj => by simpa using hbefore j hj⟩, by simp [hi]⟩
  · rintro ⟨i, ⟨hi, hname, hbefore⟩, hp⟩
    obtain ⟨_, rfl⟩ := List.getElem?_eq_some_iff.1 hp
    exact ⟨by simpa using hname, i, hi, rfl, fun j hj => by simpa using hbefore j hj⟩

/-- The accessor that is found is the one of the property that is found. -/
theorem accessor?_eq_map_property? (s : Schema) (apiName : String) :
    s.accessor? apiName = (s.property? apiName).map (Accessor.ofProperty s.owner) := by
  rw [accessor?, accessors, List.find?_map]
  rfl

/-- Both are found at one place, the first at which a property has the name. -/
theorem accessor?_of_property? {s : Schema} {apiName : String} {p : Property}
    (h : s.property? apiName = some p) :
    ∃ i, s.IsFoundAt apiName i ∧ s.props[i]? = some p ∧
      s.accessors[i]? = some (.ofProperty s.owner p) ∧
      s.accessor? apiName = some (.ofProperty s.owner p) := by
  obtain ⟨i, hplace, hp⟩ := property?_eq_some_iff.1 h
  refine ⟨i, hplace, hp, ?_, ?_⟩
  · rw [accessors, List.getElem?_map, hp]
    rfl
  · rw [accessor?_eq_map_property?, h]
    rfl

/-! ## §2 Schemas -/

/-- In a valid schema a property is found by its own name. -/
theorem Valid.property?_getElem {s : Schema} (hs : s.Valid) {i : Nat} (hi : i < s.props.length) :
    s.property? s.props[i].apiName = some s.props[i] :=
  find?_getElem_of_pairwise hs.apiNames hi

/-- In a loaded schema every key is written out. -/
theorem propName_of_load {text : String} {s : Schema} (h : load text = .ok s) {p : Property}
    (hp : p ∈ s.props) : p.propName = some (p.key s.owner) := by
  obtain ⟨d, _, _, rfl⟩ := load_eq_ok_iff.1 h
  obtain ⟨q, _, rfl⟩ := List.mem_map.1 hp
  exact congrArg some (q.key_normalize d.owner).symm

/-- **Every declared property is addressable.** A loaded schema has one accessor for each property,
in the same order, and no two of its properties have one API name. So by the API name of a property
just that property is found, and its accessor, which has its key and its descriptor. Whether a
schema is loaded or not, an accessor is found by a name just if a property is, and it is the
accessor of that property, at the first place that has the name. -/
theorem properties_addressable :
    (∀ text s, load text = .ok s →
      s.accessors.length = s.props.length ∧
      (∀ i j (hi : i < s.props.length) (hj : j < s.props.length), i ≠ j →
        s.props[i].apiName ≠ s.props[j].apiName) ∧
      ∀ i (hi : i < s.props.length), s.property? s.props[i].apiName = some s.props[i] ∧
        ∃ a, s.accessors[i]? = some a ∧ s.accessor? s.props[i].apiName = some a ∧
          a.apiName = s.props[i].apiName ∧ s.props[i].propName = some a.key ∧
          a.descriptor = s.props[i].descriptor) ∧
    ∀ (s : Schema) (apiName : String),
      ((∃ a, s.accessor? apiName = some a) ↔ ∃ p, s.property? apiName = some p) ∧
      ∀ p, s.property? apiName = some p →
        ∃ i, s.IsFoundAt apiName i ∧ s.props[i]? = some p ∧
          s.accessors[i]? = some (.ofProperty s.owner p) ∧
          s.accessor? apiName = some (.ofProperty s.owner p) := by
  refine ⟨?_, ?_⟩
  · intro text s hload
    have hs := valid_of_load hload
    refine ⟨by simp [accessors], fun i j hi hj hij => hs.apiName_ne hi hj hij, ?_⟩
    intro i hi
    have hfound := hs.property?_getElem hi
    refine ⟨hfound, .ofProperty s.owner s.props[i], by simp [accessors, hi], ?_, rfl, ?_, rfl⟩
    · rw [accessor?_eq_map_property?, hfound]
      rfl
    · exact propName_of_load hload (List.getElem_mem hi)
  · intro s apiName
    refine ⟨⟨?_, ?_⟩, fun p => accessor?_of_property?⟩
    · rintro ⟨a, ha⟩
      rw [accessor?_eq_map_property?] at ha
      obtain ⟨p, hp, _⟩ := Option.map_eq_some_iff.1 ha
      exact ⟨p, hp⟩
    · rintro ⟨p, hp⟩
      obtain ⟨_, _, _, _, hfound⟩ := accessor?_of_property? hp
      exact ⟨_, hfound⟩

end Schema

/-- A schema of an almanac, in which one API name goes on where another ends. -/
def almanacText : String :=
  "owner: Odm\nmodule: \"home.Almanac\"\n" ++
  "prop \x7b api_name: \"tide\" type: Integer access: ReadWrite \x7d\n" ++
  "prop \x7b api_name: \"tide.low\" type: DoubleList \x7d\n"

/-- What the almanac's text loads as. -/
def almanac : Schema where
  owner := .odm
  modulePath := "home.Almanac"
  props := [
    { apiName := "tide", type := ⟨.int32, false⟩, access := .readWrite,
      propName := some "odm.tide" },
    { apiName := "tide.low", type := ⟨.double, true⟩, propName := some "ro.odm.tide.low" }]

/-- The second property is found, and its accessor; by a name that no property has there is no
accessor. -/
theorem almanac_addressable :
    Schema.load almanacText = .ok almanac ∧
      almanac.property? "tide.low" = some almanac.props[1] ∧
      (∃ a, almanac.accessor? "tide.low" = some a ∧ a.key = "ro.odm.tide.low" ∧
        a.descriptor = ⟨⟨.double, true⟩, []⟩) ∧
      almanac.accessor? "tide.high" = none := by
  have hload : Schema.load almanacText = .ok almanac := by decide +kernel
  obtain ⟨hloaded, hany⟩ := Schema.properties_addressable
  obtain ⟨_, _, hplaces⟩ := hloaded almanacText almanac hload
  obtain ⟨hfound, a, _, haccessor, _, hkey, hdescriptor⟩ := hplaces 1 (by decide)
  have hother : almanac.property? "tide.high" = none := by decide +kernel
  refine ⟨hload, hfound, ⟨a, haccessor, (Option.some.inj hkey).symm, hdescriptor⟩, ?_⟩
  rw [Option.eq_none_iff_forall_ne_some]
  intro a ha
  obtain ⟨p, hp⟩ := (hany almanac "tide.high").1.1 ⟨a, ha⟩
  rw [hother] at hp
  nomatch hp

end PropSchema
