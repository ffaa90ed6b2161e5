/-
PropSchema.Proofs.Normalization — a schema and its normal form mean the same.

A schema is checked as it is declared, and used in normal form. That is sound
because nothing that reads a schema reads how a key is spelt: the rules, the
generated files and the accessors all go by the key itself, which normalization
keeps, also where it is the empty text. The deprecated scope is seen in the public
header only, where the normal form stands for it. None of this needs the schema to
be valid.

§1 Properties — what normalization does to one.
§2 Rules      — every violation is the same, in the same place.
§3 Files      — the generated files are the same.
§4 Notices    — one for each deprecated scope, and none the second time.
§5 Schemas    — `normalize_preserves`.
-/
import PropSchema.Accessor
import PropSchema.Proofs.Artifact.DigestInput

namespace PropSchema

/-! ## §1 Properties -/

namespace Property

/-- Whether a property is another one with its key written out and its scope not
deprecated: as it was where it did not have to change. -/
structure IsNormalFormOf (owner : Owner) (n p : Property) : Prop where
  apiName : n.apiName = p.apiName
  type : n.type = p.type
  access : n.access = p.access
  enumValues : n.enumValues = p.enumValues
  integerAsBool : n.integerAsBool = p.integerAsBool
  propName : n.propName = some (p.key owner)
  declared : ∀ name ≠ "", p.propName = some name → n.propName = p.propName
  scope : n.scope ≠ .system
  exported : n.scope = .exported ↔ p.scope = .exported ∨ p.scope = .system

theorem normalize_scope (owner : Owner) (p : Property) :
    (p.normalize owner).scope = p.scope.normalize :=
  rfl

theorem key_of_declared {owner : Owner} {p : Property} {name : String} (hne : name ≠ "")
    (h : p.propName = some name) : p.key owner = name := by
  simp [key, h, hne, Option.filter_some]

theorem isNormalFormOf_normalize (owner : Owner) (p : Property) :
    IsNormalFormOf owner (p.normalize owner) p where
  apiName := rfl
  type := rfl
  access := rfl
  enumValues := rfl
  integerAsBool := rfl
  propName := rfl
  declared name hne h := by
    rw [h, normalize, key_of_declared hne h]
  scope := by
    rw [normalize_scope]
    cases p.scope <;> decide
  exported := by
    rw [normalize_scope]
    cases p.scope <;> decide

/-- The accessors of a property do not depend on how its key and its scope are written. -/
theorem sameAccessors_normalize (owner : Owner) (p : Property) :
    (p.normalize owner).SameAccessors owner owner p where
  identifier := rfl
  descriptor := rfl
  key := p.key_normalize owner
  integerAsBool := rfl

end Property

/-! ## §2 Rules -/

/-- What is repeated in a list of images are the images of what is repeated. -/
theorem repeated_map {α β γ : Type} [DecidableEq γ] (label : β → γ) (f : α → β) (seen : List γ)
    (as : List α) :
    repeated label seen (as.map f) = (repeated (fun a => label (f a)) seen as).map f := by
  induction as generalizing seen with
  | nil => rfl
  | cons a as ih =>
    rw [List.map_cons, repeated, repeated, ih, ih]
    by_cases h : label (f a) ∈ seen
    · rw [if_pos h, if_pos h, List.map_cons]
    · rw [if_neg h, if_neg h]

theorem Property.violations_normalize (owner : Owner) (p : Property) :
    (p.normalize owner).violations owner = p.violations owner := by
  simp only [violations, key_normalize]
  rfl

namespace Schema

theorem identifierViolations_normalize (s : Schema) :
    s.normalize.identifierViolations = s.identifierViolations := by
  simp only [identifierViolations, normalize, repeated_map, List.map_map]
  rfl

/-- A schema and its normal form break the same rules, and in the same order. -/
theorem violations_normalize (s : Schema) : s.normalize.violations = s.violations := by
  have hpresence : s.normalize.presenceViolations = s.presenceViolations := by
    simp [presenceViolations, normalize]
  have hprops : s.normalize.props.flatMap (Property.violations s.owner) =
      s.props.flatMap (Property.violations s.owner) := by
    simp [normalize, List.flatMap_map, Property.violations_normalize]
  rw [violations, violations, hpresence, identifierViolations_normalize]
  exact congrArg (s.pathViolations ++ s.presenceViolations ++ · ++ s.identifierViolations) hprops

/-! ## §3 Files -/

theorem sameAccessors_normalize (s : Schema) :
    List.Forall₂ (Property.SameAccessors s.owner s.owner) s.normalize.props s.props := by
  rw [normalize, List.forall₂_map_left_iff, List.forall₂_same]
  exact fun p _ => p.sameAccessors_normalize s.owner

theorem artifacts_normalize (s : Schema) (includeName : String) :
    s.normalize.artifacts includeName = s.artifacts includeName := by
  have hpath : s.normalize.modulePath = s.modulePath := rfl
  have hsame := s.sameAccessors_normalize
  have hheader : s.normalize.header = s.header :=
    header_congr hpath (hsame.imp fun _ _ h => h.toSameDeclaration)
  have hsource : s.normalize.source includeName = s.source includeName :=
    source_congr hpath hsame includeName
  rw [artifacts, artifacts, hheader, hsource]

/-- The public header of a normal form declares what is not internal. -/
theorem publicHeader_normalize (s : Schema) :
    s.normalize.publicHeader = Artifact.render (s.headerLines
      (s.props.filter fun p => p.scope = .exported ∨ p.scope = .system)) := by
  have hscope : (fun p : Property => decide (p.scope = .exported)) ∘ Property.normalize s.owner =
      fun p => decide (p.scope = .exported ∨ p.scope = .system) := by
    funext p
    exact decide_eq_decide.2 (p.isNormalFormOf_normalize s.owner).exported
  have hprops : s.normalize.props.filter (fun p => decide (p.scope = .exported)) =
      (s.props.filter fun p => decide (p.scope = .exported ∨ p.scope = .system)).map
        (Property.normalize s.owner) := by
    rw [normalize, List.filter_map, hscope]
  rw [publicHeader, hprops, headerLines, headerLines, List.flatMap_map]
  rfl

theorem accessors_normalize (s : Schema) : s.normalize.accessors = s.accessors := by
  simp only [accessors, normalize, List.map_map]
  refine List.map_congr_left fun p _ => ?_
  simp only [Function.comp_apply, Accessor.ofProperty, Property.key_normalize]
  rfl

end Schema

/-! ## §4 Notices -/

/-- The notices about properties, in order: one about each in the deprecated scope, none
about the others. -/
inductive Notices : List Property → List Deprecation → Prop where
  | nil : Notices [] []
  | deprecated {p : Property} {ps : List Property} {ds : List Deprecation}
      (scope : p.scope = .system) (rest : Notices ps ds) : Notices (p :: ps) (⟨p.apiName⟩ :: ds)
  | other {p : Property} {ps : List Property} {ds : List Deprecation}
      (scope : p.scope ≠ .system) (rest : Notices ps ds) : Notices (p :: ps) ds

theorem Schema.notices_deprecations (s : Schema) : Notices s.props s.deprecations := by
  unfold deprecations
  induction s.props with
  | nil => exact .nil
  | cons p ps ih =>
    by_cases h : p.scope = .system
    · rw [List.filter_cons_of_pos (by simpa using h), List.map_cons]
      exact .deprecated h ih
    · rw [List.filter_cons_of_neg (by simpa using h)]
      exact .other h ih

theorem Schema.deprecations_normalize (s : Schema) : s.normalize.deprecations = [] := by
  have hnone : ∀ p ∈ s.normalize.props, p.scope ≠ .system := by
    intro p hp
    obtain ⟨q, _, rfl⟩ := List.mem_map.1 hp
    exact (q.isNormalFormOf_normalize s.owner).scope
  rw [deprecations, List.map_eq_nil_iff, List.filter_eq_nil_iff]
  simpa using hnone

/-! ## §5 Schemas -/

/-- **Normalization preserves meaning**, of valid schemas and of all others. Once is enough.
The verdict is the same, down to the rule that is broken, and so are the generated files and
the accessors. Each property, at its old place, is in normal form. There is one notice about
each deprecated scope, and a second pass has none. And the public header is the frame of the
schema around the declarations of the properties that were public or in the deprecated
scope. -/
theorem Schema.normalize_preserves (s : Schema) :
    s.normalize.normalize = s.normalize ∧
    s.normalize.verify = s.verify ∧
    (∀ includeName, s.normalize.artifacts includeName = s.artifacts includeName) ∧
    s.normalize.accessors = s.accessors ∧
    s.normalize.owner = s.owner ∧ s.normalize.modulePath = s.modulePath ∧
    List.Forall₂ (Property.IsNormalFormOf s.owner) s.normalize.props s.props ∧
    Notices s.props s.deprecations ∧ s.normalize.deprecations = [] ∧
    s.normalize.publicHeader = Artifact.render (s.headerLines
      (s.props.filter fun p => p.scope = .exported ∨ p.scope = .system)) := by
  have hverify : s.normalize.verify = s.verify := by
    rw [verify, verify, violations_normalize]
  have hprops : List.Forall₂ (Property.IsNormalFormOf s.owner) s.normalize.props s.props := by
    rw [normalize, List.forall₂_map_left_iff, List.forall₂_same]
    exact fun p _ => p.isNormalFormOf_normalize s.owner
  exact ⟨s.normalize_normalize, hverify, s.artifacts_normalize, s.accessors_normalize, rfl, rfl,
    hprops, s.notices_deprecations, s.deprecations_normalize, s.publicHeader_normalize⟩

end PropSchema
