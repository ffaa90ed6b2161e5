/-
PropSchema.Schema.Normal — normal schemas: every key is written out, and the
deprecated scope does not occur.

Normalization changes the two fields that have more than one way of saying the
same thing, and nothing else; `normalize_normalize` says that once is enough.
Each property in the deprecated scope is reported, in declaration order.
-/
import PropSchema.Schema.Name

namespace PropSchema

/-- The notice that a property is declared in the deprecated scope. -/
structure Deprecation where
  apiName : String
  deriving DecidableEq, Repr

/-- The wording of a notice. -/
def Deprecation.message (d : Deprecation) : String :=
  "Sysprop API " ++ d.apiName ++
    ": System scope is deprecated. Please use Public scope instead."

/-- The scope that a scope means. -/
def Scope.normalize : Scope → Scope
  | .exported => .exported
  | .system => .exported
  | .internal => .internal

/-- A property with its key written out and its scope normal. -/
def Property.normalize (owner : Owner) (p : Property) : Property :=
  { p with propName := some (p.key owner), scope := p.scope.normalize }

namespace Schema

/-- A schema with all its properties normal. -/
def normalize (s : Schema) : Schema :=
  { s with props := s.props.map (Property.normalize s.owner) }

/-- The notices about a schema as it is declared. -/
def deprecations (s : Schema) : List Deprecation :=
  (s.props.filter fun p => p.scope = .system).map fun p => ⟨p.apiName⟩

end Schema

/-! ## Laws -/

theorem Scope.normalize_normalize (s : Scope) : s.normalize.normalize = s.normalize := by
  cases s <;> rfl

theorem Property.key_normalize (owner : Owner) (p : Property) :
    (p.normalize owner).key owner = p.key owner := by
  by_cases h : p.key owner = ""
  · have hd : derivedKey owner p.access p.apiName = "" := by
      cases hp : p.propName with
      | none => simpa [key, hp] using h
      | some name =>
        by_cases hn : name = ""
        · simpa [key, hp, hn, Option.filter_some] using h
        · simp [key, hp, hn, Option.filter_some] at h
    rw [h, normalize, key]
    simp [h, hd, Option.filter_some]
  · rw [normalize]
    generalize p.key owner = k at h
    simp [key, h, Option.filter_some]

theorem Property.normalize_normalize (owner : Owner) (p : Property) :
    (p.normalize owner).normalize owner = p.normalize owner := by
  have h := p.key_normalize owner
  rw [normalize, h]
  simp [normalize, Scope.normalize_normalize]

/-- Normalizing twice is normalizing once. -/
theorem Schema.normalize_normalize (s : Schema) : s.normalize.normalize = s.normalize := by
  simp [normalize, Property.normalize_normalize]

end PropSchema
