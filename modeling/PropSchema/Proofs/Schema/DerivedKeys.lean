/-
PropSchema.Proofs.Schema.DerivedKeys — derived keys never meet.

A derived key is put together from the access mode, the owner and the API name, and
that can be done in two ways: of the platform, `x` that is only read and `ro.x` that is
written again and again would both be stored under `ro.x`. A valid schema has no such
pair. Keys derived with the same opening are as different as their API names, and these
are different because their identifiers are; and where only one of two keys is opened by
`ro.`, the other one belongs to a property that must not be opened so.

§1 Keys    — the key of a property that declares none, by access mode.
§2 Schemas — `derivedKeys_ne`, and a schema with names that come close.
-/
import PropSchema.Proofs.Schema.Rules

namespace PropSchema

/-! ## §1 Keys -/

/-- Whether a property declares no key, or an empty one. -/
def Property.LacksKey (p : Property) : Prop :=
  p.propName = none ∨ p.propName = some ""

instance {p : Property} : Decidable p.LacksKey :=
  inferInstanceAs (Decidable (_ ∨ _))

theorem Property.key_of_lacksKey {p : Property} (h : p.LacksKey) (owner : Owner) :
    p.key owner = derivedKey owner p.access p.apiName := by
  rcases h with h | h <;> simp [key, h, Option.filter_some]

theorem derivedKey_readWrite (owner : Owner) (apiName : String) :
    derivedKey owner .readWrite apiName = owner.qualifier ++ apiName := by
  simp [derivedKey]

/-- Derived keys of properties that are not written again and again are opened by `ro.`,
before the owner's qualifier. -/
theorem derivedKey_of_ne_readWrite {access : Access} (h : access ≠ .readWrite) (owner : Owner)
    (apiName : String) :
    derivedKey owner access apiName = "ro." ++ (owner.qualifier ++ apiName) := by
  rw [derivedKey, if_neg h, String.append_assoc]

/-- One owner derives one key from two API names only if it derives it for two access
modes, of which just one is for writing again and again, and the key is opened by `ro.`. -/
theorem access_of_derivedKey_eq {owner : Owner} {a b : Access} {x y : String}
    (h : derivedKey owner a x = derivedKey owner b y) (hne : x ≠ y) :
    (a = .readWrite ↔ b ≠ .readWrite) ∧ ∃ rest, derivedKey owner a x = "ro." ++ rest := by
  by_cases ha : a = .readWrite <;> by_cases hb : b = .readWrite
  · rw [ha, hb, derivedKey_readWrite, derivedKey_readWrite, String.append_right_inj] at h
    exact absurd h hne
  · exact ⟨iff_of_true ha hb, _, h.trans (derivedKey_of_ne_readWrite hb owner y)⟩
  · exact ⟨iff_of_false ha (not_not_intro hb), _, derivedKey_of_ne_readWrite ha owner x⟩
  · rw [derivedKey_of_ne_readWrite ha, derivedKey_of_ne_readWrite hb, String.append_right_inj,
      String.append_right_inj] at h
    exact absurd h hne

example : derivedKey .platform .readonly "x" = derivedKey .platform .readWrite "ro.x" := by
  decide

/-! ## §2 Schemas -/

namespace Schema

/-- **Derived keys never meet.** In a schema that passes the rules, properties at two
places that declare no key, or an empty one, are stored under different keys. -/
theorem derivedKeys_ne {s : Schema} (h : s.verify = .ok ()) {i j : Nat}
    (hi : i < s.props.length) (hj : j < s.props.length) (hij : i ≠ j)
    (hlacks₁ : s.props[i].LacksKey) (hlacks₂ : s.props[j].LacksKey) :
    s.props[i].key s.owner ≠ s.props[j].key s.owner := by
  have hs := verify_eq_ok_iff_valid.1 h
  have hvalid₁ := hs.props _ (List.getElem_mem hi)
  have hvalid₂ := hs.props _ (List.getElem_mem hj)
  intro heq
  have hderived := heq
  rw [Property.key_of_lacksKey hlacks₁, Property.key_of_lacksKey hlacks₂] at hderived
  obtain ⟨haccess, rest, hrest⟩ := access_of_derivedKey_eq hderived (hs.apiName_ne hi hj hij)
  rw [← Property.key_of_lacksKey hlacks₁] at hrest
  by_cases ha : s.props[i].access = .readWrite
  · exact hvalid₁.rewritable ha ⟨rest, hrest⟩
  · have hb : s.props[j].access = .readWrite := by
      simpa using mt haccess.2 ha
    exact hvalid₂.rewritable hb ⟨rest, heq ▸ hrest⟩

end Schema

/-- A greenhouse of the vendor, in which one API name is another one with the qualifier
before it, and one is it with the opening of keys that are written once. -/
def greenhouse : Schema where
  owner := .vendor
  modulePath := "home.Greenhouse"
  props := [
    { apiName := "heat" },
    { apiName := "vendor.heat", access := .readWrite },
    { apiName := "ro.heat", access := .writeonce, propName := some "" }]

theorem greenhouse_keys_ne :
    greenhouse.verify = .ok () ∧ (∀ p ∈ greenhouse.props, p.LacksKey) ∧
      greenhouse.props[0].key .vendor ≠ greenhouse.props[1].key .vendor ∧
      greenhouse.props[0].key .vendor ≠ greenhouse.props[2].key .vendor := by
  have hverify : greenhouse.verify = .ok () := Schema.verify_eq_ok_iff.2 (by decide +kernel)
  have hlacks : ∀ p ∈ greenhouse.props, p.LacksKey := by decide
  refine ⟨hverify, hlacks, ?_, ?_⟩
  · exact Schema.derivedKeys_ne hverify (by decide) (by decide) (by decide)
      (hlacks _ (List.getElem_mem _)) (hlacks _ (List.getElem_mem _))
  · exact Schema.derivedKeys_ne hverify (by decide) (by decide) (by decide)
      (hlacks _ (List.getElem_mem _)) (hlacks _ (List.getElem_mem _))

end PropSchema
