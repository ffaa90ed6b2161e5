/-
PropSchema.Proofs.Schema.Loading — what is known of a schema that was loaded.

A text loads if it declares a schema that keeps all rules, and what it loads is
the normal form of that schema. No rule looks at what normalization changes, so
the loaded schema keeps all rules as well.
-/
import PropSchema.Proofs.Schema.Rules
import PropSchema.Schema.Load

namespace PropSchema

/-- The rules do not depend on how the key and the scope are written. -/
theorem Property.valid_normalize_iff {owner : Owner} {p : Property} :
    (p.normalize owner).Valid owner ↔ p.Valid owner := by
  have hkey := p.key_normalize owner
  constructor
  · rintro ⟨hname, hsymbols, hk, hfamily, hrw, hdigits⟩
    rw [hkey] at hk hfamily hrw
    exact ⟨hname, hsymbols, hk, hfamily, hrw, hdigits⟩
  · rintro ⟨hname, hsymbols, hk, hfamily, hrw, hdigits⟩
    refine ⟨hname, hsymbols, ?_, ?_, ?_, hdigits⟩
    · rwa [hkey]
    · rwa [hkey]
    · rw [hkey]
      exact hrw

namespace Schema

theorem valid_normalize_iff {s : Schema} : s.normalize.Valid ↔ s.Valid := by
  have hprops : (∀ p ∈ s.normalize.props, p.Valid s.owner) ↔ ∀ p ∈ s.props, p.Valid s.owner := by
    simp [normalize, Property.valid_normalize_iff]
  have hident : s.normalize.props.Pairwise (fun p q => p.identifier ≠ q.identifier) ↔
      s.props.Pairwise fun p q => p.identifier ≠ q.identifier :=
    List.pairwise_map
  have hne : s.normalize.props ≠ [] ↔ s.props ≠ [] := by
    simp [normalize]
  constructor
  · rintro ⟨path, presence, props, identifiers⟩
    exact ⟨path, hne.1 presence, hprops.1 props, hident.1 identifiers⟩
  · rintro ⟨path, presence, props, identifiers⟩
    exact ⟨path, hne.2 presence, hprops.2 props, hident.2 identifiers⟩

theorem declared_eq_ok_iff {text : String} {s : Schema} :
    declared text = .ok s ↔ ofText text = .ok s ∧ s.Valid := by
  unfold declared
  cases hparse : ofText text with
  | error e => simp
  | ok d =>
    cases hverify : d.verify with
    | error v =>
      have hd : ¬ d.Valid := fun hvalid => by
        rw [verify_eq_ok_iff_valid.2 hvalid] at hverify
        simp at hverify
      simp only [hverify, reduceCtorEq, Except.ok.injEq, false_iff, not_and]
      rintro rfl
      exact hd
    | ok u =>
      have hd : d.Valid := verify_eq_ok_iff_valid.1 hverify
      simp only [hverify, Except.ok.injEq]
      exact ⟨fun h => ⟨h, h ▸ hd⟩, fun h => h.1⟩

/-- A text loads as the normal form of the schema it declares, if that is valid. -/
theorem load_eq_ok_iff {text : String} {s : Schema} :
    load text = .ok s ↔ ∃ d, ofText text = .ok d ∧ d.Valid ∧ s = d.normalize := by
  unfold load
  constructor
  · intro h
    cases hd : declared text with
    | error e => simp [hd, Except.map] at h
    | ok d =>
      obtain ⟨hparse, hvalid⟩ := declared_eq_ok_iff.1 hd
      refine ⟨d, hparse, hvalid, ?_⟩
      simpa [hd, Except.map, eq_comm] using h
  · rintro ⟨d, hparse, hvalid, rfl⟩
    rw [declared_eq_ok_iff.2 ⟨hparse, hvalid⟩]
    rfl

theorem valid_of_load {text : String} {s : Schema} (h : load text = .ok s) : s.Valid := by
  obtain ⟨d, _, hvalid, rfl⟩ := load_eq_ok_iff.1 h
  exact valid_normalize_iff.2 hvalid

end Schema

end PropSchema
