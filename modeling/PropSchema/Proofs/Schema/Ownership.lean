/-
PropSchema.Proofs.Schema.Ownership — owners keep to keys of their own.

Schemas are checked one at a time, and yet no two owners can come to use the same
key, whichever schemas they are given: the platform stays out of both families,
and the families of vendor and odm have no key in common but those for hardware,
which they are meant to share. The families are given by how their keys open, so
it is enough that of two openings neither goes on after the other.

§1 Openings — texts that open differently.
§2 Families — what the families of vendor and odm have in common.
§3 Schemas  — `keys_isolated`, for the properties of any two loaded schemas.
-/
import PropSchema.Proofs.Schema.Loading
import Mathlib.Control.Monad.Basic

namespace PropSchema

/-! ## §1 Openings -/

/-- Whether no text goes on after both of two openings. -/
def OpenApart (a b : String) : Prop :=
  ¬ a.toList <+: b.toList ∧ ¬ b.toList <+: a.toList

instance {a b : String} : Decidable (OpenApart a b) :=
  inferInstanceAs (Decidable (_ ∧ _))

theorem OpenApart.append_ne {a b : String} (h : OpenApart a b) (x y : String) :
    a ++ x ≠ b ++ y := by
  intro heq
  have ha : a.toList <+: (a ++ x).toList := by simp
  have hb : b.toList <+: (a ++ x).toList := by simp [heq]
  rcases List.prefix_or_prefix_of_prefix ha hb with hab | hba
  · exact h.1 hab
  · exact h.2 hba

/-! ## §2 Families -/

/-- Whether a key is one for hardware. -/
def IsHardwareKey (key : String) : Prop :=
  ∃ rest, rest ≠ "" ∧ key = "ro.hardware." ++ rest

theorem inFamily_iff_opening {partition key : String} :
    InFamily partition key ↔
      ∃ opening ∈ familyOpenings partition, ∃ rest, rest ≠ "" ∧ key = opening ++ rest := by
  simp only [← inFamily_iff, inFamily, List.any_eq_true, goesOnAfter_iff]

/-- No key opens like one of the vendor and like one of the odm, unless it is one for
hardware. -/
theorem familyOpenings_apart :
    ∀ a ∈ familyOpenings "vendor", ∀ b ∈ familyOpenings "odm",
      a = "ro.hardware." ∨ OpenApart a b := by
  decide +kernel

/-- Vendor and odm have the keys for hardware in common, and no others. -/
theorem inFamily_both_iff {key : String} :
    InFamily "vendor" key ∧ InFamily "odm" key ↔ IsHardwareKey key := by
  constructor
  · rintro ⟨hvendor, hodm⟩
    obtain ⟨a, ha, x, hne, hx⟩ := inFamily_iff_opening.1 hvendor
    obtain ⟨b, hb, y, _, hy⟩ := inFamily_iff_opening.1 hodm
    rcases familyOpenings_apart a ha b hb with rfl | hapart
    · exact ⟨x, hne, hx⟩
    · exact absurd (hx.symm.trans hy) (hapart.append_ne x y)
  · intro h
    exact ⟨.inr h, .inr h⟩

/-- What the platform may use, no partition may. -/
theorem Owner.Admits.not_partition {key : String} (h : Owner.platform.Admits key) {owner : Owner}
    (hpartition : owner ≠ .platform) : ¬ owner.Admits key := by
  cases owner with
  | platform => exact absurd rfl hpartition
  | vendor => exact h.1
  | odm => exact h.2

/-! ## §3 Schemas -/

theorem Schema.admits_key_of_load {text : String} {s : Schema} (h : load text = .ok s)
    {p : Property} (hp : p ∈ s.props) : s.owner.Admits (p.key s.owner) :=
  ((valid_of_load h).props p hp).family

/-- **Owners are isolated.** For any two texts that load, no property of the platform has
the key of a property of a partition, and a property of the vendor has the key of one of
the odm only if that is a key for hardware. -/
theorem Schema.keys_isolated {t₁ t₂ : String} {s₁ s₂ : Schema} (h₁ : load t₁ = .ok s₁)
    (h₂ : load t₂ = .ok s₂) {p₁ p₂ : Property} (hp₁ : p₁ ∈ s₁.props) (hp₂ : p₂ ∈ s₂.props) :
    (s₁.owner = .platform → s₂.owner ≠ .platform → p₁.key s₁.owner ≠ p₂.key s₂.owner) ∧
    (s₁.owner = .vendor → s₂.owner = .odm → p₁.key s₁.owner = p₂.key s₂.owner →
      IsHardwareKey (p₁.key s₁.owner) ∧ IsHardwareKey (p₂.key s₂.owner)) := by
  have hadmits₁ := admits_key_of_load h₁ hp₁
  have hadmits₂ := admits_key_of_load h₂ hp₂
  constructor
  · intro hplatform hpartition hkey
    rw [hplatform] at hadmits₁
    rw [hplatform] at hkey
    exact hadmits₁.not_partition hpartition (hkey ▸ hadmits₂)
  · intro hvendor hodm hkey
    rw [hvendor] at hadmits₁ hkey ⊢
    rw [hodm] at hadmits₂ hkey ⊢
    have hhardware := inFamily_both_iff.1 ⟨hadmits₁, hkey ▸ hadmits₂⟩
    exact ⟨hhardware, hkey ▸ hhardware⟩

/-- A lantern, declared by some owner under some key. -/
def lanternText (owner key : String) : String :=
  "owner: " ++ owner ++ "\nmodule: \"home.Lantern\"\nprop \x7b api_name: \"glow\" prop_name: \"" ++
    key ++ "\" \x7d\n"

/-- What such a text loads as. -/
def lantern (owner : Owner) (key : String) : Schema where
  owner := owner
  modulePath := "home.Lantern"
  props := [{ apiName := "glow", propName := some key }]

/-- Vendor and odm share a key for hardware, and the platform comes as near to it as it
can. -/
theorem lanterns_isolated :
    Schema.load (lanternText "Platform" "ro.hardware.") = .ok (lantern .platform "ro.hardware.") ∧
    Schema.load (lanternText "Vendor" "ro.hardware.g") = .ok (lantern .vendor "ro.hardware.g") ∧
    Schema.load (lanternText "Odm" "ro.hardware.g") = .ok (lantern .odm "ro.hardware.g") ∧
    (∀ p₁ ∈ (lantern .platform "ro.hardware.").props, ∀ p₂ ∈ (lantern .odm "ro.hardware.g").props,
      p₁.key .platform ≠ p₂.key .odm) ∧
    (∀ p₁ ∈ (lantern .vendor "ro.hardware.g").props, ∀ p₂ ∈ (lantern .odm "ro.hardware.g").props,
      p₁.key .vendor = p₂.key .odm ∧ IsHardwareKey (p₂.key .odm)) := by
  have hplatform : Schema.load (lanternText "Platform" "ro.hardware.") =
      .ok (lantern .platform "ro.hardware.") := by decide +kernel
  have hvendor : Schema.load (lanternText "Vendor" "ro.hardware.g") =
      .ok (lantern .vendor "ro.hardware.g") := by decide +kernel
  have hodm : Schema.load (lanternText "Odm" "ro.hardware.g") =
      .ok (lantern .odm "ro.hardware.g") := by decide +kernel
  refine ⟨hplatform, hvendor, hodm, ?_, ?_⟩
  · intro p₁ hp₁ p₂ hp₂
    exact (Schema.keys_isolated hplatform hodm hp₁ hp₂).1 rfl (by decide)
  · intro p₁ hp₁ p₂ hp₂
    have hshared : p₁.key .vendor = p₂.key .odm := by
      rw [List.mem_singleton.1 hp₁, List.mem_singleton.1 hp₂]
      decide +kernel
    exact ⟨hshared, ((Schema.keys_isolated hvendor hodm hp₁ hp₂).2 rfl rfl hshared).2⟩

end PropSchema
