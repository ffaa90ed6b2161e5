/-
PropSchema.Proofs.Value.Misuse — which values a setter refuses as misuse.

An encoder refuses just the values it has no text for. The encoder that goes by
the descriptor has one for the values that fit, whatever they are nested in. The
one for digits does not look at the descriptor: it takes any boolean and any list
of booleans, so that a property stored as digits takes a list where a single
boolean is declared and a single boolean where a list is.

§1 Refusals — `Accessor.encode_error_iff`.
§2 Setters  — `set_error_iff` for the accessors of a loaded schema, and a list that
   a property of single booleans takes.
-/
import PropSchema.Proofs.Schema.Loading
import PropSchema.Proofs.Value.RoundTrip
import Mathlib.Control.Monad.Basic

namespace PropSchema

/-! ## §1 Refusals -/

/-- Whether a value is a boolean or a list of booleans. -/
def Value.IsBooleans (value : Value) : Prop :=
  ∀ item ∈ value.elements, ∃ b, item = .bool b

theorem Descriptor.isBooleans_of_fits {d : Descriptor} (hkind : d.type.kind = .boolean)
    {value : Value} (hfit : d.Fits value) : value.IsBooleans := by
  intro item hitem
  unfold Fits at hfit
  split at hfit
  · obtain ⟨items, rfl, hitems⟩ := hfit
    exact eq_bool_of_fitsItem hkind (hitems item hitem)
  · obtain ⟨b, rfl⟩ := eq_bool_of_fitsItem hkind hfit
    exact ⟨b, List.mem_singleton.1 hitem⟩

/-- A value has no text just if it does not fit, and is not made of booleans that are
stored as digits. -/
theorem Accessor.encode_error_iff {a : Accessor} (ha : a.WellFormed) {value : Value} :
    (∃ misuse, a.encode value = .error misuse) ↔
      ¬ a.descriptor.Fits value ∧ ¬ (a.integerAsBool = true ∧ value.IsBooleans) := by
  rw [Except.exists_error_iff, encode]
  by_cases hdigits : a.integerAsBool = true
  · have hfits : a.descriptor.Fits value → value.IsBooleans :=
      Descriptor.isBooleans_of_fits (ha.digits hdigits)
    rw [if_pos hdigits, encodeAsDigits_isOk_iff]
    constructor
    · intro hnot
      exact ⟨fun hfit => hnot (hfits hfit), fun h => hnot h.2⟩
    · rintro ⟨_, hnot⟩ hbooleans
      exact hnot ⟨hdigits, hbooleans⟩
  · rw [if_neg hdigits, Descriptor.encode_isOk_iff]
    simp [hdigits]

theorem Accessor.set_error_iff_encode {a : Accessor} {store : Store} {value : Value} :
    (∃ misuse, a.set store value = .error misuse) ↔ ∃ misuse, a.encode value = .error misuse := by
  unfold set
  cases a.encode value <;> simp [Except.map]

/-! ## §2 Setters -/

/-- **What a setter refuses.** A setter of a loaded schema refuses a value as misuse, in
whatever store, just if the value does not fit its property; only where booleans are
stored as digits does it take, besides, a list of booleans for a single one and a single
boolean for a list of them. -/
theorem Schema.set_error_iff {text : String} {s : Schema} (hload : load text = .ok s)
    {a : Accessor} (ha : a ∈ s.accessors) (store : Store) (value : Value) :
    (∃ misuse, a.set store value = .error misuse) ↔
      ¬ a.descriptor.Fits value ∧ ¬ (a.integerAsBool = true ∧ value.IsBooleans) := by
  obtain ⟨p, hp, rfl⟩ := List.mem_map.1 ha
  have hvalid := (valid_of_load hload).props p hp
  exact Accessor.set_error_iff_encode.trans (Accessor.encode_error_iff hvalid.wellFormed)

/-- A schema of a switch, with a flag that is stored as a digit. -/
def switchText : String :=
  "module: \"home.Switch\"\n" ++
  "prop \x7b api_name: \"on\" type: Boolean access: ReadWrite integer_as_bool: true \x7d\n"

/-- What the switch's text loads as. -/
def switch : Schema where
  modulePath := "home.Switch"
  props := [
    { apiName := "on", access := .readWrite, propName := some "on", integerAsBool := true }]

/-- The accessor of the flag. -/
def switchOn : Accessor := ⟨"on", "on", ⟨⟨.boolean, false⟩, []⟩, true⟩

/-- The flag does not take a number, nor a list with a list in it. -/
theorem switch_refuses :
    Schema.load switchText = .ok switch ∧ switchOn ∈ switch.accessors ∧
      (∃ misuse, switchOn.set .empty (.int 1) = .error misuse) ∧
      ∃ misuse, switchOn.set .empty (.list [.bool true, .list [.bool true]]) = .error misuse := by
  have hload : Schema.load switchText = .ok switch := by decide +kernel
  have hmem : switchOn ∈ switch.accessors := by decide +kernel
  refine ⟨hload, hmem, ?_, ?_⟩
  · rw [Schema.set_error_iff hload hmem]
    simp [Descriptor.Fits, Descriptor.FitsItem, Value.IsBooleans, Value.elements, switchOn]
  · rw [Schema.set_error_iff hload hmem]
    simp [Descriptor.Fits, Descriptor.FitsItem, Value.IsBooleans, Value.elements, switchOn]

/-- The flag is a single boolean, and takes a list of two: what is stored then is no
text of a boolean, and nothing is read back. -/
theorem switch_takes_list :
    Schema.load switchText = .ok switch ∧ switchOn ∈ switch.accessors ∧
      ¬ switchOn.descriptor.Fits (.list [.bool true, .bool false]) ∧
      ∃ store, switchOn.set .empty (.list [.bool true, .bool false]) = .ok (some store) ∧
        store.entries = [("on", "1,0")] ∧ switchOn.get store = none := by
  refine ⟨by decide +kernel, by decide +kernel, ?_, Store.empty.put "on" "1,0", ?_, ?_, ?_⟩
  · simp [Descriptor.Fits, Descriptor.FitsItem, switchOn]
  · rfl
  · rfl
  · rfl

end PropSchema
