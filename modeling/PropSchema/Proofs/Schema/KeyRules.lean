/-
PropSchema.Proofs.Schema.KeyRules — derived keys keep the rules for keys.

Keys are derived without a look at the rules, and the rules are checked without a look at where a
key comes from. For the partitions the two agree whatever the API name is, also if it has a
qualifier or the opening of a hardware key of its own: what stands before the API name decides the
family, and no derived key is opened by `ro.` where that is forbidden. For the platform nothing
stands before it but `ro.`, so that the API name may make a key that the platform may not have.
In either case no other rules can be broken than those that are not about keys.

§1 Names    — a derived key is a name.
§2 Families — a partition's derived key is its own.
§3 Rules    — `Suits`, and what is left to be broken where a key suits its owner.
§4 Keys     — `derivedKey_keeps_rules`.
-/
import PropSchema.Proofs.Schema.DerivedKeys
import PropSchema.Proofs.Schema.Ownership

namespace PropSchema

/-! ## §1 Names -/

/-- A name stays one if characters of names are put before it. -/
theorem IsDottedName.append {opening name : String} (h : IsDottedName name)
    (hopening : opening.toList.all Text.isKeyChar = true) : IsDottedName (opening ++ name) := by
  refine ⟨?_, ?_⟩
  · intro hempty
    exact h.1 (String.append_eq_empty_iff.1 hempty).2
  · intro c hc
    rw [String.toList_append, List.mem_append] at hc
    rcases hc with hc | hc
    · exact isKeyChar_iff.1 (List.all_eq_true.1 hopening c hc)
    · exact h.2 c hc

theorem isDottedName_derivedKey {apiName : String} (h : IsDottedName apiName) (owner : Owner)
    (access : Access) : IsDottedName (derivedKey owner access apiName) := by
  have hqualified : IsDottedName (owner.qualifier ++ apiName) := by
    refine h.append ?_
    cases owner <;> decide
  by_cases haccess : access = .readWrite
  · rw [haccess, derivedKey_readWrite]
    exact hqualified
  · rw [derivedKey_of_ne_readWrite haccess]
    exact hqualified.append (by decide)

/-! ## §2 Families -/

/-- A partition's derived key opens its family, with the API name behind. -/
theorem admits_derivedKey {owner : Owner} (howner : owner ≠ .platform) {apiName : String}
    (h : apiName ≠ "") (access : Access) : owner.Admits (derivedKey owner access apiName) := by
  by_cases haccess : access = .readWrite
  · rw [haccess, derivedKey_readWrite]
    cases owner with
    | platform => exact absurd rfl howner
    | vendor => exact .inl ⟨"", by simp, apiName, h, rfl⟩
    | odm => exact .inl ⟨"", by simp, apiName, h, rfl⟩
  · rw [derivedKey_of_ne_readWrite haccess, ← String.append_assoc]
    cases owner with
    | platform => exact absurd rfl howner
    | vendor => exact .inl ⟨"ro.", by simp, apiName, h, rfl⟩
    | odm => exact .inl ⟨"ro.", by simp, apiName, h, rfl⟩

/-- What a partition's derived keys open with is neither `ro.` alone nor like hardware keys. -/
theorem qualifier_apart {owner : Owner} (howner : owner ≠ .platform) :
    OpenApart owner.qualifier "ro." ∧ OpenApart owner.qualifier "ro.hardware." ∧
      OpenApart ("ro." ++ owner.qualifier) "ro.hardware." := by
  cases owner with
  | platform => exact absurd rfl howner
  | vendor => decide
  | odm => decide

theorem not_isHardwareKey_derivedKey {owner : Owner} (howner : owner ≠ .platform)
    (access : Access) (apiName : String) :
    ¬ IsHardwareKey (derivedKey owner access apiName) := by
  rintro ⟨rest, _, hkey⟩
  obtain ⟨_, hrewritten, honce⟩ := qualifier_apart howner
  by_cases haccess : access = .readWrite
  · rw [haccess, derivedKey_readWrite] at hkey
    exact hrewritten.append_ne _ _ hkey
  · rw [derivedKey_of_ne_readWrite haccess, ← String.append_assoc] at hkey
    exact honce.append_ne _ _ hkey

/-- What one owner may use, no other may, unless it is a key for hardware. -/
theorem Owner.Admits.not_other {owner other : Owner} {key : String} (h : owner.Admits key)
    (hhardware : ¬ IsHardwareKey key) (hne : other ≠ owner) : ¬ other.Admits key := by
  intro hother
  cases owner with
  | platform => exact h.not_partition hne hother
  | vendor =>
    cases other with
    | platform => exact hother.not_partition (by decide) h
    | vendor => exact hne rfl
    | odm => exact hhardware (inFamily_both_iff.1 ⟨h, hother⟩)
  | odm =>
    cases other with
    | platform => exact hother.not_partition (by decide) h
    | vendor => exact hhardware (inFamily_both_iff.1 ⟨hother, h⟩)
    | odm => exact hne rfl

/-! ## §3 Rules -/

/-- What the rules ask of a key: it is a name, its owner may use it and no other owner may, and it
is not opened by `ro.` if its property is written again and again. -/
structure Owner.Suits (owner : Owner) (access : Access) (key : String) : Prop where
  name : IsDottedName key
  admitted : owner.Admits key
  alone : ∀ other, other ≠ owner → ¬ other.Admits key
  rewritable : access = .readWrite → ¬ ∃ rest, key = "ro." ++ rest

namespace Property

variable {p : Property} {owner : Owner}

theorem verify_eq_ok_iff_valid : p.verify owner = .ok () ↔ p.Valid owner :=
  verdict_eq_ok_iff.trans violations_eq_nil_iff

theorem verify_eq_error_iff_firstFault {v : Violation} :
    p.verify owner = .error v ↔ p.FirstFault owner v :=
  verdict_eq_error_iff.trans head?_violations_eq_some_iff

/-- Where the key suits its owner, the rules that are left are those for symbols and for digits. -/
theorem verify_eq_ok_iff_of_suits (hname : IsDottedName p.apiName)
    (hsuits : owner.Suits p.access (p.key owner)) :
    p.verify owner = .ok () ↔
      p.HasGoodSymbols ∧ (p.integerAsBool = true → p.type.kind = .boolean) := by
  rw [verify_eq_ok_iff_valid]
  constructor
  · intro h
    exact ⟨h.symbols, h.digits⟩
  · rintro ⟨hsymbols, hdigits⟩
    exact ⟨hname, hsymbols, hsuits.name, hsuits.admitted, hsuits.rewritable, hdigits⟩

/-- And one of these is what a property is reported for. -/
theorem firstFault_of_suits (hname : IsDottedName p.apiName)
    (hsuits : owner.Suits p.access (p.key owner)) {v : Violation} (h : p.FirstFault owner v) :
    (¬ p.HasGoodSymbols ∧
        ∃ symbol, v = .badSymbol symbol p.apiName ∨ v = .repeatedSymbol symbol p.apiName) ∨
      (p.integerAsBool = true ∧ p.type.kind ≠ .boolean ∧ v = .notBoolean (p.key owner)) := by
  cases h with
  | apiName h => exact absurd hname h
  | badSymbol _ enum h =>
    obtain ⟨before, after, heq, _, hbad⟩ := h
    refine .inl ⟨fun hgood => hbad ((hgood enum).1 _ ?_), _, .inl rfl⟩
    simp [heq]
  | repeatedSymbol _ enum _ h =>
    obtain ⟨before, after, heq, _, symbol, hmem, hsame⟩ := h
    refine .inl ⟨fun hgood => ?_, _, .inr rfl⟩
    have hdiffer := (hgood enum).2
    rw [heq, List.pairwise_append] at hdiffer
    exact hdiffer.2.2 symbol hmem _ List.mem_cons_self hsame
  | key _ _ h => exact absurd hsuits.name h
  | family _ _ _ h => exact absurd hsuits.admitted h
  | rewritable _ _ _ _ access h => exact absurd h (hsuits.rewritable access)
  | digits _ _ _ _ _ flag h => exact .inr ⟨flag, h, rfl⟩

/-! ## §4 Keys -/

theorem isDottedName_key (hname : IsDottedName p.apiName) (hlacks : p.LacksKey) (owner : Owner) :
    IsDottedName (p.key owner) := by
  rw [key_of_lacksKey hlacks]
  exact isDottedName_derivedKey hname owner p.access

/-- The derived key of a partition suits it. -/
theorem suits_of_ne_platform (hname : IsDottedName p.apiName) (hlacks : p.LacksKey)
    (howner : owner ≠ .platform) :
    owner.Suits p.access (p.key owner) ∧ ¬ IsHardwareKey (p.key owner) := by
  have hkey := isDottedName_key hname hlacks owner
  rw [key_of_lacksKey hlacks] at hkey ⊢
  have hadmits := admits_derivedKey howner hname.1 p.access
  have hhardware := not_isHardwareKey_derivedKey howner p.access p.apiName
  refine ⟨⟨hkey, hadmits, fun other hne => hadmits.not_other hhardware hne, ?_⟩, hhardware⟩
  rintro haccess ⟨rest, heq⟩
  rw [haccess, derivedKey_readWrite] at heq
  exact (qualifier_apart howner).1.append_ne _ _ heq

/-- The derived key of the platform suits it, unless it is in a partition's family or the API name
has the opening of keys that are written once. -/
theorem suits_platform_iff (hname : IsDottedName p.apiName) (hlacks : p.LacksKey) :
    Owner.platform.Suits p.access (p.key .platform) ↔
      ¬ (InFamily "vendor" (p.key .platform) ∨ InFamily "odm" (p.key .platform) ∨
        p.access = .readWrite ∧ ∃ rest, p.apiName = "ro." ++ rest) := by
  have hrewritten : p.access = .readWrite → p.key .platform = p.apiName := by
    intro haccess
    rw [key_of_lacksKey hlacks, haccess, derivedKey_readWrite]
    rfl
  constructor
  · rintro hsuits (hvendor | hodm | ⟨haccess, hopened⟩)
    · exact hsuits.admitted.1 hvendor
    · exact hsuits.admitted.2 hodm
    · rw [← hrewritten haccess] at hopened
      exact hsuits.rewritable haccess hopened
  · intro h
    have hadmits : Owner.platform.Admits (p.key .platform) :=
      ⟨fun hvendor => h (.inl hvendor), fun hodm => h (.inr (.inl hodm))⟩
    refine ⟨isDottedName_key hname hlacks .platform, hadmits,
      fun other hne => hadmits.not_partition hne, fun haccess hopened => ?_⟩
    rw [hrewritten haccess] at hopened
    exact h (.inr (.inr ⟨haccess, hopened⟩))

/-- Where the derived key of the platform does not suit it, that is what a property with good
symbols is reported for. -/
theorem verify_of_not_suits_platform (hname : IsDottedName p.apiName) (hlacks : p.LacksKey)
    (hsuits : ¬ Owner.platform.Suits p.access (p.key .platform)) (hsymbols : p.HasGoodSymbols) :
    p.verify .platform = .error (.foreignKey .platform (p.key .platform)) ∨
      p.verify .platform = .error (.writeOnceKey (p.key .platform)) := by
  have hkey := isDottedName_key hname hlacks .platform
  rw [verify_eq_error_iff_firstFault, verify_eq_error_iff_firstFault]
  by_cases hadmits : Owner.platform.Admits (p.key .platform)
  · have hopened : p.access = .readWrite ∧ ∃ rest, p.key .platform = "ro." ++ rest := by
      by_contra hnot
      exact hsuits ⟨hkey, hadmits, fun other hne => hadmits.not_partition hne,
        fun haccess hopened => hnot ⟨haccess, hopened⟩⟩
    exact .inr (.rewritable hname hsymbols hkey hadmits hopened.1 hopened.2)
  · exact .inl (.family hname hsymbols hkey hadmits)

/-- **Derived keys keep the rules for keys.** A property that has a good API name and declares no
key, or an empty one, has a key that suits its owner if that is a partition, and never one for
hardware. With the platform that is so just if the key is not in a partition's family and the
property is not one that is written again and again under an API name opened by `ro.`. Where the
key suits its owner, only the rules for symbols and for digits can be broken; where it does not,
and the symbols are good, it is the key that is reported. -/
theorem derivedKey_keeps_rules (hname : IsDottedName p.apiName) (hlacks : p.LacksKey) :
    (∀ owner, owner ≠ .platform →
      owner.Suits p.access (p.key owner) ∧ ¬ IsHardwareKey (p.key owner)) ∧
    (Owner.platform.Suits p.access (p.key .platform) ↔
      ¬ (InFamily "vendor" (p.key .platform) ∨ InFamily "odm" (p.key .platform) ∨
        p.access = .readWrite ∧ ∃ rest, p.apiName = "ro." ++ rest)) ∧
    (∀ owner : Owner, owner.Suits p.access (p.key owner) →
      (p.verify owner = .ok () ↔
        p.HasGoodSymbols ∧ (p.integerAsBool = true → p.type.kind = .boolean)) ∧
      ∀ v, p.verify owner = .error v →
        (¬ p.HasGoodSymbols ∧
          ∃ symbol, v = .badSymbol symbol p.apiName ∨ v = .repeatedSymbol symbol p.apiName) ∨
        (p.integerAsBool = true ∧ p.type.kind ≠ .boolean ∧ v = .notBoolean (p.key owner))) ∧
    (¬ Owner.platform.Suits p.access (p.key .platform) → p.HasGoodSymbols →
      p.verify .platform = .error (.foreignKey .platform (p.key .platform)) ∨
        p.verify .platform = .error (.writeOnceKey (p.key .platform))) := by
  refine ⟨?_, suits_platform_iff hname hlacks, ?_, ?_⟩
  · intro owner howner
    exact suits_of_ne_platform hname hlacks howner
  · intro owner hsuits
    refine ⟨verify_eq_ok_iff_of_suits hname hsuits, ?_⟩
    intro v hv
    exact firstFault_of_suits hname hsuits (verify_eq_error_iff_firstFault.1 hv)
  · intro hsuits hsymbols
    exact verify_of_not_suits_platform hname hlacks hsuits hsymbols

end Property

/-- A valve that is written again and again, with an API name like a hardware key. -/
def valve : Property where
  apiName := "ro.hardware.valve"
  access := .readWrite
  propName := some ""

/-- The valve is fine with both partitions, but not with the platform. -/
theorem valve_suits_partitions :
    IsDottedName valve.apiName ∧ valve.LacksKey ∧
      Owner.vendor.Suits .readWrite "vendor.ro.hardware.valve" ∧
      Owner.odm.Suits .readWrite "odm.ro.hardware.valve" ∧ valve.verify .odm = .ok () ∧
      ¬ Owner.platform.Suits .readWrite "ro.hardware.valve" ∧
      (valve.verify .platform = .error (.foreignKey .platform "ro.hardware.valve") ∨
        valve.verify .platform = .error (.writeOnceKey "ro.hardware.valve")) := by
  have hname : IsDottedName valve.apiName := isDottedName_iff.1 (by decide)
  have hlacks : valve.LacksKey := by decide
  have hsymbols : valve.HasGoodSymbols := by
    intro henum
    nomatch henum
  obtain ⟨hpartitions, hplatform, hrules, hreport⟩ := Property.derivedKey_keeps_rules hname hlacks
  have hvendor := (hpartitions .vendor (by decide)).1
  have hodm := (hpartitions .odm (by decide)).1
  have hnot : ¬ Owner.platform.Suits valve.access (valve.key .platform) := by
    rw [hplatform]
    exact not_not_intro (.inr (.inr ⟨rfl, "hardware.valve", by decide⟩))
  have hok := (hrules .odm hodm).1.2 ⟨hsymbols, by simp [valve]⟩
  exact ⟨hname, hlacks, hvendor, hodm, hok, hnot, hreport hnot hsymbols⟩

end PropSchema
