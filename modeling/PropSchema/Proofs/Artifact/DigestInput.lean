/-
PropSchema.Proofs.Artifact.DigestInput — what is digested is unambiguous.

The bytes that a digest is taken of are those of a header and of a source file,
with nothing between them. From a text that starts with a header the header can
be cut off, and the source file behind it be read with what the header says; so
the bytes tell the module, the name in the include, and of each property the
identifier, the descriptor, the key and the way booleans are stored. They tell
nothing else: the files are the same wherever these are.

§1 Bytes      — texts with the same bytes.
§2 Congruence — files of properties with the same accessors.
§3 Digests    — `digestInput_eq_iff`, and two schemas that share their files.
-/
import PropSchema.Proofs.Artifact.Sources
import Mathlib.Control.Monad.Basic

namespace PropSchema

/-! ## §1 Bytes -/

/-- The loop that lists bytes puts those from a place on behind those already listed. -/
theorem listLoop_eq (bytes : ByteArray) (i : Nat) (listed : List UInt8) :
    ByteArray.toList.loop bytes i listed = listed.reverse ++ bytes.data.toList.drop i := by
  fun_induction ByteArray.toList.loop bytes i listed with
  | case1 i listed hlt ih =>
    have hi : i < bytes.data.toList.length := by simpa using hlt
    rw [ih, List.drop_eq_getElem_cons hi]
    simp [ByteArray.get!, hlt]
  | case2 i listed hge =>
    have hi : bytes.data.toList.length ≤ i := by simpa using hge
    rw [List.drop_of_length_le hi, List.append_nil]

theorem toList_eq_data (bytes : ByteArray) : bytes.toList = bytes.data.toList := by
  rw [ByteArray.toList, listLoop_eq]
  rfl

/-- Texts with the same bytes are the same. -/
theorem utf8_inj {a b : String} : a.toUTF8.toList = b.toUTF8.toList ↔ a = b := by
  refine ⟨fun h => ?_, fun h => by rw [h]⟩
  rw [toList_eq_data, toList_eq_data] at h
  exact String.toByteArray_inj.1 (ByteArray.ext (Array.toList_inj.1 h))

/-- The bytes that are digested are those of the header, then those of the source file. -/
theorem Artifacts.digestInput_eq (a : Artifacts) :
    a.digestInput = a.header.toUTF8.toList ++ a.source.toUTF8.toList := by
  have hbytes : (a.header ++ a.source).toUTF8 = a.header.toUTF8 ++ a.source.toUTF8 :=
    String.toByteArray_append
  rw [digestInput, hbytes, toList_eq_data, toList_eq_data, toList_eq_data, ByteArray.data_append,
    Array.toList_append]

theorem Artifacts.digestInput_inj {a b : Artifacts} :
    a.digestInput = b.digestInput ↔ a.header ++ a.source = b.header ++ b.source :=
  utf8_inj

theorem Schema.digestInput_artifacts_inj {s₁ s₂ : Schema} {n₁ n₂ : String} :
    (s₁.artifacts n₁).digestInput = (s₂.artifacts n₂).digestInput ↔
      s₁.header ++ s₁.source n₁ = s₂.header ++ s₂.source n₂ := by
  rw [artifacts, artifacts, Artifacts.digestInput_inj]

/-! ## §2 Congruence -/

namespace Property

variable {o₁ o₂ : Owner} {p q : Property}

theorem SameDeclaration.getterSignature (h : p.SameDeclaration q) :
    p.getterSignature = q.getterSignature := by
  show "std::optional<" ++ p.valueTypeName ++ "> " ++ p.identifier ++ "()" = _
  rw [h.valueTypeName, h.identifier]
  rfl

theorem SameDeclaration.setterSignature (h : p.SameDeclaration q) :
    p.setterSignature = q.setterSignature := by
  show "bool " ++ p.identifier ++ "(const " ++ p.valueTypeName ++ "& value)" = _
  rw [h.valueTypeName, h.identifier]
  rfl

theorem SameDeclaration.declarationLines (h : p.SameDeclaration q) :
    p.declarationLines = q.declarationLines := by
  have henum : p.enumLines = q.enumLines := by
    rw [enumLines, enumLines, enumTypeName, enumTypeName, h.descriptor, h.identifier]
  rw [Property.declarationLines, Property.declarationLines, henum, h.getterSignature,
    h.setterSignature]

theorem SameAccessors.enumSupportLines (h : p.SameAccessors o₁ o₂ q) :
    p.enumSupportLines o₁ = q.enumSupportLines o₂ := by
  have htype : p.enumTypeName = q.enumTypeName := by
    rw [enumTypeName, enumTypeName, h.identifier]
  have htable : p.tableName = q.tableName := by
    rw [tableName, tableName, h.identifier]
  have hloop : p.tableLoop = q.tableLoop := by
    show "    for (auto [name, val] : " ++ p.tableName ++ ") \x7b" = _
    rw [htable]
    rfl
  have hrow : p.tableRow = q.tableRow := by
    funext symbol
    rw [tableRow, tableRow, htype]
  unfold Property.enumSupportLines
  rw [← h.type]
  split
  · simp only [tableLines, enumParserLines, enumFormatterLines, htype, htable, hloop, hrow,
      h.symbols ‹_›, h.key]
  · rfl

theorem SameAccessors.definitionLines (h : p.SameAccessors o₁ o₂ q) :
    p.definitionLines o₁ = q.definitionLines o₂ := by
  have hargument : p.encodedArgument = q.encodedArgument := by
    rw [encodedArgument, encodedArgument, h.integerAsBool, h.type]
  simp only [Property.definitionLines, getterLines, setterLines, h.getterSignature,
    h.setterSignature, h.valueTypeName, h.key, hargument]

end Property

theorem flatMap_congr_of_forall₂ {α β γ : Type} {f : α → List γ} {g : β → List γ}
    {as : List α} {bs : List β} (h : List.Forall₂ (fun a b => f a = g b) as bs) :
    as.flatMap f = bs.flatMap g := by
  rw [forall₂_iff_map_eq_map] at h
  rw [List.flatMap_def, List.flatMap_def, h]

namespace Schema

theorem header_congr {s₁ s₂ : Schema} (hpath : s₁.modulePath = s₂.modulePath)
    (hsame : List.Forall₂ Property.SameDeclaration s₁.props s₂.props) :
    s₁.header = s₂.header := by
  have hdeclarations : s₁.props.flatMap Property.declarationLines =
      s₂.props.flatMap Property.declarationLines :=
    flatMap_congr_of_forall₂ (hsame.imp fun _ _ hpq => hpq.declarationLines)
  simp only [header, headerLines, headerOpening, headerClosing, guardName, namespaceName, segments,
    hpath, hdeclarations]

theorem source_congr {s₁ s₂ : Schema} (hpath : s₁.modulePath = s₂.modulePath)
    (hsame : List.Forall₂ (Property.SameAccessors s₁.owner s₂.owner) s₁.props s₂.props)
    (name : String) : s₁.source name = s₂.source name := by
  have hsupport : s₁.props.flatMap (Property.enumSupportLines s₁.owner) =
      s₂.props.flatMap (Property.enumSupportLines s₂.owner) :=
    flatMap_congr_of_forall₂ (hsame.imp fun _ _ hpq => hpq.enumSupportLines)
  have hdefinitions : s₁.props.flatMap (Property.definitionLines s₁.owner) =
      s₂.props.flatMap (Property.definitionLines s₂.owner) :=
    flatMap_congr_of_forall₂ (hsame.imp fun _ _ hpq => hpq.definitionLines)
  have hdigits : s₁.props.any Property.integerAsBool = s₂.props.any Property.integerAsBool := by
    have hflags := forall₂_iff_map_eq_map.1 (hsame.imp fun _ _ hpq => hpq.integerAsBool)
    rw [← Function.id_comp Property.integerAsBool, ← List.any_map, hflags, List.any_map]
  simp only [source, sourceLines, privateLines, digitWriterLines, accessorLines, namespaceName,
    segments, hpath, hsupport, hdefinitions, hdigits]

/-! ## §3 Digests -/

/-- What is digested says which accessors there are, and under which name the source file
includes the header. -/
theorem sameAccessors_of_digestInput {s₁ s₂ : Schema} (h₁ : s₁.Valid) (h₂ : s₂.Valid)
    {n₁ n₂ : String} (h : (s₁.artifacts n₁).digestInput = (s₂.artifacts n₂).digestInput) :
    n₁ = n₂ ∧ s₁.modulePath = s₂.modulePath ∧
      List.Forall₂ (Property.SameAccessors s₁.owner s₂.owner) s₁.props s₂.props := by
  rw [digestInput_artifacts_inj] at h
  obtain ⟨hpath, hsame, hsource⟩ := header_append_inj h₁ h₂ h
  obtain ⟨hname, haccessors⟩ := source_inj h₁ h₂ hpath hsame hsource
  exact ⟨hname, hpath, haccessors⟩

/-- **The digest input is unambiguous.** For two loaded schemas and any two names in the
include, the bytes that are digested are the same just if the names and the modules are,
and the properties are at each place accessed alike: under one identifier, with one
descriptor, through one key, and with booleans stored in one way. The two files then are
the same each by itself. -/
theorem digestInput_eq_iff {t₁ t₂ : String} {s₁ s₂ : Schema} (h₁ : load t₁ = .ok s₁)
    (h₂ : load t₂ = .ok s₂) (n₁ n₂ : String) :
    ((s₁.artifacts n₁).digestInput = (s₂.artifacts n₂).digestInput ↔
      n₁ = n₂ ∧ s₁.modulePath = s₂.modulePath ∧
        List.Forall₂ (Property.SameAccessors s₁.owner s₂.owner) s₁.props s₂.props) ∧
    ((s₁.artifacts n₁).digestInput = (s₂.artifacts n₂).digestInput →
      s₁.header = s₂.header ∧ s₁.source n₁ = s₂.source n₂) := by
  have hread : (s₁.artifacts n₁).digestInput = (s₂.artifacts n₂).digestInput → _ :=
    sameAccessors_of_digestInput (valid_of_load h₁) (valid_of_load h₂)
  have hfiles : n₁ = n₂ → s₁.modulePath = s₂.modulePath →
      List.Forall₂ (Property.SameAccessors s₁.owner s₂.owner) s₁.props s₂.props →
      s₁.header = s₂.header ∧ s₁.source n₁ = s₂.source n₂ := by
    rintro rfl hpath haccessors
    have hsame := haccessors.imp fun _ _ hpq => hpq.toSameDeclaration
    exact ⟨header_congr hpath hsame, source_congr hpath haccessors n₁⟩
  refine ⟨⟨hread, ?_⟩, fun h => ?_⟩
  · rintro ⟨hname, hpath, haccessors⟩
    obtain ⟨hheader, hsource⟩ := hfiles hname hpath haccessors
    rw [digestInput_artifacts_inj, hheader, hsource]
  · obtain ⟨hname, hpath, haccessors⟩ := hread h
    exact hfiles hname hpath haccessors

end Schema

/-- A fan's speed, as a vendor declares it. -/
def vendorFanText : String :=
  "owner: Vendor\nmodule: \"home.Fan\"\nprop \x7b api_name: \"fan-speed\" type: Integer " ++
  "access: Readonly scope: Public prop_name: \"ro.hardware.fan\" \x7d\n"

/-- The same speed, as an odm declares it for itself. -/
def odmFanText : String :=
  "owner: Odm\nmodule: \"home.Fan\"\nprop \x7b api_name: \"fan.speed\" type: Integer " ++
  "access: Writeonce scope: Internal prop_name: \"ro.hardware.fan\" \x7d\n"

/-- What the vendor's text loads as. -/
def vendorFan : Schema where
  owner := .vendor
  modulePath := "home.Fan"
  props := [{ apiName := "fan-speed", type := ⟨.int32, false⟩, propName := some "ro.hardware.fan" }]

/-- What the odm's text loads as. -/
def odmFan : Schema where
  owner := .odm
  modulePath := "home.Fan"
  props := [
    { apiName := "fan.speed", type := ⟨.int32, false⟩, access := .writeonce, scope := .internal,
      propName := some "ro.hardware.fan" }]

/-- The two fans are generated the same files, since neither owner nor access nor scope is
seen in them; not so if the header goes by another name. -/
theorem fans_share_artifacts :
    Schema.load vendorFanText = .ok vendorFan ∧ Schema.load odmFanText = .ok odmFan ∧
      (vendorFan.artifacts "fan.h").digestInput = (odmFan.artifacts "fan.h").digestInput ∧
      (vendorFan.artifacts "fan.h").digestInput ≠ (odmFan.artifacts "fans.h").digestInput := by
  have hvendor : Schema.load vendorFanText = .ok vendorFan := by decide +kernel
  have hodm : Schema.load odmFanText = .ok odmFan := by decide +kernel
  refine ⟨hvendor, hodm, ?_, ?_⟩
  · rw [(Schema.digestInput_eq_iff hvendor hodm _ _).1]
    refine ⟨rfl, rfl, .cons ⟨⟨?_, rfl⟩, ?_, rfl⟩ .nil⟩
    · decide +kernel
    · decide +kernel
  · rw [Ne, (Schema.digestInput_eq_iff hvendor hodm _ _).1]
    simp

end PropSchema
