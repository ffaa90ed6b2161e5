/-
PropSchema.Proofs.Artifact.Disclosure — what a public header discloses of its schema.

A schema is given away with its public header, and its internal properties are not. Of two
schemas of one module that differ in nothing but those, wherever they stand, no reader of the
public headers can tell which is which: neither can they tell who the owner is, how a property
is accessed, which key it has or how its booleans are stored. What is to be disclosed is
there: the public header is the header with lines left out, and every property in the public
scope, or in the deprecated one that means the same, is declared in it with its enum type.

§1 Interfaces — what one declaration discloses of a property.
§2 Headers    — `Schema.publicHeader_discloses`.
-/
import PropSchema.Proofs.Normalization
import Mathlib.Data.List.Flatten

namespace PropSchema

/-! ## §1 Interfaces -/

namespace Property

/-- Whether a property is declared in a scope that is disclosed. -/
def IsDisclosed (p : Property) : Prop :=
  p.scope = .exported ∨ p.scope = .system

instance {p : Property} : Decidable p.IsDisclosed :=
  inferInstanceAs (Decidable (p.scope = .exported ∨ p.scope = .system))

/-- Whether two properties have one interface: identifier and type, and the symbols if it is
that of an enumeration. -/
structure SameInterface (p q : Property) : Prop where
  identifier : p.identifier = q.identifier
  type : p.type = q.type
  enumValues : p.type.isEnum = true → p.enumValues = q.enumValues

/-- Properties with one interface are declared alike. -/
theorem SameInterface.sameDeclaration {p q : Property} (h : p.SameInterface q) :
    p.SameDeclaration q where
  identifier := h.identifier
  descriptor := by
    rw [descriptor, descriptor, ← h.type]
    split
    · rw [symbols, symbols, h.enumValues ‹_›]
    · rfl

end Property

/-! ## §2 Headers -/

namespace Schema

/-- The properties that are disclosed, in the order of their declaration. -/
def disclosed (s : Schema) : List Property :=
  s.props.filter Property.IsDisclosed

theorem mem_disclosed_iff {s : Schema} {p : Property} :
    p ∈ s.disclosed ↔ p ∈ s.props ∧ (p.scope = .exported ∨ p.scope = .system) := by
  rw [disclosed, List.mem_filter, decide_eq_true_iff, Property.IsDisclosed]

theorem publicHeader_normalize_eq (s : Schema) :
    s.normalize.publicHeader = Artifact.render (s.headerLines s.disclosed) :=
  s.publicHeader_normalize

/-- The public header is that of a schema that has no other properties than those disclosed. -/
theorem publicHeader_congr {s₁ s₂ : Schema} (hpath : s₁.modulePath = s₂.modulePath)
    (hsame : List.Forall₂ Property.SameInterface s₁.disclosed s₂.disclosed) :
    s₁.normalize.publicHeader = s₂.normalize.publicHeader := by
  have hheader : Schema.header { s₁ with props := s₁.disclosed } =
      Schema.header { s₂ with props := s₂.disclosed } :=
    header_congr hpath (hsame.imp fun _ _ h => h.sameDeclaration)
  rw [publicHeader_normalize_eq, publicHeader_normalize_eq]
  exact hheader

/-- With some of the properties left out, a header is the same but for lines left out. -/
theorem headerLines_sublist (s : Schema) {props : List Property} (h : props.Sublist s.props) :
    (s.headerLines props).Sublist (s.headerLines s.props) :=
  ((List.Sublist.refl _).append (h.flatMap _)).append (List.Sublist.refl _)

/-- What a header declares of one property stands in one place. -/
theorem exists_headerLines_eq (s : Schema) {props : List Property} {p : Property} (hp : p ∈ props) :
    ∃ before after, s.headerLines props = before ++ p.declarationLines ++ after := by
  obtain ⟨front, back, rfl⟩ := List.append_of_mem hp
  refine ⟨s.headerOpening ++ front.flatMap Property.declarationLines,
    back.flatMap Property.declarationLines ++ s.headerClosing, ?_⟩
  simp [headerLines]

theorem lines_header_normalize {s : Schema} (hs : s.Valid) :
    Artifact.lines s.normalize.header = s.headerLines s.props ++ [""] := by
  have hheader : s.normalize.header = s.header :=
    header_congr rfl (s.sameAccessors_normalize.imp fun _ _ h => h.toSameDeclaration)
  rw [hheader]
  exact Artifact.lines_render (isLine_of_mem_headerLines hs)

theorem lines_publicHeader_normalize {s : Schema} (hs : s.Valid) :
    Artifact.lines s.normalize.publicHeader = s.headerLines s.disclosed ++ [""] := by
  rw [publicHeader_normalize_eq]
  refine Artifact.lines_render fun line hline => isLine_of_mem_headerLines hs line ?_
  exact (s.headerLines_sublist List.filter_sublist).subset hline

/-- A disclosed property is declared in the public header. -/
theorem exists_lines_publicHeader_eq {s : Schema} (hs : s.Valid) {p : Property}
    (hp : p ∈ s.disclosed) :
    ∃ before after, Artifact.lines s.normalize.publicHeader =
      before ++ (p.enumLines ++ [p.getterSignature ++ ";", p.setterSignature ++ ";"]) ++ after := by
  obtain ⟨before, after, hlines⟩ := s.exists_headerLines_eq hp
  refine ⟨before, [""] ++ after ++ [""], ?_⟩
  rw [lines_publicHeader_normalize hs, hlines, Property.declarationLines]
  simp

/-- **Public headers disclose what they should and nothing else.** Two schemas of one module
get the same public header if what they declare in the public or the deprecated scope has the
same interface place by place, whatever else they declare and wherever, and whoever owns them.
And the lines of a valid schema's public header are among those of its header, in their order;
for each property in one of these scopes there are, one behind the other, the enum type of its
values if there is one, its getter and its setter. -/
theorem publicHeader_discloses :
    (∀ s₁ s₂ : Schema, s₁.modulePath = s₂.modulePath →
      List.Forall₂ Property.SameInterface s₁.disclosed s₂.disclosed →
        s₁.normalize.publicHeader = s₂.normalize.publicHeader) ∧
    ∀ s : Schema, s.verify = .ok () →
      (Artifact.lines s.normalize.publicHeader).Sublist (Artifact.lines s.normalize.header) ∧
      ∀ p ∈ s.props, p.scope = .exported ∨ p.scope = .system →
        ∃ before after, Artifact.lines s.normalize.publicHeader = before ++
          ((if p.type.isEnum then
            ("enum class " ++ p.enumTypeName ++ " \x7b") ::
              ((p.symbols.map fun symbol => "    " ++ symbol ++ ",") ++ ["\x7d;", ""])
            else []) ++ [p.getterSignature ++ ";", p.setterSignature ++ ";"]) ++ after := by
  refine ⟨fun s₁ s₂ => publicHeader_congr, fun s hverify => ⟨?_, ?_⟩⟩
  · have hs := verify_eq_ok_iff_valid.1 hverify
    rw [lines_publicHeader_normalize hs, lines_header_normalize hs]
    exact (s.headerLines_sublist List.filter_sublist).append (List.Sublist.refl _)
  · intro p hp hscope
    have hdeclared := exists_lines_publicHeader_eq (verify_eq_ok_iff_valid.1 hverify)
      (mem_disclosed_iff.2 ⟨hp, hscope⟩)
    rwa [p.enumLines_eq] at hdeclared

end Schema

/-- A kettle as its vendor declares it, with an internal key between the rest. -/
def vendorKettle : Schema where
  owner := .vendor
  modulePath := "home.Kettle"
  props := [
    { apiName := "mode", type := ⟨.enumeration, false⟩, access := .readWrite,
      propName := some "vendor.kettle.mode", enumValues := "idle|boil" },
    { apiName := "service-key", type := ⟨.string, false⟩, scope := .internal },
    { apiName := "heats-now", type := ⟨.boolean, false⟩, scope := .system, integerAsBool := true }]

/-- The kettle of an odm: the same to the outside. -/
def odmKettle : Schema where
  owner := .odm
  modulePath := "home.Kettle"
  props := [
    { apiName := "limits", type := ⟨.double, true⟩, scope := .internal },
    { apiName := "mode", type := ⟨.enumeration, false⟩, scope := .system,
      enumValues := "idle|boil" },
    { apiName := "heats.now", type := ⟨.boolean, false⟩, access := .writeonce }]

theorem kettles_share_publicHeader :
    vendorKettle.verify = .ok () ∧ odmKettle.verify = .ok () ∧
      vendorKettle.normalize.publicHeader = odmKettle.normalize.publicHeader ∧
      vendorKettle.normalize.header ≠ odmKettle.normalize.header ∧
      (Artifact.lines odmKettle.normalize.publicHeader).Sublist
        (Artifact.lines odmKettle.normalize.header) ∧
      ∃ before after, Artifact.lines odmKettle.normalize.publicHeader =
        before ++ ["enum class mode_values \x7b", "    idle,", "    boil,", "\x7d;", "",
          "std::optional<mode_values> mode();", "bool mode(const mode_values& value);"] ++
          after := by
  have hvendor : vendorKettle.verify = .ok () := by decide +kernel
  have hodm : odmKettle.verify = .ok () := by decide +kernel
  obtain ⟨hsame, hdeclares⟩ := Schema.publicHeader_discloses
  obtain ⟨hlines, hdeclared⟩ := hdeclares odmKettle hodm
  have hmode : odmKettle.props[1]? = some
      { apiName := "mode", type := ⟨.enumeration, false⟩, scope := .system,
        enumValues := "idle|boil" } := rfl
  refine ⟨hvendor, hodm, hsame _ _ rfl ?_, by decide +kernel, hlines, ?_⟩
  · exact .cons ⟨rfl, rfl, fun _ => rfl⟩
      (.cons ⟨by decide +kernel, rfl, fun hno => absurd hno (by decide)⟩ .nil)
  · obtain ⟨before, after, hpublic⟩ :=
      hdeclared _ (List.mem_of_getElem? hmode) (.inr rfl)
    refine ⟨before, after, hpublic.trans (congrArg (before ++ · ++ after) ?_)⟩
    decide +kernel

end PropSchema
