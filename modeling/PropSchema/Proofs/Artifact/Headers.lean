/-
PropSchema.Proofs.Artifact.Headers — what a header says of its schema.

A text that starts with a header can be cut where the header ends, whatever stands
behind it. The opening has as many lines in every header and names the module; a
declaration ends with the line of its setter, after as many lines as its first
line and its table call for; and the run of them ends at the first line that
starts with a closing brace. So a header says in order under which identifier and
with which descriptor each property is declared. It does not say which key the
property has.

§1 Types        — the name of a value type, and the getter that returns it.
§2 Declarations — `declarationLines_append_inj`, and runs of declarations.
§3 Lines        — no line of a header has a line feed inside.
§4 Headers      — `header_append_inj`.
-/
import PropSchema.Proofs.Artifact.Lines
import PropSchema.Proofs.Schema.Loading
import Mathlib.Data.List.Forall2

namespace PropSchema

/-! ## §1 Types -/

namespace Property

/-- Two properties are declared alike: under one identifier, with one descriptor. -/
structure SameDeclaration (p q : Property) : Prop where
  identifier : p.identifier = q.identifier
  descriptor : p.descriptor = q.descriptor

/-- The name of a value type has an angle bracket just if it is that of a list. -/
theorem mem_valueTypeName_iff {p : Property} (hp : IsPlain p.identifier) :
    '<' ∈ p.valueTypeName.toList ↔ p.type.isList = true := by
  have helement : '<' ∉ p.elementTypeName.toList := by
    have hid := hp.not_mem (show Text.isKeyChar '<' = false by decide)
    unfold elementTypeName
    split <;> simp [enumTypeName, hid]
  unfold valueTypeName
  split <;> simp [*]

/-- The names of value types tell the types apart, those of enumerations among
themselves and the others among themselves. -/
theorem type_inj_of_valueTypeName {p q : Property} (hp : IsPlain p.identifier)
    (hq : IsPlain q.identifier) (henum : p.type.isEnum = q.type.isEnum)
    (hname : p.valueTypeName = q.valueTypeName) : p.type = q.type := by
  have hlist : p.type.isList = q.type.isList := by
    rw [Bool.eq_iff_iff, ← mem_valueTypeName_iff hp, ← mem_valueTypeName_iff hq, hname]
  have helement : p.elementTypeName = q.elementTypeName := by
    unfold valueTypeName at hname
    rw [hlist] at hname
    split at hname
    · simpa using hname
    · exact hname
  have hkind : p.type.kind = q.type.kind := by
    unfold elementTypeName at helement
    unfold ValueType.isEnum at henum
    cases hpk : p.type.kind <;> cases hqk : q.type.kind <;> simp_all
  cases hpt : p.type
  cases hqt : q.type
  simp_all

/-- A getter's signature, cut where its type ends. -/
theorem toList_getterSignature (p : Property) :
    p.getterSignature.toList = ("std::optional<" ++ p.valueTypeName).toList ++
      '>' :: (" " ++ p.identifier ++ "()").toList := by
  show ("std::optional<" ++ p.valueTypeName ++ "> " ++ p.identifier ++ "()").toList = _
  simp

/-- A getter's signature says what its name and its type are: there is no angle bracket
behind the one that ends the type. -/
theorem getterSignature_inj {p q : Property} (hp : IsPlain p.identifier)
    (hq : IsPlain q.identifier) (h : p.getterSignature = q.getterSignature) :
    p.valueTypeName = q.valueTypeName ∧ p.identifier = q.identifier := by
  have hmark : ∀ r : Property, IsPlain r.identifier →
      '>' ∉ (" " ++ r.identifier ++ "()").toList := by
    intro r hr
    simp [hr.not_mem (show Text.isKeyChar '>' = false by decide)]
  rw [← String.toList_inj, toList_getterSignature, toList_getterSignature,
    append_cons_inj_of_last (hmark p hp) (hmark q hq)] at h
  simpa [← String.toList_append, String.toList_inj] using h

/-! ## §2 Declarations -/

/-- Enumerations have symbols, as a text has pieces, and other types have none. -/
theorem descriptor_symbols_eq_nil_iff {p : Property} :
    p.descriptor.symbols = [] ↔ ¬ p.type.isEnum = true := by
  unfold descriptor
  split
  · simp [Property.symbols, Text.pieces, Text.split_ne_nil, *]
  · simp [*]

/-- Just the properties with an enumeration have an enum type. -/
theorem enumLines_eq (p : Property) :
    p.enumLines = if p.type.isEnum then
      ("enum class " ++ p.enumTypeName ++ " \x7b") ::
        ((p.symbols.map fun symbol => "    " ++ symbol ++ ",") ++ ["\x7d;", ""])
    else [] := by
  by_cases henum : p.type.isEnum = true
  · rw [enumLines, if_neg (descriptor_symbols_eq_nil_iff.not_left.2 henum), if_pos henum,
      descriptor, if_pos henum, List.cons_append]
  · rw [enumLines, if_pos (descriptor_symbols_eq_nil_iff.2 henum), if_neg henum]

/-- A declaration starts with a letter: with `e` just if it is that of an enumeration. -/
theorem exists_declarationLines_eq_cons (p : Property) :
    ∃ line rest, p.declarationLines = line :: rest ∧
      line.toList.head? = some (if p.type.isEnum then 'e' else 's') := by
  rw [declarationLines, enumLines_eq]
  split <;> simp [toList_getterSignature, *]

/-- The declaration of an enumeration ends at its first closing brace. -/
theorem enumLines_append_inj {p q : Property} (hp : p.type.isEnum = true)
    (hq : q.type.isEnum = true) {xs ys : List String}
    (h : p.enumLines ++ xs = q.enumLines ++ ys) : p.symbols = q.symbols ∧ xs = ys := by
  have hmark : ∀ symbols : List String,
      "\x7d;" ∉ symbols.map fun symbol => "    " ++ symbol ++ "," := by
    intro symbols hmem
    obtain ⟨symbol, _, heq⟩ := List.mem_map.1 hmem
    simp [← String.toList_inj] at heq
  rw [enumLines_eq, enumLines_eq, if_pos hp, if_pos hq] at h
  simp only [List.cons_append, List.append_assoc, List.nil_append] at h
  obtain ⟨hsymbols, hrest⟩ :=
    (append_cons_inj_of_first (hmark _) (hmark _)).1 (List.cons.inj h).2
  refine ⟨(List.map_inj_right ?_).1 hsymbols, (List.cons.inj hrest).2⟩
  intro a b hab
  simpa using hab

/-- **Declarations are a prefix code**: what starts with one starts with no other. -/
theorem declarationLines_append_inj {p q : Property} (hp : IsPlain p.identifier)
    (hq : IsPlain q.identifier) {xs ys : List String}
    (h : p.declarationLines ++ xs = q.declarationLines ++ ys) :
    p.SameDeclaration q ∧ xs = ys := by
  have henum : p.type.isEnum = q.type.isEnum := by
    obtain ⟨line, _, hline, hfirst⟩ := p.exists_declarationLines_eq_cons
    obtain ⟨line', _, hline', hfirst'⟩ := q.exists_declarationLines_eq_cons
    rw [hline, hline'] at h
    rw [(List.cons.inj h).1, hfirst'] at hfirst
    cases hpe : p.type.isEnum <;> cases hqe : q.type.isEnum <;> simp_all
  have hrest : (p.type.isEnum = true → p.symbols = q.symbols) ∧
      [p.getterSignature ++ ";", p.setterSignature ++ ";", ""] ++ xs =
        [q.getterSignature ++ ";", q.setterSignature ++ ";", ""] ++ ys := by
    rw [declarationLines, declarationLines, List.append_assoc, List.append_assoc] at h
    by_cases hpe : p.type.isEnum = true
    · obtain ⟨hsymbols, hrest⟩ := enumLines_append_inj hpe (henum ▸ hpe) h
      exact ⟨fun _ => hsymbols, hrest⟩
    · rw [enumLines_eq, enumLines_eq, if_neg hpe, if_neg (henum ▸ hpe)] at h
      exact ⟨fun hpe' => absurd hpe' hpe, h⟩
  obtain ⟨hsymbols, hrest⟩ := hrest
  obtain ⟨hlines, hxy⟩ := List.append_inj hrest rfl
  obtain ⟨hname, hid⟩ := getterSignature_inj hp hq (by simpa using (List.cons.inj hlines).1)
  have htype := type_inj_of_valueTypeName hp hq henum hname
  refine ⟨⟨hid, ?_⟩, hxy⟩
  rw [descriptor, descriptor, htype]
  split
  · rw [hsymbols (henum.trans ‹_›)]
  · rfl

/-- A run of declarations ends at the first line that starts with a closing brace. -/
theorem flatMap_declarationLines_append_inj {ps qs : List Property}
    (hps : ∀ p ∈ ps, IsPlain p.identifier) (hqs : ∀ q ∈ qs, IsPlain q.identifier)
    {xs ys : List String} (hxs : ∀ line ∈ xs.head?, line.toList.head? = some '\x7d')
    (hys : ∀ line ∈ ys.head?, line.toList.head? = some '\x7d')
    (h : ps.flatMap declarationLines ++ xs = qs.flatMap declarationLines ++ ys) :
    List.Forall₂ SameDeclaration ps qs ∧ xs = ys := by
  have hopen : ∀ (p : Property) (zs : List String),
      ¬ ∀ line ∈ (p.declarationLines ++ zs).head?, line.toList.head? = some '\x7d' := by
    intro p zs hclosed
    obtain ⟨line, rest, hline, hfirst⟩ := p.exists_declarationLines_eq_cons
    have hbrace := hclosed line (by simp [hline])
    rw [hfirst] at hbrace
    split at hbrace <;> simp at hbrace
  induction ps generalizing qs with
  | nil =>
    cases qs with
    | nil => exact ⟨.nil, h⟩
    | cons q qs =>
      rw [List.flatMap_nil, List.nil_append, List.flatMap_cons, List.append_assoc] at h
      exact absurd (h ▸ hxs) (hopen q _)
  | cons p ps ih =>
    cases qs with
    | nil =>
      rw [List.flatMap_nil, List.nil_append, List.flatMap_cons, List.append_assoc] at h
      exact absurd (h ▸ hys) (hopen p _)
    | cons q qs =>
      rw [List.forall_mem_cons] at hps hqs
      rw [List.flatMap_cons, List.flatMap_cons, List.append_assoc, List.append_assoc] at h
      obtain ⟨hpq, hrest⟩ := declarationLines_append_inj hps.1 hqs.1 h
      obtain ⟨hsame, hxy⟩ := ih hps.2 hqs.2 hrest
      exact ⟨.cons hpq hsame, hxy⟩

end Property

/-! ## §3 Lines -/

namespace Property

variable {owner : Owner} {p : Property}

theorem isLine_elementTypeName (hp : p.Valid owner) : Artifact.IsLine p.elementTypeName := by
  unfold elementTypeName
  split <;> simp +decide [enumTypeName, hp.isPlain_identifier.isLine]

theorem isLine_valueTypeName (hp : p.Valid owner) : Artifact.IsLine p.valueTypeName := by
  unfold valueTypeName
  split <;> simp +decide [isLine_elementTypeName hp]

theorem isLine_getterSignature (hp : p.Valid owner) : Artifact.IsLine p.getterSignature := by
  show Artifact.IsLine ("std::optional<" ++ p.valueTypeName ++ "> " ++ p.identifier ++ "()")
  simp +decide [isLine_valueTypeName hp, hp.isPlain_identifier.isLine]

theorem isLine_setterSignature (hp : p.Valid owner) : Artifact.IsLine p.setterSignature := by
  show Artifact.IsLine ("bool " ++ p.identifier ++ "(const " ++ p.valueTypeName ++ "& value)")
  simp +decide [isLine_valueTypeName hp, hp.isPlain_identifier.isLine]

theorem isLine_of_mem_declarationLines (hp : p.Valid owner) :
    ∀ line ∈ p.declarationLines, Artifact.IsLine line := by
  have hid := hp.isPlain_identifier.isLine
  have henum : ∀ line ∈ p.enumLines, Artifact.IsLine line := by
    rw [enumLines_eq]
    split
    · rename_i h
      simp only [List.forall_mem_cons, List.forall_mem_append, List.forall_mem_map]
      refine ⟨by simp +decide [enumTypeName, hid], fun symbol hmem => ?_, by simp +decide⟩
      simp +decide [(hp.isPlain_symbol h hmem).isLine]
    · simp
  rw [declarationLines, List.forall_mem_append]
  refine ⟨henum, ?_⟩
  simp +decide [isLine_getterSignature hp, isLine_setterSignature hp]

end Property

namespace Schema

theorem isLine_segment {s : Schema} (hs : s.Valid) : ∀ a ∈ s.segments, Artifact.IsLine a :=
  fun a ha => (hs.path.2 a ha).isPlain.isLine

theorem isLine_namespaceName {s : Schema} (hs : s.Valid) : Artifact.IsLine s.namespaceName :=
  Artifact.isLine_intercalate (by decide) (isLine_segment hs)

theorem isLine_of_mem_headerLines {s : Schema} (hs : s.Valid) :
    ∀ line ∈ s.headerLines s.props, Artifact.IsLine line := by
  have hns := isLine_namespaceName hs
  have hguard : Artifact.IsLine s.guardName := by
    simp +decide [guardName, Artifact.isLine_intercalate _ (isLine_segment hs)]
  simp only [headerLines, List.forall_mem_append, List.forall_mem_flatMap]
  refine ⟨⟨?_, fun p hp => Property.isLine_of_mem_declarationLines (hs.props p hp)⟩, ?_⟩
  · simp +decide [headerOpening, hns, hguard]
  · simp +decide [headerClosing, hns, hguard]

end Schema

/-! ## §4 Headers -/

namespace Schema

/-- No segment of a valid schema has a colon in it, so that the namespace says what the
module is. -/
theorem modulePath_inj_of_namespaceName {s₁ s₂ : Schema} (h₁ : s₁.Valid) (h₂ : s₂.Valid)
    (h : s₁.namespaceName = s₂.namespaceName) : s₁.modulePath = s₂.modulePath := by
  have hcolon : ∀ s : Schema, s.Valid → ∀ a ∈ s.segments, ':' ∉ a.toList :=
    fun s hs a ha => (hs.path.2 a ha).isPlain.not_mem (by decide)
  have hne : ∀ s : Schema, s.Valid → s.segments ≠ [] := by
    intro s hs hnil
    have hlength := hs.path.1
    simp [hnil] at hlength
  rw [← Text.pieces_inj]
  exact (intercalate_colons_inj (hcolon s₁ h₁) (hcolon s₂ h₂) (hne s₁ h₁) (hne s₂ h₂)).1 h

/-- **Headers are a prefix code**: a text that starts with the header of a valid schema
says what the schema's module is and what its properties are declared as. -/
theorem header_append_inj {s₁ s₂ : Schema} (h₁ : s₁.Valid) (h₂ : s₂.Valid) {a b : String}
    (h : s₁.header ++ a = s₂.header ++ b) :
    s₁.modulePath = s₂.modulePath ∧ List.Forall₂ Property.SameDeclaration s₁.props s₂.props ∧
      a = b := by
  rw [← Artifact.lines_inj, header, header,
    Artifact.lines_render_append (isLine_of_mem_headerLines h₁),
    Artifact.lines_render_append (isLine_of_mem_headerLines h₂), headerLines, headerLines] at h
  simp only [List.append_assoc] at h
  obtain ⟨hopening, hrest⟩ := List.append_inj h (by simp [headerOpening])
  have hname : s₁.namespaceName = s₂.namespaceName := by
    have hboth : s₁.guardName = s₂.guardName ∧ s₁.namespaceName = s₂.namespaceName := by
      simpa [headerOpening] using hopening
    exact hboth.2
  have hclosing : ∀ (s : Schema) (rest : List String),
      ∀ line ∈ (s.headerClosing ++ rest).head?, line.toList.head? = some '\x7d' := by
    simp [headerClosing]
  obtain ⟨hsame, hrest⟩ := Property.flatMap_declarationLines_append_inj
    (fun p hp => (h₁.props p hp).isPlain_identifier)
    (fun q hq => (h₂.props q hq).isPlain_identifier) (hclosing s₁ _) (hclosing s₂ _) hrest
  exact ⟨modulePath_inj_of_namespaceName h₁ h₂ hname, hsame,
    Artifact.lines_inj.1 (List.append_inj hrest (by simp [headerClosing])).2⟩

end Schema

end PropSchema
