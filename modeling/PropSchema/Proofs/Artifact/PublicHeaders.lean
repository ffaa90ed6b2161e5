/-
PropSchema.Proofs.Artifact.PublicHeaders — how much of a header its public one is.

Both headers are one frame around declarations, and the public one leaves out those of
the properties in other scopes. Every property is declared in some text, so the public
header is the shorter one as soon as one property is left out.

§1 Lengths — rendered text is as long as its lines, in any order.
§2 Headers — `publicHeader_eq_header_iff`.
-/
import PropSchema.Proofs.Artifact.Lines

namespace PropSchema

/-! ## §1 Lengths -/

namespace Artifact

theorem length_render_cons (line : String) (rendered : List String) :
    (render (line :: rendered)).length = line.length + 1 + (render rendered).length := by
  rw [render_cons, String.length_append, String.length_append]
  rfl

theorem length_render_append (rendered others : List String) :
    (render (rendered ++ others)).length = (render rendered).length + (render others).length := by
  induction rendered with
  | nil => exact (Nat.zero_add _).symm
  | cons line rendered ih =>
    rw [List.cons_append, length_render_cons, length_render_cons, ih]
    omega

/-- The order of lines does not change how long their text is. -/
theorem length_render_of_perm {rendered others : List String} (h : rendered.Perm others) :
    (render rendered).length = (render others).length := by
  induction h with
  | nil => rfl
  | cons line _ ih => rw [length_render_cons, length_render_cons, ih]
  | swap line other rest =>
    simp only [length_render_cons]
    omega
  | trans _ _ ih₁ ih₂ => exact ih₁.trans ih₂

end Artifact

/-! ## §2 Headers -/

namespace Schema

/-- Every property is declared in some text. -/
theorem length_declarations_pos (p : Property) :
    0 < (Artifact.render p.declarationLines).length := by
  rw [Property.declarationLines, Artifact.length_render_append, Artifact.length_render_cons]
  omega

/-- The header is as long as the public one and the declarations that it leaves out. -/
theorem length_header (s : Schema) :
    s.header.length = s.publicHeader.length + (Artifact.render
      ((s.props.filter fun p => !decide (p.scope = .exported)).flatMap
        Property.declarationLines)).length := by
  have hprops := List.filter_append_perm (fun p : Property => decide (p.scope = .exported)) s.props
  have hlines := Artifact.length_render_of_perm (hprops.flatMap_right Property.declarationLines)
  rw [List.flatMap_append, Artifact.length_render_append] at hlines
  rw [header, publicHeader, headerLines, headerLines]
  simp only [Artifact.length_render_append]
  omega

/-- The public header is the whole header just if every property is in the exported
scope. -/
theorem publicHeader_eq_header_iff (s : Schema) :
    s.publicHeader = s.header ↔ ∀ p ∈ s.props, p.scope = .exported := by
  constructor
  · intro h
    have hlength := s.length_header
    rw [h] at hlength
    cases hleft : s.props.filter fun p => !decide (p.scope = .exported) with
    | nil => simpa using hleft
    | cons p left =>
      rw [hleft, List.flatMap_cons, Artifact.length_render_append] at hlength
      have hpos := length_declarations_pos p
      omega
  · intro h
    rw [publicHeader, header, List.filter_eq_self.2 (by simpa using h)]

end Schema

end PropSchema
