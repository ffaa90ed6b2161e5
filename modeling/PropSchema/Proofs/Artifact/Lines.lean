/-
PropSchema.Proofs.Artifact.Lines — generated text as its lines.

A generated file is rendered from lines, and reading it back starts with cutting
it into them. That gives the same lines only if none of them has a line feed
inside. What the generator takes from a schema (module segments, identifiers,
symbols, keys) is made of the characters of keys, so no such name has one, nor
any of the marks that the text around it is made of.

§1 Lines — the lines of rendered text.
§2 Marks — a list is cut at a mark that occurs once on one of its sides.
§3 Names — names of valid schemas have no marks inside.
-/
import PropSchema.Artifact.Basic
import PropSchema.Proofs.Schema.Rules

namespace PropSchema

/-! ## §1 Lines -/

/-- Texts that are cut into the same pieces are the same. -/
theorem Text.pieces_inj {sep : Char} {a b : String} : pieces sep a = pieces sep b ↔ a = b := by
  refine ⟨fun h => ?_, congrArg (pieces sep)⟩
  have hmap := congrArg (List.map String.toList) h
  simp only [pieces, List.map_map] at hmap
  have hid : String.toList ∘ String.ofList = id := funext fun _ => String.toList_ofList
  rw [hid, List.map_id, List.map_id] at hmap
  rw [← String.toList_inj, ← join_split sep a.toList, hmap, join_split]

/-- Texts with a separator between them have no characters of their own. -/
theorem mem_intercalate {c : Char} {sep : String} {texts : List String}
    (h : c ∈ (sep.intercalate texts).toList) :
    c ∈ sep.toList ∨ ∃ text ∈ texts, c ∈ text.toList := by
  induction texts with
  | nil => simp at h
  | cons a as ih =>
    cases as with
    | nil => exact .inr ⟨a, by simp, by simpa using h⟩
    | cons b bs =>
      rw [String.intercalate_cons_cons, String.toList_append, String.toList_append,
        List.mem_append, List.mem_append] at h
      obtain (hfirst | hsep) | hrest := h
      · exact .inr ⟨a, by simp, hfirst⟩
      · exact .inl hsep
      · exact (ih hrest).imp_right fun ⟨text, htext, hc⟩ => ⟨text, List.mem_cons_of_mem a htext, hc⟩

theorem not_mem_intercalate {c : Char} {sep : String} {texts : List String}
    (hsep : c ∉ sep.toList) (h : ∀ text ∈ texts, c ∉ text.toList) :
    c ∉ (sep.intercalate texts).toList := by
  intro hmem
  obtain hmem | ⟨text, htext, hc⟩ := mem_intercalate hmem
  · exact hsep hmem
  · exact h text htext hc

namespace Artifact

/-- Whether a text is a single line. -/
def IsLine (text : String) : Prop :=
  '\n' ∉ text.toList

/-- The lines of a text; what stands behind its last line feed is one as well. -/
def lines (text : String) : List String :=
  Text.pieces '\n' text

instance {text : String} : Decidable (IsLine text) :=
  inferInstanceAs (Decidable ('\n' ∉ text.toList))

@[simp]
theorem isLine_append_iff {a b : String} : IsLine (a ++ b) ↔ IsLine a ∧ IsLine b := by
  simp [IsLine]

theorem isLine_ofList {cs : List Char} (h : '\n' ∉ cs) : IsLine (String.ofList cs) := by
  simpa [IsLine] using h

theorem isLine_intercalate {sep : String} {texts : List String} (hsep : IsLine sep)
    (h : ∀ text ∈ texts, IsLine text) : IsLine (sep.intercalate texts) :=
  not_mem_intercalate hsep h

/-- No text has the same lines as another. -/
theorem lines_inj {a b : String} : lines a = lines b ↔ a = b :=
  Text.pieces_inj

theorem lines_of_isLine {line : String} (h : IsLine line) : lines line = [line] := by
  simp [lines, Text.pieces, Text.split_of_not_mem h]

theorem lines_empty : lines "" = [""] :=
  lines_of_isLine (by decide)

/-- Each line feed ends a line. -/
theorem lines_append_newline (a b : String) : lines (a ++ "\n" ++ b) = lines a ++ lines b := by
  have h : (a ++ "\n" ++ b).toList = a.toList ++ '\n' :: b.toList := by simp
  rw [lines, Text.pieces, h, Text.split_append_cons, List.map_append]
  rfl

theorem render_cons (line : String) (rest : List String) :
    render (line :: rest) = line ++ "\n" ++ render rest := by
  simp [render, String.join_cons]

/-- Rendered lines are the first lines of any text that starts with them. -/
theorem lines_render_append {rendered : List String} (h : ∀ line ∈ rendered, IsLine line)
    (rest : String) : lines (render rendered ++ rest) = rendered ++ lines rest := by
  induction rendered with
  | nil => simp [render]
  | cons line rendered ih =>
    rw [List.forall_mem_cons] at h
    rw [render_cons, String.append_assoc, lines_append_newline, lines_of_isLine h.1, ih h.2]
    rfl

theorem lines_render {rendered : List String} (h : ∀ line ∈ rendered, IsLine line) :
    lines (render rendered) = rendered ++ [""] := by
  have hrest := lines_render_append h ""
  rwa [String.append_empty, lines_empty] at hrest

end Artifact

/-! ## §2 Marks -/

/-- A list is cut at the first occurrence of a mark in one way only. -/
theorem append_cons_inj_of_first {α : Type} {a : α} {xs ys zs ws : List α} (hx : a ∉ xs)
    (hy : a ∉ ys) : xs ++ a :: zs = ys ++ a :: ws ↔ xs = ys ∧ zs = ws := by
  refine ⟨fun h => ?_, fun ⟨hxy, hzw⟩ => by rw [hxy, hzw]⟩
  rcases List.append_eq_append_iff.1 h with ⟨cs, rfl, hcs⟩ | ⟨cs, rfl, hcs⟩
  · cases cs with
    | nil => simpa using hcs
    | cons c cs =>
      obtain ⟨rfl, _⟩ := List.cons.inj hcs
      simp at hy
  · cases cs with
    | nil => simpa [eq_comm] using hcs
    | cons c cs =>
      obtain ⟨rfl, _⟩ := List.cons.inj hcs
      simp at hx

/-- A list is cut at the last occurrence of a mark in one way only. -/
theorem append_cons_inj_of_last {α : Type} {a : α} {xs ys zs ws : List α} (hz : a ∉ zs)
    (hw : a ∉ ws) : xs ++ a :: zs = ys ++ a :: ws ↔ xs = ys ∧ zs = ws := by
  rw [← List.reverse_inj, List.reverse_append, List.reverse_append, List.reverse_cons,
    List.reverse_cons, List.append_assoc, List.append_assoc, List.singleton_append,
    List.singleton_append, append_cons_inj_of_first (by simpa using hz) (by simpa using hw),
    List.reverse_inj, List.reverse_inj, and_comm]

/-! ## §3 Names -/

/-- Whether a name is made of the characters of keys. -/
def IsPlain (name : String) : Prop :=
  ∀ c ∈ name.toList, Text.isKeyChar c = true

/-- What is no character of keys does not occur in a plain name. -/
theorem IsPlain.not_mem {name : String} (h : IsPlain name) {c : Char}
    (hc : Text.isKeyChar c = false) : c ∉ name.toList := by
  intro hmem
  simp [h c hmem] at hc

theorem IsPlain.isLine {name : String} (h : IsPlain name) : Artifact.IsLine name :=
  h.not_mem (by decide)

/-- Whether a text has only characters that identifiers go on with. -/
def IsWordText (text : String) : Prop :=
  ∀ c ∈ text.toList, IsLetter c ∨ IsDigit c ∨ c = '_'

theorem IsIdentifier.isWordText {name : String} (h : IsIdentifier name) : IsWordText name := by
  obtain ⟨c, cs, htext, hc, hcs⟩ := h
  intro d hd
  rw [htext, List.mem_cons] at hd
  rcases hd with rfl | hd
  · exact hc.imp_right .inr
  · exact hcs d hd

/-- An identifier goes on as one. -/
theorem IsIdentifier.append {name text : String} (hname : IsIdentifier name)
    (htext : IsWordText text) : IsIdentifier (name ++ text) := by
  obtain ⟨c, cs, hcons, hc, hcs⟩ := hname
  refine ⟨c, cs ++ text.toList, by simp [hcons], hc, fun d hd => ?_⟩
  exact (List.mem_append.1 hd).elim (hcs d) (htext d)

theorem IsIdentifier.isPlain {name : String} (h : IsIdentifier name) : IsPlain name :=
  fun c hc => Text.isKeyChar_of_isWord (isWord_iff.2 (h.isWordText c hc))

theorem IsIdentifier.isDottedName {name : String} (h : IsIdentifier name) : IsDottedName name := by
  refine ⟨?_, fun c hc => isKeyChar_iff.1 (h.isPlain c hc)⟩
  rintro rfl
  obtain ⟨c, cs, htext, _⟩ := h
  simp at htext

theorem IsDottedName.isPlain {name : String} (h : IsDottedName name) : IsPlain name :=
  fun c hc => isKeyChar_iff.2 (h.2 c hc)

/-- **API names as identifiers**: dashes and dots are replaced and a leading digit gets an
underscore before it, and what becomes of an API name is an identifier. -/
theorem isIdentifier_identifierOf {name : String} (h : IsDottedName name) :
    IsIdentifier (identifierOf name) := by
  have hword : ∀ c ∈ name.toList, IsLetter (identifierChar c) ∨ IsDigit (identifierChar c) ∨
      identifierChar c = '_' := by
    intro c hc
    unfold identifierChar
    split
    · exact .inr (.inr rfl)
    · rename_i hmark
      rw [not_or] at hmark
      simpa [hmark] using h.2 c hc
  unfold identifierOf
  split
  · rename_i hempty
    exact absurd (String.toList_eq_nil_iff.1 hempty) h.1
  · rename_i c cs htext
    rw [htext, List.forall_mem_cons] at hword
    by_cases hdigit : c.isDigit = true
    · refine ⟨'_', (c :: cs).map identifierChar, by simp [hdigit], .inr rfl, ?_⟩
      simpa using hword
    · refine ⟨identifierChar c, cs.map identifierChar, by simp [hdigit], ?_, ?_⟩
      · have hnot : ¬ IsDigit (identifierChar c) := by
          rw [← isDigit_iff]
          unfold identifierChar
          split
          · decide
          · exact hdigit
        simpa [hnot] using hword.1
      · simpa using hword.2

namespace Property.Valid

variable {owner : Owner} {p : Property}

theorem isIdentifier_identifier (h : p.Valid owner) : IsIdentifier p.identifier :=
  isIdentifier_identifierOf h.apiName

theorem isIdentifier_enumTypeName (h : p.Valid owner) : IsIdentifier p.enumTypeName := by
  have hsuffix : IsIdentifier "_values" := isIdentifier_iff.1 (by decide)
  exact h.isIdentifier_identifier.append hsuffix.isWordText

theorem isIdentifier_tableName (h : p.Valid owner) : IsIdentifier p.tableName := by
  have hsuffix : IsIdentifier "_list" := isIdentifier_iff.1 (by decide)
  exact h.isIdentifier_identifier.append hsuffix.isWordText

theorem isPlain_identifier (h : p.Valid owner) : IsPlain p.identifier :=
  h.isIdentifier_identifier.isPlain

theorem isPlain_key (h : p.Valid owner) : IsPlain (p.key owner) :=
  h.key.isPlain

theorem isPlain_symbol (h : p.Valid owner) (henum : p.type.isEnum = true) {symbol : String}
    (hmem : symbol ∈ p.symbols) : IsPlain symbol :=
  ((h.symbols (of_decide_eq_true henum)).1 symbol hmem).isPlain

end Property.Valid

/-- Texts without colons are found again between pairs of colons. -/
theorem intercalate_colons_inj {as bs : List String} (ha : ∀ a ∈ as, ':' ∉ a.toList)
    (hb : ∀ b ∈ bs, ':' ∉ b.toList) (hane : as ≠ []) (hbne : bs ≠ []) :
    "::".intercalate as = "::".intercalate bs ↔ as = bs := by
  refine ⟨fun h => ?_, fun h => by rw [h]⟩
  rw [← String.toList_inj, String.toList_intercalate, String.toList_intercalate] at h
  induction as generalizing bs with
  | nil => exact absurd rfl hane
  | cons a as ih =>
    cases bs with
    | nil => exact absurd rfl hbne
    | cons b bs =>
      rw [List.forall_mem_cons] at ha hb
      cases as with
      | nil =>
        cases bs with
        | nil => simpa [List.intercalate_singleton, String.toList_inj] using h
        | cons b' bs =>
          have hcolon : ':' ∈ a.toList := by
            rw [List.map_singleton, List.intercalate_singleton] at h
            simp [h, List.intercalate_cons_cons]
          exact absurd hcolon ha.1
      | cons a' as =>
        cases bs with
        | nil =>
          have hcolon : ':' ∈ b.toList := by
            rw [List.map_singleton, List.intercalate_singleton] at h
            simp [← h, List.intercalate_cons_cons]
          exact absurd hcolon hb.1
        | cons b' bs =>
          simp only [List.map_cons, List.intercalate_cons_cons, List.append_assoc] at h
          obtain ⟨hab, hrest⟩ := (append_cons_inj_of_first ha.1 hb.1).1 h
          rw [String.toList_inj] at hab
          rw [hab, ih ha.2 hb.2 (by simp) (by simp) (List.cons.inj hrest).2]

end PropSchema
