/-
PropSchema.Proofs.Schema.Spelling — whatever the grammar derives can be written.

The grammar of schemas is one of token lists, and not every token list is that of a text: a number
of more than 64 bits has no lexeme, nor has a word that is no identifier. The tokens that a
derivation consists of have one, though, and with a space in front of each of them they make a
text that declares what the derivation denotes.

§1 Tokens  — `Spellable`.
§2 Texts   — `exists_scan_of_spellable`.
§3 Schemas — `Schema.exists_text_of_isDeclaredBy`.
-/
import PropSchema.Proofs.Schema.Grammar
import PropSchema.Proofs.Token.Lexemes

namespace PropSchema

namespace Lexical

/-! ## §1 Tokens -/

/-- Whether some text is a lexeme of a token wherever it is followed by a space or by nothing. -/
def Spellable (t : Token) : Prop :=
  ∃ text, ∀ rest, NextIs (· = ' ') rest → Lexeme rest text t

theorem spellable_symbol {c : Char} {t : Token} (h : (c, t) ∈ symbols) : Spellable t :=
  ⟨[c], fun _ _ => .symbol h⟩

/-- Any text can stand between quotes, what may not stand there by itself being escaped. -/
theorem exists_body (value : List Char) : ∃ body, Body '"' body value := by
  induction value with
  | nil => exact ⟨[], .nil⟩
  | cons c value ih =>
    obtain ⟨body, hbody⟩ := ih
    by_cases hline : c = '\n'
    · exact ⟨'\\' :: 'n' :: body, .escape (by simp [hline, escapes]) hbody⟩
    · by_cases hmark : c = '\\' ∨ c = '"'
      · have hescape : (c, c) ∈ escapes := by
          rcases hmark with rfl | rfl <;> simp [escapes]
        exact ⟨'\\' :: c :: body, .escape hescape hbody⟩
      · exact ⟨c :: body, .plain ⟨hline, not_or.1 hmark⟩ hbody⟩

theorem spellable_string (value : String) : Spellable (.string value) := by
  obtain ⟨body, hbody⟩ := exists_body value.toList
  refine ⟨'"' :: (body ++ ['"']), fun rest _ => ?_⟩
  have hlexeme : Lexeme rest ('"' :: (body ++ ['"'])) (.string (String.ofList value.toList)) :=
    .string (.inl rfl) hbody
  rwa [String.ofList_toList] at hlexeme

theorem NextIs.mono {p q : Char → Prop} {cs : List Char} (h : NextIs p cs)
    (himp : ∀ c, p c → q c) : NextIs q cs :=
  fun c hc => himp c (h c hc)

theorem isInteger_signedDecimal {n : Int} (hlow : -2 ^ 63 ≤ n) (hhigh : n ≤ 2 ^ 63 - 1) :
    IsInteger (Number.signedDecimal n) n := by
  refine ⟨?_, Number.integer?_eq_some_iff.1 (Number.integer?_signedDecimal n), hlow, hhigh⟩
  intro hplus
  cases n with
  | ofNat n =>
    have hdigit := Number.isDigit_of_mem_decimal (List.mem_of_mem_head? hplus)
    exact absurd hdigit (by decide)
  | negSucc n => cases hplus

theorem spellable_integer {n : Int} (hlow : -2 ^ 63 ≤ n) (hhigh : n ≤ 2 ^ 63 - 1) :
    Spellable (.integer n) := by
  refine ⟨_, fun rest hrest => .integer (isInteger_signedDecimal hlow hhigh) (hrest.mono ?_)⟩
  rintro c rfl
  simp [IsLetter, IsDigit]

theorem spellable_word {name : String} (h : isIdentifier name = true) :
    Spellable (.word name) := by
  refine ⟨_, fun rest hrest => .word (isIdentifier_iff.1 h) (hrest.mono ?_)⟩
  rintro c rfl
  simp [IsLetter, IsDigit]

/-! ## §2 Texts -/

/-- Tokens that have lexemes are those of a text: a space in front of each lexeme keeps it from
going on into the next. -/
theorem exists_cut {ts : List Token} (h : ∀ t ∈ ts, Spellable t) (before : List Char) :
    ∃ text items finish, Cut before text items finish ∧ Grammar.tokens items = ts ∧
      NextIs (· = ' ') text := by
  induction ts generalizing before with
  | nil => exact ⟨[], [], _, .finish .nil, rfl, by simp [NextIs]⟩
  | cons t ts ih =>
    obtain ⟨ht, hts⟩ := List.forall_mem_cons.1 h
    obtain ⟨text, hlexeme⟩ := ht
    obtain ⟨rest, items, finish, hcut, htokens, hrest⟩ := ih hts (before ++ [' '] ++ text)
    have hgap : Gap (text ++ rest) [' '] := .blank (by simp) .nil
    exact ⟨_, _, finish, .lexeme hgap (hlexeme rest hrest) hcut, by rw [Grammar.tokens_cons, htokens],
      by simp [NextIs]⟩

theorem exists_scan_of_spellable {ts : List Token} (h : ∀ t ∈ ts, Spellable t) :
    ∃ text sequence, scan text = .ok sequence ∧ Grammar.tokens sequence.items = ts := by
  obtain ⟨text, items, finish, hcut, htokens, _⟩ := exists_cut h []
  refine ⟨String.ofList text, ⟨items, finish⟩, ?_, htokens⟩
  rw [scan_eq_ok_iff, String.toList_ofList]
  exact hcut

end Lexical

/-! ## §3 Schemas -/

namespace Grammar

open Lexical

theorem spellable_colon : Spellable .colon :=
  spellable_symbol (c := ':') (by simp [symbols])

theorem Separator.spellable {sep : List Token} (h : Separator sep) : ∀ t ∈ sep, Spellable t := by
  cases h with
  | none => simp
  | comma => simpa using spellable_symbol (c := ',') (by simp [symbols])
  | semicolon => simpa using spellable_symbol (c := ';') (by simp [symbols])

theorem Strings.spellable {ts : List Token} {value : String} (h : Strings ts value) :
    ∀ t ∈ ts, Spellable t := by
  obtain ⟨values, _, rfl, _⟩ := h
  intro t ht
  obtain ⟨value, _, rfl⟩ := List.mem_map.1 ht
  exact spellable_string value

/-- A constant's name is an identifier, and its place is small. -/
theorem Constant.spellable {α : Type} [Vocabulary α] {t : Token} {c : α}
    (hnames : ∀ c : α, isIdentifier (Vocabulary.name c) = true)
    (hplaces : (Vocabulary.constants : List α).length ≤ 2 ^ 63) (h : Constant t c) :
    Spellable t := by
  cases h with
  | name => exact spellable_word (hnames c)
  | @place i _ hi =>
    obtain ⟨hlt, _⟩ := List.getElem?_eq_some_iff.1 hi
    exact spellable_integer (by omega) (by omega)

theorem Boolean.spellable {t : Token} {b : Bool} (h : Boolean t b) : Spellable t := by
  cases h with
  | @yes name hname =>
    have hidentifier : ∀ name ∈ ["true", "True", "t"], isIdentifier name = true := by decide
    exact spellable_word (hidentifier name hname)
  | @no name hname =>
    have hidentifier : ∀ name ∈ ["false", "False", "f"], isIdentifier name = true := by decide
    exact spellable_word (hidentifier name hname)
  | one => exact spellable_integer (by decide) (by decide)
  | zero => exact spellable_integer (by decide) (by decide)

/-- A field's name and its colon can be written, so the field can if its value can. -/
theorem spellable_field {name : String} (hname : isIdentifier name = true) {ts : List Token}
    (h : ∀ t ∈ ts, Spellable t) : ∀ t ∈ .word name :: .colon :: ts, Spellable t :=
  List.forall_mem_cons.2 ⟨spellable_word hname, List.forall_mem_cons.2 ⟨spellable_colon, h⟩⟩

theorem PropField.spellable {ts : List Token} {a : Assignment} (h : PropField ts a) :
    ∀ t ∈ ts, Spellable t := by
  cases h with
  | apiName h => exact spellable_field (by decide) h.spellable
  | propName h => exact spellable_field (by decide) h.spellable
  | enumValues h => exact spellable_field (by decide) h.spellable
  | type h =>
    have hnames (c : ValueType) : isIdentifier (Vocabulary.name c) = true := by
      obtain ⟨kind, isList⟩ := c
      cases kind <;> cases isList <;> decide
    exact spellable_field (by decide) (by simpa using h.spellable hnames (by decide))
  | access h =>
    have hnames (c : Access) : isIdentifier (Vocabulary.name c) = true := by
      cases c <;> decide
    exact spellable_field (by decide) (by simpa using h.spellable hnames (by decide))
  | scope h =>
    have hnames (c : Scope) : isIdentifier (Vocabulary.name c) = true := by
      cases c <;> decide
    exact spellable_field (by decide) (by simpa using h.spellable hnames (by decide))
  | integerAsBool h => exact spellable_field (by decide) (by simpa using h.spellable)

theorem Sequence.spellable {α : Type} {Member : List Token → α → Prop}
    (hmember : ∀ ts a, Member ts a → ∀ t ∈ ts, Spellable t) {ts : List Token} {as : List α}
    (h : Sequence Member ts as) : ∀ t ∈ ts, Spellable t := by
  induction h with
  | nil => simp
  | cons head separator _ ih =>
    exact List.forall_mem_append.2 ⟨hmember _ _ head,
      List.forall_mem_append.2 ⟨separator.spellable, ih⟩⟩

theorem Block.spellable {ts : List Token} {as : List Assignment} (h : Block ts as) :
    ∀ t ∈ ts, Spellable t := by
  obtain ⟨fields, _⟩ := h
  refine List.forall_mem_cons.2 ⟨spellable_symbol (c := '\x7b') (by simp [symbols]),
    List.forall_mem_append.2 ⟨fields.spellable fun _ _ => PropField.spellable, ?_⟩⟩
  simpa using spellable_symbol (c := '\x7d') (by simp [symbols])

theorem Field.spellable {ts : List Token} {e : Entry} (h : Field ts e) :
    ∀ t ∈ ts, Spellable t := by
  cases h with
  | owner h =>
    have hnames (c : Owner) : isIdentifier (Vocabulary.name c) = true := by
      cases c <;> decide
    exact spellable_field (by decide) (by simpa using h.spellable hnames (by decide))
  | modulePath h => exact spellable_field (by decide) h.spellable
  | prop h => exact List.forall_mem_cons.2 ⟨spellable_word (by decide), h.spellable⟩
  | propColon h => exact spellable_field (by decide) h.spellable

end Grammar

/-- **Whatever is derivable can be written**: some text is cut into just these tokens, and it
declares the schema that they denote. -/
theorem Schema.exists_text_of_isDeclaredBy {s : Schema} {ts : List Token}
    (h : s.IsDeclaredBy ts) :
    ∃ text sequence, scan text = .ok sequence ∧ Grammar.tokens sequence.items = ts ∧
      ofText text = .ok s := by
  obtain ⟨es, hfields, _⟩ := id h
  obtain ⟨text, sequence, hscan, htokens⟩ := Lexical.exists_scan_of_spellable
    (hfields.spellable fun _ _ => Grammar.Field.spellable)
  exact ⟨text, sequence, hscan, htokens, ofText_eq_ok_iff.2 ⟨sequence, hscan, htokens ▸ h⟩⟩

end PropSchema
