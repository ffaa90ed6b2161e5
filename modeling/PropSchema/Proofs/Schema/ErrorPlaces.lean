/-
PropSchema.Proofs.Schema.ErrorPlaces — a syntax error is at the first token that is wrong.

Tokens are viable if some text that declares a schema begins with them. A reader that fails has
come as far as tokens are viable: what is before the place that its error names can still become
what the reader is for, and with the token at that place it cannot, whatever follows. The one
exception is a text that ends between the fields of a property block. Such tokens are all viable,
and the error names the brace that has none to close it.

What can become of the tokens before the place is given by the grammar. That nothing can become of
them with the next one is by the readers: one that fails looks no further than that token, so it
fails on all texts that begin so.

§1 Viability — `Schema.IsViable`.
§2 Failures  — `Construct.Fails`.
§3 Values    — a colon and a value.
§4 Blocks    — the fields of a property, and the braces around them.
§5 Schemas   — `Schema.error_position`.
-/
import PropSchema.Proofs.Number.Numerals
import PropSchema.Proofs.Schema.Locality
import PropSchema.Proofs.Schema.Spelling

namespace PropSchema

/-! ## §1 Viability -/

namespace Schema

/-- Whether tokens are those of a text that declares a schema. -/
def IsAccepted (ts : List Token) : Prop :=
  ∃ text sequence s, scan text = .ok sequence ∧ ofText text = .ok s ∧
    Grammar.tokens sequence.items = ts

/-- Whether tokens are the first ones of a text that declares a schema. -/
def IsViable (ts : List Token) : Prop :=
  ∃ us, IsAccepted (ts ++ us)

theorem isAccepted_iff {ts : List Token} : IsAccepted ts ↔ ∃ s : Schema, s.IsDeclaredBy ts := by
  constructor
  · rintro ⟨text, sequence, s, hscan, hs, rfl⟩
    obtain ⟨sequence', hscan', hdeclared⟩ := ofText_eq_ok_iff.1 hs
    obtain rfl := Except.ok.inj (hscan.symm.trans hscan')
    exact ⟨s, hdeclared⟩
  · rintro ⟨s, hdeclared⟩
    obtain ⟨text, sequence, hscan, htokens, hs⟩ := exists_text_of_isDeclaredBy hdeclared
    exact ⟨text, sequence, s, hscan, hs, htokens⟩

end Schema

/-- A place is written as its line and its column, both in decimal. -/
theorem Position.text_eq (p : Position) :
    p.text = toString p.line ++ ":" ++ toString p.column := by
  rw [text, Number.decimalText_eq_toString, Number.decimalText_eq_toString]

/-- The place that a syntax error names. -/
def SyntaxError.position : SyntaxError → Position
  | .unexpected _ _ position => position
  | .expectedField _ position => position
  | .unknownField _ _ position => position
  | .repeatedField _ position => position
  | .unknownConstant _ _ position => position
  | .badBoolean _ _ position => position
  | .unterminatedBlock opening => opening

/-- Every message ends with the place. -/
theorem SyntaxError.exists_message_eq (e : SyntaxError) :
    ∃ lead, e.message = lead ++ " at " ++ e.position.text := by
  -- where a literal ends with the word, the lead takes the rest of the literal
  have hsplit (rest : String) {literal : String} (h : literal = rest ++ " at ")
      (lead place : String) :
      lead ++ literal ++ place = lead ++ rest ++ " at " ++ place := by
    simp only [h, String.append_assoc]
  cases e with
  | unexpected => exact ⟨_, rfl⟩
  | expectedField => exact ⟨_, rfl⟩
  | unknownField => exact ⟨_, hsplit "\"" (by decide) _ _⟩
  | repeatedField =>
    exact ⟨_, hsplit "\" is specified multiple times" (by decide) _ _⟩
  | unknownConstant => exact ⟨_, hsplit "\"" (by decide) _ _⟩
  | badBoolean => exact ⟨_, hsplit "\"" (by decide) _ _⟩
  | unterminatedBlock =>
    have hlead : "Unterminated prop block starting at " =
        "Unterminated prop block starting" ++ " at " := by decide
    exact ⟨_, congrArg (· ++ Position.text _) hlead⟩

namespace Grammar

/-! ## §2 Failures -/

/-- What a reader is for: the tokens from which it is read, with anything behind it, the tokens
that it consists of, and those that end in it between the fields of a block, with the place of the
block. -/
structure Construct where
  IsRead : List Located → Prop
  IsWhole : List Token → Prop
  IsOpen : List Located → Position → Prop

namespace Construct

/-- How the reader of a construct fails between the tokens before a place and those after it: the
error names the place, the tokens before it may be the first ones of the construct, and if there
is a token at the place, the construct is not read from any tokens that are the same up to it. The
error may name another place where the tokens end in a block. -/
structure FailsAt (c : Construct) (finish : Position) (before after : List Located)
    (e : SyntaxError) : Prop where
  place : e.position = nextPosition finish after ∨
    after = [] ∧ ∃ opening, e = .unterminatedBlock opening ∧ c.IsOpen before opening
  viable : ∃ us, c.IsWhole (tokens before ++ us)
  refused : ∀ t us other, (tokens after).head? = some t →
    tokens other = tokens before ++ t :: us → ¬ c.IsRead other

/-- Whether the reader of a construct fails on tokens in that way. -/
def Fails (c : Construct) (finish : Position) (ts : List Located) (e : SyntaxError) : Prop :=
  ∃ before after, ts = before ++ after ∧ c.FailsAt finish before after e

variable {c d : Construct} {finish : Position} {ts : List Located} {e : SyntaxError}

/-- A failure on the first token. -/
theorem fails_here (hplace : e.position = nextPosition finish ts) (hviable : ∃ us, c.IsWhole us)
    (hrefused : ∀ t us other, (tokens ts).head? = some t → tokens other = t :: us →
      ¬ c.IsRead other) : c.Fails finish ts e :=
  ⟨[], ts, rfl, .inl hplace, hviable, hrefused⟩

/-- A failure in a part of a construct is one in the construct: what comes before the part has to
be taken from all other tokens in the same way, as far as the part begins with the same token. -/
theorem Fails.behind (h : d.Fails finish ts e) (front : List Located)
    (hwhole : ∀ us, d.IsWhole us → ∃ vs, c.IsWhole (tokens front ++ (us ++ vs)))
    (hopen : ∀ us opening, d.IsOpen us opening → c.IsOpen (front ++ us) opening)
    (hread : ∀ other vs, tokens other = tokens front ++ vs → vs.head? = (tokens ts).head? →
      c.IsRead other → ∃ other', tokens other' = vs ∧ d.IsRead other') :
    c.Fails finish (front ++ ts) e := by
  obtain ⟨before, after, rfl, hplace, ⟨us, hus⟩, hrefused⟩ := h
  refine ⟨front ++ before, after, (List.append_assoc ..).symm, ?_, ?_, ?_⟩
  · refine hplace.imp_right ?_
    rintro ⟨hend, opening, rfl, hbefore⟩
    exact ⟨hend, opening, rfl, hopen before opening hbefore⟩
  · obtain ⟨vs, hvs⟩ := hwhole _ hus
    exact ⟨us ++ vs, by simpa [tokens_append] using hvs⟩
  · intro t vs other ht hother hc
    rw [tokens_append, List.append_assoc] at hother
    have hhead : (tokens before ++ t :: vs).head? = (tokens (before ++ after)).head? := by
      rw [tokens_append, List.head?_append, List.head?_append, ht]
      rfl
    obtain ⟨other', hother', hd⟩ := hread other _ hother hhead hc
    exact hrefused t vs other' ht hother' hd

/-- A failure behind a field that is read, with its name and what separates it from what is behind
it. -/
theorem Fails.behindField {α : Type} {read : Position → List Located → Reading α}
    (hlocal : IsLocal read) {name : String} {next : Located} (hname : next.token = .word name)
    {mid : List Located} {a : α} {us : List Token} (ha : read finish ts = .ok (a, mid))
    (hts : tokens ts = us ++ tokens mid) (h : d.Fails finish (skipSeparator mid) e)
    (hwhole : ∀ sep ws, Separator sep → d.IsWhole ws → c.IsWhole (.word name :: us ++ (sep ++ ws)))
    (hopen : ∀ front sep ws place, tokens front = .word name :: us ++ sep → Separator sep →
      d.IsOpen ws place → c.IsOpen (front ++ ws) place)
    (hread : ∀ other vs, tokens other = .word name :: vs → c.IsRead other →
      ∃ body finish b mid, tokens body = vs ∧ read finish body = .ok (b, mid) ∧
        d.IsRead (skipSeparator mid)) :
    c.Fails finish (next :: ts) e := by
  obtain ⟨front, rfl, ⟨sep, hsep, hfront⟩, hagain⟩ := hlocal.withSeparator ha hts
  have htokens : tokens (next :: front) = .word name :: us ++ sep := by
    rw [tokens_cons, hname, hfront]
    rfl
  refine h.behind (next :: front) ?_ ?_ ?_
  · intro ws hws
    refine ⟨[], ?_⟩
    rw [htokens, List.append_nil, List.append_assoc]
    exact hwhole sep ws hsep hws
  · exact fun ws place => hopen (next :: front) sep ws place htokens hsep
  · intro other vs hother hhead hc
    rw [tokens_cons, hname] at hother
    obtain ⟨body, finish', b, mid', hbody, hb, hd⟩ := hread other _ hother hc
    obtain ⟨mid'', ha', hmid⟩ := hagain finish' body vs hbody hhead
    obtain ⟨rfl, rfl⟩ := Prod.mk.inj (Except.ok.inj (hb.symm.trans ha'))
    exact ⟨_, hmid, hd⟩

end Construct

open Construct

/-! ## §3 Values -/

theorem expect_error {finish : Position} {t : Token} {ts : List Located} {e : SyntaxError}
    (h : expect finish t ts = .error e) :
    (tokens ts).head? ≠ some t ∧ e.position = nextPosition finish ts := by
  cases ts with
  | nil =>
    obtain rfl := Except.error.inj h
    exact ⟨by simp [tokens], rfl⟩
  | cons next ts =>
    rw [expect] at h
    split at h
    · cases h
    · rename_i hne
      obtain rfl := Except.error.inj h
      exact ⟨fun heq => hne (Option.some.inj heq), rfl⟩

/-- Where a reader of values fails: at what should be the colon, or at the first token behind it. -/
def IsAtValue (finish : Position) (ts : List Located) (e : SyntaxError) : Prop :=
  ((tokens ts).head? ≠ some .colon ∧ e.position = nextPosition finish ts) ∨
    ∃ position rest, ts = ⟨.colon, position⟩ :: rest ∧ e.position = nextPosition finish rest

theorem isAtValue_of_expect {finish : Position} {ts : List Located} {e : SyntaxError}
    (h : expect finish .colon ts = .error e) : IsAtValue finish ts e :=
  .inl (expect_error h)

variable {α : Type} {c : Construct} {finish : Position} {ts : List Located} {e : SyntaxError}

/-- A value fails at its colon or at its first token, which tells whether there is one. -/
theorem fails_of_isAtValue (Starts : Token → Prop) (hplace : IsAtValue finish ts e)
    (hnone : ∀ t us, tokens ts = .colon :: t :: us → ¬ Starts t)
    (hviable : ∃ us, c.IsWhole (.colon :: us))
    (hread : ∀ other, c.IsRead other → ∃ t us, tokens other = .colon :: t :: us ∧ Starts t) :
    c.Fails finish ts e := by
  rcases hplace with ⟨hcolon, hplace⟩ | ⟨position, rest, rfl, hplace⟩
  · obtain ⟨us, hus⟩ := hviable
    refine fails_here hplace ⟨_, hus⟩ fun t us other ht hother hc => ?_
    obtain ⟨_, _, hother', _⟩ := hread other hc
    obtain ⟨rfl, _⟩ := List.cons.inj (hother.symm.trans hother')
    exact hcolon ht
  · refine ⟨[⟨.colon, position⟩], rest, rfl, .inl hplace, hviable, ?_⟩
    intro t us other ht hother hc
    obtain ⟨t', _, hother', hstarts⟩ := hread other hc
    obtain ⟨_, htail⟩ := List.cons.inj (hother.symm.trans hother')
    obtain ⟨rfl, _⟩ := List.cons.inj htail
    obtain ⟨vs, hvs⟩ := List.head?_eq_some_iff.1 ht
    exact hnone t vs (congrArg (Token.colon :: ·) hvs) hstarts

theorem isAtValue_of_readString (h : readString finish ts = .error e) : IsAtValue finish ts e := by
  unfold readString at h
  split at h
  · rename_i hcolon
    obtain rfl := Except.error.inj h
    exact isAtValue_of_expect hcolon
  · rename_i rest hcolon
    obtain ⟨position, rfl⟩ := expect_eq_ok_iff.1 hcolon
    split at h
    · obtain rfl := Except.error.inj h
      exact .inr ⟨position, rest, rfl, rfl⟩
    · cases h

theorem isAtValue_of_readConstant [Vocabulary α] {field : String}
    (h : (readConstant finish field ts : Reading α) = .error e) : IsAtValue finish ts e := by
  unfold readConstant at h
  split at h
  · rename_i hcolon
    obtain rfl := Except.error.inj h
    exact isAtValue_of_expect hcolon
  · rename_i rest hcolon
    obtain ⟨position, rfl⟩ := expect_eq_ok_iff.1 hcolon
    refine .inr ⟨position, rest, rfl, ?_⟩
    split at h
    · split at h
      · cases h
      · obtain rfl := Except.error.inj h
        rfl
    · split at h
      · cases h
      · obtain rfl := Except.error.inj h
        rfl
    · obtain rfl := Except.error.inj h
      rfl

theorem isAtValue_of_readBoolean {field : String} (h : readBoolean finish field ts = .error e) :
    IsAtValue finish ts e := by
  unfold readBoolean at h
  split at h
  · rename_i hcolon
    obtain rfl := Except.error.inj h
    exact isAtValue_of_expect hcolon
  · rename_i hcolon
    obtain ⟨position, rfl⟩ := expect_eq_ok_iff.1 hcolon
    obtain rfl := Except.error.inj h
    exact .inr ⟨position, [], rfl, rfl⟩
  · rename_i next rest hcolon
    obtain ⟨position, rfl⟩ := expect_eq_ok_iff.1 hcolon
    split at h
    · cases h
    · obtain rfl := Except.error.inj h
      exact .inr ⟨position, next :: rest, rfl, rfl⟩

theorem fails_string (h : readString finish ts = .error e)
    (hviable : ∃ us, c.IsWhole (.colon :: us))
    (hread : ∀ other, c.IsRead other → ∃ finish v, readString finish other = .ok v) :
    c.Fails finish ts e := by
  have hstarts (value : String) (us : List Token)
      (hts : tokens ts = .colon :: .string value :: us) : False := by
    obtain ⟨colon, rest, rfl, hrest⟩ := exists_of_tokens_cons hts
    obtain ⟨place, rest, rfl, _⟩ := exists_of_tokens_cons hrest
    simp [readString, expect, literals] at h
  refine fails_of_isAtValue (fun t => ∃ value, t = .string value)
    (isAtValue_of_readString h) ?_ hviable fun other hc => ?_
  · rintro _ us hts ⟨value, rfl⟩
    exact hstarts value us hts
  · obtain ⟨_, ⟨_, rest⟩, hother⟩ := hread other hc
    obtain ⟨us, ⟨values, hne, rfl, _⟩, hus⟩ := readString_sound hother
    obtain ⟨value, values, rfl⟩ := List.exists_cons_of_ne_nil hne
    exact ⟨_, _, hus, value, rfl⟩

theorem fails_constant [Vocabulary α] {field : String}
    (hnames : ∀ c : α, Vocabulary.ofName? (Vocabulary.name c) = some c)
    (h : (readConstant finish field ts : Reading α) = .error e)
    (hviable : ∃ us, c.IsWhole (.colon :: us))
    (hread : ∀ other, c.IsRead other →
      ∃ finish v, (readConstant finish field other : Reading α) = .ok v) :
    c.Fails finish ts e := by
  refine fails_of_isAtValue (fun t => ∃ a : α, Constant t a)
    (isAtValue_of_readConstant h) ?_ hviable fun other hc => ?_
  · rintro t us hts ⟨a, ha⟩
    obtain ⟨rest, hok, _⟩ : ∃ rest, readConstant finish field ts = .ok (a, rest) ∧
        tokens rest = us :=
      readConstant_complete hnames ha hts
    cases h.symm.trans hok
  · obtain ⟨_, ⟨a, rest⟩, hother⟩ := hread other hc
    obtain ⟨t, ht, hts⟩ := readConstant_sound hother
    exact ⟨t, _, hts, a, ht⟩

theorem fails_boolean {field : String} (h : readBoolean finish field ts = .error e)
    (hviable : ∃ us, c.IsWhole (.colon :: us))
    (hread : ∀ other, c.IsRead other → ∃ finish v, readBoolean finish field other = .ok v) :
    c.Fails finish ts e := by
  refine fails_of_isAtValue (fun t => ∃ b, Boolean t b)
    (isAtValue_of_readBoolean h) ?_ hviable fun other hc => ?_
  · rintro t us hts ⟨b, hb⟩
    obtain ⟨rest, hok, _⟩ : ∃ rest, readBoolean finish field ts = .ok (b, rest) ∧
        tokens rest = us :=
      readBoolean_complete hb hts
    cases h.symm.trans hok
  · obtain ⟨_, ⟨b, rest⟩, hother⟩ := hread other hc
    obtain ⟨t, ht, hts⟩ := readBoolean_sound hother
    exact ⟨t, _, hts, b, ht⟩

theorem error_of_map {ε β γ : Type} {r : Except ε β} {f : β → γ} {e : ε}
    (h : r.map f = .error e) : r = .error e := by
  cases r with
  | error e' => exact congrArg Except.error (Except.error.inj h)
  | ok b => cases h

theorem exists_ok_of_map {β γ : Type} {read : Position → Except SyntaxError β} {f : β → γ}
    (h : ∃ finish v, (read finish).map f = .ok v) : ∃ finish v, read finish = .ok v := by
  obtain ⟨finish, v, hv⟩ := h
  cases hread : read finish with
  | error e => simp [hread, Except.map] at hv
  | ok b => exact ⟨finish, b, hread⟩

theorem strings_empty : Strings [.string ""] "" :=
  ⟨[""], by simp, rfl, by decide⟩

/-! ## §4 Blocks -/

/-- What follows the name of a field of a block. -/
def assignment (f : PropertyField) : Construct where
  IsRead ts := ∃ finish v, readAssignment finish f ts = .ok v
  IsWhole us := ∃ a, a.field = f ∧ PropField (.word f.name :: us) a
  IsOpen _ _ := False

theorem fails_assignment {f : PropertyField} (h : readAssignment finish f ts = .error e) :
    (assignment f).Fails finish ts e := by
  cases f with
  | apiName =>
    exact fails_string (error_of_map h) ⟨_, _, rfl, .apiName strings_empty⟩
      fun _ => exists_ok_of_map
  | propName =>
    exact fails_string (error_of_map h) ⟨_, _, rfl, .propName strings_empty⟩
      fun _ => exists_ok_of_map
  | enumValues =>
    exact fails_string (error_of_map h) ⟨_, _, rfl, .enumValues strings_empty⟩
      fun _ => exists_ok_of_map
  | type =>
    exact fails_constant ValueType.ofName?_name (error_of_map h)
      ⟨_, _, rfl, .type (.name ⟨.boolean, false⟩)⟩ fun _ => exists_ok_of_map
  | access =>
    exact fails_constant Access.ofName?_name (error_of_map h)
      ⟨_, _, rfl, .access (.name .readonly)⟩ fun _ => exists_ok_of_map
  | scope =>
    exact fails_constant Scope.ofName?_name (error_of_map h)
      ⟨_, _, rfl, .scope (.name .exported)⟩ fun _ => exists_ok_of_map
  | integerAsBool =>
    exact fails_boolean (error_of_map h) ⟨_, _, rfl, .integerAsBool .zero⟩
      fun _ => exists_ok_of_map

/-- What follows the brace of a block, or a field of it, where the fields seen may not occur
again. -/
def block (opening : Position) (seen : List PropertyField) : Construct where
  IsRead ts := ∃ finish opening v, readBlock finish opening seen ts = .ok v
  IsWhole us := ∃ fields as, us = fields ++ [.closeBrace] ∧ Sequence PropField fields as ∧
    ∀ f, (as.map Assignment.field ++ seen).count f ≤ 1
  IsOpen ts place := place = opening ∧ ∃ as, Sequence PropField (tokens ts) as

/-- What a block that is not read begins with: something that is neither its closing brace nor a
new field, or a field behind which it fails. -/
theorem readBlock_error_cases {opening : Position} {seen : List PropertyField} {next : Located}
    (h : readBlock finish opening seen (next :: ts) = .error e) :
    (e.position = next.position ∧ next.token ≠ .closeBrace ∧
        ∀ f : PropertyField, next.token = .word f.name → f ∈ seen) ∨
      ∃ f : PropertyField, next.token = .word f.name ∧ f ∉ seen ∧
        (readAssignment finish f ts = .error e ∨
          ∃ a mid, readAssignment finish f ts = .ok (a, mid) ∧
            readBlock finish opening (f :: seen) (skipSeparator mid) = .error e) := by
  rw [readBlock] at h
  split at h
  · cases h
  · rename_i name hname
    split at h
    · rename_i hnone
      obtain rfl := Except.error.inj h
      refine .inl ⟨rfl, by simp [hname], fun f hf => ?_⟩
      obtain rfl := Token.word.inj (hname.symm.trans hf)
      simp [ofName?_name] at hnone
    · rename_i f hf
      have hfield := ofName?_eq_some hf
      split at h
      · rename_i hold
        obtain rfl := Except.error.inj h
        refine .inl ⟨rfl, by simp [hname], fun g hg => ?_⟩
        obtain rfl := Token.word.inj (hname.symm.trans hg)
        obtain rfl := Option.some.inj ((ofName?_name g).symm.trans hf)
        exact hold
      · rename_i hnew
        refine .inr ⟨f, by rw [hname, hfield], hnew, ?_⟩
        split at h
        · rename_i e' he
          obtain rfl := Except.error.inj h
          exact .inl he
        · rename_i a mid ha
          exact .inr ⟨a, mid, ha, error_of_map h⟩
  · rename_i hbrace hword
    obtain rfl := Except.error.inj h
    exact .inl ⟨rfl, hbrace, fun f hf => absurd hf (hword f.name)⟩

theorem fieldName_injective {f g : PropertyField} (h : f.name = g.name) : f = g := by
  have hname := ofName?_name f
  rw [h, ofName?_name g] at hname
  exact (Option.some.inj hname).symm

/-- What a block that is read begins with, if it begins with the name of a field. -/
theorem exists_of_readBlock {opening : Position} {seen : List PropertyField} {f : PropertyField}
    {other : List Located} {vs : List Token} (hother : tokens other = .word f.name :: vs)
    (h : (block opening seen).IsRead other) :
    ∃ body finish a mid, tokens body = vs ∧ readAssignment finish f body = .ok (a, mid) ∧
      (block opening (f :: seen)).IsRead (skipSeparator mid) := by
  obtain ⟨place, body, rfl, hbody⟩ := exists_of_tokens_cons hother
  obtain ⟨finish, opening', ⟨as, rest⟩, hread⟩ := h
  rcases readBlock_cons_cases hread with ⟨hbrace, _, _⟩ | ⟨g, a, mid, others, hg, _, ha, hothers, _⟩
  · cases hbrace
  · obtain rfl := fieldName_injective (Token.word.inj hg)
    exact ⟨body, finish, a, mid, hbody, ha, finish, opening', _, hothers⟩

section
variable {opening : Position} {seen : List PropertyField} {next : Located}

/-- A block fails on a field where the field does: the field is otherwise its last one. -/
theorem Construct.Fails.inAssignment {f : PropertyField} (hname : next.token = .word f.name)
    (hseen : ∀ g, (f :: seen).count g ≤ 1) (h : (assignment f).Fails finish ts e) :
    (block opening seen).Fails finish (next :: ts) e := by
  refine h.behind [next] ?_ ?_ ?_
  · rintro us ⟨a, rfl, ha⟩
    refine ⟨[.closeBrace], _, [a], ?_, .cons ha .none .nil, fun g => ?_⟩
    · simp [tokens, hname]
    · rw [List.map_cons, ← count_cons_append]
      exact hseen g
  · exact fun us place hopen => hopen.elim
  · intro other vs hother _ hread
    rw [tokens_cons, hname] at hother
    obtain ⟨body, finish', a, mid, hbody, ha, _⟩ := exists_of_readBlock hother hread
    exact ⟨body, hbody, finish', _, ha⟩

/-- And behind a field where the rest of the block does. -/
theorem Construct.Fails.behindAssignment {f : PropertyField} (hname : next.token = .word f.name)
    {a : Assignment} {mid : List Located} (ha : readAssignment finish f ts = .ok (a, mid))
    (h : (block opening (f :: seen)).Fails finish (skipSeparator mid) e) :
    (block opening seen).Fails finish (next :: ts) e := by
  obtain ⟨rfl, us, hus, hts⟩ := readAssignment_sound ha
  refine h.behindField (isLocal_readAssignment a.field) hname ha hts ?_ ?_
    fun other vs => exists_of_readBlock
  · rintro sep _ hsep ⟨fields, as, rfl, hfields, honce⟩
    refine ⟨_, a :: as, ?_, .cons hus hsep hfields, fun g => ?_⟩
    · simp
    · rw [List.map_cons, ← count_cons_append]
      exact honce g
  · rintro front sep ws place hfront hsep ⟨rfl, as, hws⟩
    refine ⟨rfl, a :: as, ?_⟩
    rw [tokens_append, hfront, List.append_assoc]
    exact .cons hus hsep hws

theorem fails_block (h : readBlock finish opening seen ts = .error e)
    (hseen : ∀ f, seen.count f ≤ 1) : (block opening seen).Fails finish ts e := by
  induction hn : ts.length using Nat.strongRecOn generalizing ts seen with
  | _ n ih =>
    cases ts with
    | nil =>
      obtain rfl : .unterminatedBlock opening = e := by
        rw [readBlock] at h
        exact Except.error.inj h
      exact ⟨[], [], rfl, .inr ⟨rfl, opening, rfl, rfl, [], .nil⟩,
        ⟨[.closeBrace], [], [], rfl, .nil, hseen⟩, fun t us other ht => by cases ht⟩
    | cons next ts =>
      rcases readBlock_error_cases h with ⟨hplace, hbrace, hfield⟩ | ⟨f, hname, hnew, herror⟩
      · refine fails_here hplace ⟨[.closeBrace], [], [], rfl, .nil, hseen⟩ ?_
        rintro t us other ht hother ⟨finish', opening', ⟨as, rest⟩, hread⟩
        obtain rfl := Option.some.inj ht
        obtain ⟨place, body, rfl, _⟩ := exists_of_tokens_cons hother
        rcases readBlock_cons_cases hread with ⟨hbrace', _⟩ | ⟨f, _, _, _, hf, hnew, _⟩
        · exact hbrace hbrace'
        · exact hnew (hfield f hf)
      · have hseen' (g : PropertyField) : (f :: seen).count g ≤ 1 := by
          refine count_cons_le_one (hseen g) ?_
          rintro rfl
          exact hnew
        rcases herror with herror | ⟨a, mid, ha, herror⟩
        · exact (fails_assignment herror).inAssignment hname hseen'
        · have hlt := length_readAssignment ha
          have hle := length_skipSeparator mid
          rw [List.length_cons] at hn
          have hrest := ih (skipSeparator mid).length (by omega) herror hseen' rfl
          exact hrest.behindAssignment hname ha

end

/-- A block with its braces. -/
def braces : Construct where
  IsRead ts := ∃ us vs as, Block us as ∧ tokens ts = us ++ vs
  IsWhole us := ∃ as, Block us as
  IsOpen ts opening := ∃ inside as, ts = ⟨.openBrace, opening⟩ :: inside ∧
    Sequence PropField (tokens inside) as

theorem Block.openBrace {us : List Token} {as : List Assignment} (h : Block us as) :
    ∃ fields, us = .openBrace :: (fields ++ [.closeBrace]) ∧ Sequence PropField fields as ∧
      ∀ f, (as.map Assignment.field).count f ≤ 1 := by
  obtain ⟨hfields, honce⟩ := h
  exact ⟨_, rfl, hfields, honce⟩

theorem fails_braces (h : readProperty finish ts = .error e) :
    braces.Fails finish (dropIf .colon ts) e := by
  simp only [readProperty] at h
  generalize dropIf .colon ts = ts at h ⊢
  split at h
  · rename_i e' hbrace
    obtain rfl := Except.error.inj h
    obtain ⟨hne, hplace⟩ := expect_error hbrace
    refine fails_here hplace ⟨_, [], .braces .nil (by simp)⟩ ?_
    rintro t us other ht hother ⟨_, vs, as, hblock, htokens⟩
    obtain ⟨fields, rfl, _⟩ := hblock.openBrace
    obtain ⟨rfl, _⟩ := List.cons.inj (hother.symm.trans htokens)
    exact hne ht
  · rename_i rest hbrace
    obtain ⟨opening, rfl⟩ := expect_eq_ok_iff.1 hbrace
    have hblock := fails_block h (by simp)
    refine hblock.behind [⟨.openBrace, opening⟩] ?_ ?_ ?_
    · rintro _ ⟨fields, as, rfl, hfields, honce⟩
      refine ⟨[], as, ?_⟩
      rw [List.append_nil]
      exact .braces hfields (by simpa using honce)
    · rintro inside _ ⟨rfl, as, hinside⟩
      exact ⟨inside, as, rfl, hinside⟩
    · rintro other vs hother _ ⟨_, ws, as, hread, htokens⟩
      obtain ⟨fields, rfl, hfields, honce⟩ := hread.openBrace
      obtain ⟨place, body, rfl, hbody⟩ := exists_of_tokens_cons hother
      have hfront : tokens body = fields ++ [.closeBrace] ++ ws := (List.cons.inj htokens).2
      rw [List.append_assoc] at hfront
      obtain ⟨rest', hok, _⟩ : ∃ rest', readBlock finish place [] body = .ok (as, rest') ∧
          tokens rest' = ws :=
        readBlock_complete hfields (by simpa using honce) hfront
      exact ⟨body, hbody, finish, place, _, hok⟩

/-! ## §5 Schemas -/

/-- Whether tokens end between the fields of a block, with the place of its brace: a colon may
stand in front of the brace, and behind it there are only whole fields. -/
def EndsInBody (ts : List Located) (opening : Position) : Prop :=
  ∃ colon inside as, ts = colon ++ ⟨.openBrace, opening⟩ :: inside ∧
    (tokens colon = [] ∨ tokens colon = [.colon]) ∧ Sequence PropField (tokens inside) as

/-- Whether a text ends between the fields of a property block, with the place of its brace. -/
def EndsInBlock (ts : List Located) (opening : Position) : Prop :=
  ∃ front body es, ts = front ++ body ∧ EndsInBody body opening ∧
    ∃ head, Sequence Field head es ∧ tokens front = head ++ [.word "prop"]

/-- What follows the name of a field of a schema. -/
def entry (f : SchemaField) : Construct where
  IsRead ts := ∃ finish v, readEntry finish f ts = .ok v
  IsWhole us := ∃ e, e.field = f ∧ Field (.word f.name :: us) e
  IsOpen ts opening := f = .property ∧ EndsInBody ts opening

theorem dropIf_cases (t : Token) (ts : List Located) :
    (∃ place, ts = ⟨t, place⟩ :: dropIf t ts) ∨ dropIf t ts = ts ∧ (tokens ts).head? ≠ some t := by
  cases ts with
  | nil => exact .inr ⟨rfl, by simp [tokens]⟩
  | cons next ts =>
    rw [dropIf]
    split
    · rename_i hnext
      exact .inl ⟨next.position, by rw [← hnext]⟩
    · rename_i hnext
      exact .inr ⟨rfl, fun heq => hnext (Option.some.inj heq)⟩

theorem fails_property (h : readProperty finish ts = .error e) :
    (entry .property).Fails finish ts e := by
  have hbraces := fails_braces h
  have hread {other : List Located} (hother : (entry .property).IsRead other) :
      ∃ us vs as, Block us as ∧
        (tokens other = us ++ vs ∨ tokens other = .colon :: (us ++ vs)) := by
    obtain ⟨finish', ⟨as, rest⟩, hok⟩ := exists_ok_of_map hother
    obtain ⟨us, hus, htokens⟩ := readProperty_sound hok
    exact ⟨us, _, as, hus, htokens⟩
  rcases dropIf_cases .colon ts with ⟨place, hts⟩ | ⟨hts, hcolon⟩
  · rw [hts]
    refine hbraces.behind [⟨.colon, place⟩] ?_ ?_ ?_
    · rintro us ⟨as, hblock⟩
      exact ⟨[], _, rfl, by simpa using .propColon hblock⟩
    · rintro _ opening ⟨inside, as, rfl, hinside⟩
      exact ⟨rfl, [⟨.colon, place⟩], inside, as, rfl, .inr rfl, hinside⟩
    · intro other vs hother _ hc
      obtain ⟨place', body, rfl, hbody⟩ := exists_of_tokens_cons hother
      obtain ⟨us, ws, as, hblock, htokens | htokens⟩ := hread hc
      · obtain ⟨fields, rfl, _⟩ := hblock.openBrace
        cases htokens
      · exact ⟨body, hbody, us, ws, as, hblock, (List.cons.inj htokens).2⟩
  · rw [hts] at hbraces
    refine hbraces.behind [] ?_ ?_ ?_
    · rintro us ⟨as, hblock⟩
      exact ⟨[], _, rfl, by simpa using .prop hblock⟩
    · rintro _ opening ⟨inside, as, rfl, hinside⟩
      exact ⟨rfl, [], inside, as, rfl, .inl rfl, hinside⟩
    · intro other vs hother hhead hc
      obtain ⟨us, ws, as, hblock, htokens | htokens⟩ := hread hc
      · exact ⟨other, hother, us, ws, as, hblock, htokens⟩
      · obtain rfl : vs = _ := hother.symm.trans htokens
        exact absurd hhead.symm hcolon

theorem fails_entry {f : SchemaField} (h : readEntry finish f ts = .error e) :
    (entry f).Fails finish ts e := by
  cases f with
  | owner =>
    exact fails_constant Owner.ofName?_name (error_of_map h)
      ⟨_, _, rfl, .owner (.name .platform)⟩ fun _ => exists_ok_of_map
  | modulePath =>
    exact fails_string (error_of_map h) ⟨_, _, rfl, .modulePath strings_empty⟩
      fun _ => exists_ok_of_map
  | property => exact fails_property (error_of_map h)

/-- What is left of a schema where the fields seen may not occur again, but for properties. -/
def entries (seen : List SchemaField) : Construct where
  IsRead ts := ∃ finish es, readEntries finish seen ts = .ok es
  IsWhole us := ∃ es, Sequence Field us es ∧
    ∀ f, f ≠ .property → (es.map Entry.field ++ seen).count f ≤ 1
  IsOpen := EndsInBlock

/-- What a schema that is not read begins with: something that is no new field, or a field behind
which it fails. -/
theorem readEntries_error_cases {seen : List SchemaField} {next : Located}
    (h : readEntries finish seen (next :: ts) = .error e) :
    (e.position = next.position ∧
        ∀ f : SchemaField, next.token = .word f.name → f ≠ .property ∧ f ∈ seen) ∨
      ∃ f : SchemaField, next.token = .word f.name ∧ (f ≠ .property → f ∉ seen) ∧
        (readEntry finish f ts = .error e ∨
          ∃ entry mid, readEntry finish f ts = .ok (entry, mid) ∧
            readEntries finish (f :: seen) (skipSeparator mid) = .error e) := by
  rw [readEntries] at h
  split at h
  · rename_i name hname
    split at h
    · rename_i hnone
      obtain rfl := Except.error.inj h
      refine .inl ⟨rfl, fun f hf => ?_⟩
      obtain rfl := Token.word.inj (hname.symm.trans hf)
      simp [ofName?_entryName] at hnone
    · rename_i f hf
      have hfield := entryName_of_ofName? hf
      have hrepeated : (!f.isRepeatable && decide (f ∈ seen)) = true ↔ f ≠ .property ∧ f ∈ seen := by
        rw [Bool.and_eq_true, Bool.not_eq_true', decide_eq_true_eq, ne_eq, ← isRepeatable_iff,
          Bool.not_eq_true]
      split at h
      · rename_i hold
        obtain rfl := Except.error.inj h
        refine .inl ⟨rfl, fun g hg => ?_⟩
        obtain rfl := Token.word.inj (hname.symm.trans hg)
        obtain rfl := Option.some.inj ((ofName?_entryName g).symm.trans hf)
        exact hrepeated.1 hold
      · rename_i hnew
        rw [hrepeated, not_and] at hnew
        refine .inr ⟨f, by rw [hname, hfield], hnew, ?_⟩
        split at h
        · rename_i e' he
          obtain rfl := Except.error.inj h
          exact .inl he
        · rename_i entry mid hentry
          exact .inr ⟨entry, mid, hentry, error_of_map h⟩
  · rename_i hword
    obtain rfl := Except.error.inj h
    exact .inl ⟨rfl, fun f hf => absurd hf (hword f.name)⟩

theorem entryName_injective {f g : SchemaField} (h : f.name = g.name) : f = g := by
  have hname := ofName?_entryName f
  rw [h, ofName?_entryName g] at hname
  exact (Option.some.inj hname).symm

/-- What a schema that is read begins with, if it begins with the name of a field. -/
theorem exists_of_readEntries {seen : List SchemaField} {f : SchemaField} {other : List Located}
    {vs : List Token} (hother : tokens other = .word f.name :: vs)
    (h : (entries seen).IsRead other) :
    ∃ body finish entry mid, tokens body = vs ∧ readEntry finish f body = .ok (entry, mid) ∧
      (entries (f :: seen)).IsRead (skipSeparator mid) := by
  obtain ⟨place, body, rfl, hbody⟩ := exists_of_tokens_cons hother
  obtain ⟨finish, es, hread⟩ := h
  obtain ⟨g, entry, mid, others, hg, _, hentry, hothers, _⟩ := readEntries_cons_cases hread
  obtain rfl := entryName_injective (Token.word.inj hg)
  exact ⟨body, finish, entry, mid, hbody, hentry, finish, _, hothers⟩

section
variable {seen : List SchemaField} {next : Located}

/-- A schema fails in a field where the field does: the field is otherwise its last one. -/
theorem Construct.Fails.inEntry {f : SchemaField} (hname : next.token = .word f.name)
    (hseen : ∀ g, g ≠ .property → (f :: seen).count g ≤ 1) (h : (entry f).Fails finish ts e) :
    (entries seen).Fails finish (next :: ts) e := by
  refine h.behind [next] ?_ ?_ ?_
  · rintro us ⟨entry, rfl, hentry⟩
    have hsequence := Sequence.cons hentry .none .nil
    refine ⟨[], [entry], by simpa [tokens, hname] using hsequence, fun g hg => ?_⟩
    rw [List.map_cons, ← count_cons_append]
    exact hseen g hg
  · rintro ws place ⟨rfl, hbody⟩
    exact ⟨[next], ws, [], rfl, hbody, [], .nil, by rw [tokens_cons, hname]; rfl⟩
  · intro other vs hother _ hread
    rw [tokens_cons, hname] at hother
    obtain ⟨body, finish', entry, mid, hbody, hentry, _⟩ := exists_of_readEntries hother hread
    exact ⟨body, hbody, finish', _, hentry⟩

/-- And behind a field where the rest of the schema does. -/
theorem Construct.Fails.behindEntry {f : SchemaField} (hname : next.token = .word f.name)
    {entry : Entry} {mid : List Located} (hentry : readEntry finish f ts = .ok (entry, mid))
    (h : (entries (f :: seen)).Fails finish (skipSeparator mid) e) :
    (entries seen).Fails finish (next :: ts) e := by
  obtain ⟨rfl, us, hus, hts⟩ := readEntry_sound hentry
  refine h.behindField (isLocal_readEntry entry.field) hname hentry hts ?_ ?_
    fun other vs => exists_of_readEntries
  · rintro sep ws hsep ⟨es, hes, honce⟩
    refine ⟨entry :: es, .cons hus hsep hes, fun g hg => ?_⟩
    rw [List.map_cons, ← count_cons_append]
    exact honce g hg
  · rintro front sep _ place hfront hsep ⟨front', body, es, rfl, hbody, head, hhead, htokens⟩
    refine ⟨front ++ front', body, entry :: es, (List.append_assoc ..).symm, hbody, _,
      .cons hus hsep hhead, ?_⟩
    rw [tokens_append, hfront, htokens]
    simp

theorem fails_entries (h : readEntries finish seen ts = .error e)
    (hseen : ∀ f, f ≠ .property → seen.count f ≤ 1) : (entries seen).Fails finish ts e := by
  induction hn : ts.length using Nat.strongRecOn generalizing ts seen with
  | _ n ih =>
    cases ts with
    | nil =>
      rw [readEntries] at h
      cases h
    | cons next ts =>
      rcases readEntries_error_cases h with ⟨hplace, hfield⟩ | ⟨f, hname, hnew, herror⟩
      · refine fails_here hplace ⟨[], [], .nil, hseen⟩ ?_
        rintro t us other ht hother ⟨finish', es, hread⟩
        obtain rfl := Option.some.inj ht
        obtain ⟨place, body, rfl, _⟩ := exists_of_tokens_cons hother
        obtain ⟨f, _, _, _, hf, hnew, _⟩ := readEntries_cons_cases hread
        obtain ⟨hsingular, hmem⟩ := hfield f hf
        exact hnew hsingular hmem
      · have hseen' (g : SchemaField) (hg : g ≠ .property) : (f :: seen).count g ≤ 1 := by
          refine count_cons_le_one (hseen g hg) ?_
          rintro rfl
          exact hnew hg
        rcases herror with herror | ⟨entry, mid, hentry, herror⟩
        · exact (fails_entry herror).inEntry hname hseen'
        · have hlt := length_readEntry hentry
          have hle := length_skipSeparator mid
          rw [List.length_cons] at hn
          have hrest := ih (skipSeparator mid).length (by omega) herror hseen' rfl
          exact hrest.behindEntry hname hentry

end

end Grammar

namespace Schema

open Grammar

theorem isAccepted_of_isWhole {ts : List Token} (h : (entries []).IsWhole ts) : IsAccepted ts := by
  obtain ⟨es, hfields, honce⟩ := h
  rw [isAccepted_iff]
  exact ⟨schema es, es, hfields, by simpa using honce, rfl⟩

theorem exists_readEntries_of_isAccepted {ts : List Located} (h : IsAccepted (tokens ts))
    (finish : Position) : ∃ es, readEntries finish [] ts = .ok es := by
  obtain ⟨s, es, hfields, honce, _⟩ := isAccepted_iff.1 h
  exact ⟨es, readEntries_complete hfields (by simpa using honce) rfl⟩

/-- Tokens are not viable if no tokens that begin with them are read. -/
theorem not_isViable {ts : List Token}
    (h : ∀ other us, tokens other = ts ++ us → ¬ (entries []).IsRead other) : ¬ IsViable ts := by
  rintro ⟨us, haccepted⟩
  obtain ⟨_, sequence, _, _, _, htokens⟩ := id haccepted
  rw [← htokens] at haccepted
  exact h sequence.items us htokens
    ⟨sequence.finish, exists_readEntries_of_isAccepted haccepted sequence.finish⟩

theorem exists_syntaxError {text : String} {sequence : TokenSequence} {e : SchemaError}
    (hscan : scan text = .ok sequence) (h : ofText text = .error e) :
    ∃ x, e = .grammatical x ∧ readEntries sequence.finish [] sequence.items = .error x := by
  unfold ofText at h
  rw [hscan] at h
  simp only at h
  split at h
  · rename_i x hx
    exact ⟨x, (Except.error.inj h).symm, error_of_map hx⟩
  · cases h

/-- What stands behind the first tokens is the next one, or the end. -/
theorem nextPosition_drop (finish : Position) (ts : List Located) (k : Nat) :
    nextPosition finish (ts.drop k) = (ts[k]?.map Located.position).getD finish := by
  rw [← List.head?_drop]
  cases ts.drop k <;> rfl

/-- **A syntax error is at the first token that is wrong.** Of a text that has tokens but declares
no schema, the tokens before some place are viable, those up to the token at it are not, and the
message ends with the line and the column of that place; if it is the end of the text, all tokens
are viable, but they are not those of any schema. Or else the text ends between the fields of a
property block, all tokens are viable, and the message names the line and the column of the block's
brace. -/
theorem error_position {text : String} {sequence : TokenSequence} {e : SchemaError}
    (hscan : scan text = .ok sequence) (h : ofText text = .error e) :
    (∃ opening, EndsInBlock sequence.items opening ∧ IsViable (tokens sequence.items) ∧
      e.message = "Schema error: Unterminated prop block starting at " ++
        (toString opening.line ++ ":" ++ toString opening.column)) ∨
    ∃ k lead place, k ≤ sequence.items.length ∧
      (sequence.items[k]?.map Located.position).getD sequence.finish = place ∧
      e.message = lead ++ " at " ++ (toString place.line ++ ":" ++ toString place.column) ∧
      IsViable (tokens (sequence.items.take k)) ∧
      (k < sequence.items.length → ¬ IsViable (tokens (sequence.items.take (k + 1)))) ∧
      (k = sequence.items.length → ¬ IsAccepted (tokens sequence.items)) := by
  obtain ⟨x, rfl, hx⟩ := exists_syntaxError hscan h
  obtain ⟨before, after, hitems, hplace, ⟨us, hus⟩, hrefused⟩ := fails_entries hx (by simp)
  have hviable : IsViable (tokens before) := ⟨us, isAccepted_of_isWhole hus⟩
  rw [hitems]
  rcases hplace with hplace | ⟨rfl, opening, rfl, hopen⟩
  · right
    obtain ⟨lead, hmessage⟩ := x.exists_message_eq
    refine ⟨before.length, "Schema error: " ++ lead, x.position, by simp, ?_, ?_,
      by simpa using hviable, ?_, ?_⟩
    · rw [hplace, ← nextPosition_drop, List.drop_left]
    · rw [SchemaError.message, SchemaError.detail, hmessage, Position.text_eq]
      simp only [String.append_assoc]
    · intro hlt
      obtain ⟨next, tail, rfl⟩ : ∃ next tail, after = next :: tail :=
        List.exists_cons_of_ne_nil (by rintro rfl; simp at hlt)
      have htake : (before ++ next :: tail).take (before.length + 1) = before ++ [next] := by
        rw [List.append_cons]
        exact List.take_left' (by simp)
      rw [htake, tokens_append]
      refine not_isViable fun other vs hother => ?_
      rw [List.append_assoc] at hother
      exact hrefused next.token vs other rfl hother
    · rintro - haccepted
      rw [← hitems] at haccepted
      obtain ⟨es, hes⟩ := exists_readEntries_of_isAccepted haccepted sequence.finish
      cases hx.symm.trans hes
  · left
    rw [List.append_nil]
    have hlead : "Schema error: " ++ "Unterminated prop block starting at " =
        "Schema error: Unterminated prop block starting at " := by decide
    refine ⟨opening, hopen, hviable, ?_⟩
    rw [← hlead, String.append_assoc, ← Position.text_eq]
    rfl

/-- An owner that is none is wrong at its name, behind which nothing helps. A text that ends behind
a field of a block is wrong at the block's brace, though all its tokens are viable. -/
theorem errors_in_place :
    (∃ e, ofText "owner: Oem" = .error e ∧
      e.message =
        "Schema error: Unknown enumeration value \"Oem\" for field \"owner\" at 1:8" ∧
      IsViable [.word "owner", .colon] ∧ ¬ IsViable [.word "owner", .colon, .word "Oem"]) ∧
    ∃ e, ofText "prop \x7b\n  type: Long" = .error e ∧
      e.message = "Schema error: Unterminated prop block starting at 1:6" ∧
      IsViable [.word "prop", .openBrace, .word "type", .colon, .word "Long"] := by
  -- the end of a message tells which token it is about
  have hlast {message lead place : String} (h : message = lead ++ " at " ++ place)
      (hplace : place.toList ≠ []) :
      message.toList.getLast? = place.toList.getLast? := by
    rw [h, String.toList_append, List.getLast?_append_of_ne_nil _ hplace]
  have hconstant : ofText "owner: Oem" =
      .error (.grammatical (.unknownConstant "Oem" "owner" ⟨1, 8, 7⟩)) := by decide +kernel
  have hblock : ofText "prop \x7b\n  type: Long" =
      .error (.grammatical (.unterminatedBlock ⟨1, 6, 5⟩)) := by decide +kernel
  refine ⟨⟨_, hconstant, by decide +kernel, ?_⟩, _, hblock, by decide +kernel, ?_⟩
  · have hscan : scan "owner: Oem" = .ok ⟨[⟨.word "owner", ⟨1, 1, 0⟩⟩, ⟨.colon, ⟨1, 6, 5⟩⟩,
        ⟨.word "Oem", ⟨1, 8, 7⟩⟩], ⟨1, 11, 10⟩⟩ := by decide +kernel
    rcases error_position hscan hconstant with
      ⟨opening, ⟨front, body, _, hitems, ⟨colon, inside, _, rfl, _⟩, _⟩, _⟩ |
        ⟨k, lead, _, hk, rfl, hmessage, hviable, hnext, _⟩
    · have hbrace : ⟨.openBrace, opening⟩ ∈ front ++ (colon ++ ⟨.openBrace, opening⟩ :: inside) := by
        simp
      rw [← hitems] at hbrace
      simp at hbrace
    · obtain rfl : k = 2 := by
        by_contra hne
        have hother : k = 0 ∨ k = 1 ∨ k = 3 := by
          simp only [List.length_cons, List.length_nil] at hk
          omega
        rcases hother with rfl | rfl | rfl <;>
          exact absurd (hlast hmessage (by decide +kernel)) (by decide +kernel)
      exact ⟨hviable, hnext (by decide)⟩
  · have hscan : scan "prop \x7b\n  type: Long" = .ok ⟨[⟨.word "prop", ⟨1, 1, 0⟩⟩,
        ⟨.openBrace, ⟨1, 6, 5⟩⟩, ⟨.word "type", ⟨2, 3, 9⟩⟩, ⟨.colon, ⟨2, 7, 13⟩⟩,
        ⟨.word "Long", ⟨2, 9, 15⟩⟩], ⟨2, 13, 19⟩⟩ := by decide +kernel
    have hempty : IsViable [.word "prop", .openBrace] := by
      have hblock : Block [.openBrace, .closeBrace] [] := .braces .nil (by simp)
      have hfields := Sequence.cons (Field.prop hblock) .none .nil
      exact ⟨[.closeBrace], isAccepted_of_isWhole ⟨_, hfields, fun f _ => by cases f <;> decide⟩⟩
    rcases error_position hscan hblock with ⟨_, _, hviable, _⟩ |
        ⟨k, lead, _, hk, rfl, hmessage, _, hnext, _⟩
    · exact hviable
    · obtain rfl : k = 1 := by
        by_contra hne
        have hother : k = 0 ∨ k = 2 ∨ k = 3 ∨ k = 4 ∨ k = 5 := by
          simp only [List.length_cons, List.length_nil] at hk
          omega
        rcases hother with rfl | rfl | rfl | rfl | rfl <;>
          exact absurd (hlast hmessage (by decide +kernel)) (by decide +kernel)
      exact absurd hempty (hnext (by decide))

end Schema

end PropSchema
