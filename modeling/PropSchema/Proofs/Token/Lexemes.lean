/-
PropSchema.Proofs.Token.Lexemes — text is cut into tokens as its lexical grammar says.

The grammar knows nothing of the scanner: it says what a gap is, what a lexeme is and what it
denotes, and where a token stands. A gap and a lexeme are such only in front of what follows
them, since comments run up to the end of their line and numbers and names go on as far as they
can. `scan_eq_ok_iff` says that a text has tokens just if it can be cut into gaps and lexemes,
and which tokens these are; every other text is an error.

§1 Grammar — `Lexical.Cut`.
§2 Places  — a cursor that is carried along is where counting leads.
§3 Gaps    — blanks and comments.
§4 Strings — `stringBody` and its escapes.
§5 Lexemes — one lexeme.
§6 Texts   — `scan_eq_ok_iff`.
-/
import PropSchema.Token.Scan
import PropSchema.Proofs.Number.Numerals
import PropSchema.Proofs.Schema.Rules
import Mathlib.Data.List.Induction

namespace PropSchema

/-! ## §1 Grammar -/

/-- The place behind a text: its line feeds, the characters behind the last of them, and all
characters are counted. -/
def Position.behind (text : List Char) : Position where
  line := 1 + text.count '\n'
  column := 1 + (text.reverse.takeWhile (· ≠ '\n')).length
  offset := text.length

namespace Lexical

/-- Whether the next character of a text, if there is one, is of a class. -/
def NextIs (p : Char → Prop) (cs : List Char) : Prop :=
  ∀ c ∈ cs.head?, p c

/-- A gap in front of the rest of a text: blanks, and comments up to a line feed or the end of
the text. -/
inductive Gap (rest : List Char) : List Char → Prop where
  | nil : Gap rest []
  | blank {c : Char} {gap : List Char} (h : c ∈ [' ', '\t', '\n', '\x0c', '\r'])
      (tail : Gap rest gap) : Gap rest (c :: gap)
  | comment {body gap : List Char} (inLine : '\n' ∉ body)
      (ends : NextIs (· = '\n') (gap ++ rest)) (tail : Gap rest gap) :
      Gap rest ('#' :: (body ++ gap))

/-- The characters that may stand behind a backslash, and those that they stand for. -/
def escapes : List (Char × Char) :=
  [('n', '\n'), ('t', '\t'), ('r', '\r'), ('\\', '\\'), ('"', '"'), ('\'', '\'')]

/-- What stands between two quotes, and the text that it denotes. -/
inductive Body (quote : Char) : List Char → List Char → Prop where
  | nil : Body quote [] []
  | plain {c : Char} {cs value : List Char} (h : c ≠ '\n' ∧ c ≠ '\\' ∧ c ≠ quote)
      (tail : Body quote cs value) : Body quote (c :: cs) (c :: value)
  | escape {c d : Char} {cs value : List Char} (h : (c, d) ∈ escapes)
      (tail : Body quote cs value) : Body quote ('\\' :: c :: cs) (d :: value)

/-- A decimal integer of 64 bits, with a minus sign or without a sign. -/
def IsInteger (text : List Char) (n : Int) : Prop :=
  text.head? ≠ some '+' ∧ Number.IsSignedNumeral text n ∧ -2 ^ 63 ≤ n ∧ n ≤ 2 ^ 63 - 1

/-- The characters that are tokens by themselves. -/
def symbols : List (Char × Token) :=
  [('\x7b', .openBrace), ('\x7d', .closeBrace), (':', .colon), (',', .comma), (';', .semicolon)]

/-- A lexeme in front of the rest of a text, and the token that it denotes. A number is not
followed by a letter, a digit or a point, nor a name by a character that it could go on with. -/
inductive Lexeme (rest : List Char) : List Char → Token → Prop where
  | symbol {c : Char} {t : Token} (h : (c, t) ∈ symbols) : Lexeme rest [c] t
  | string {quote : Char} {body value : List Char} (hquote : quote = '"' ∨ quote = '\'')
      (h : Body quote body value) :
      Lexeme rest (quote :: (body ++ [quote])) (.string (String.ofList value))
  | integer {text : List Char} {n : Int} (h : IsInteger text n)
      (maximal : NextIs (fun c => ¬ (IsLetter c ∨ IsDigit c ∨ c = '.')) rest) :
      Lexeme rest text (.integer n)
  | word {name : String} (h : IsIdentifier name)
      (maximal : NextIs (fun c => ¬ (IsLetter c ∨ IsDigit c ∨ c = '_')) rest) :
      Lexeme rest name.toList (.word name)

/-- Whether a text behind another can be cut into gaps and lexemes, which tokens stand where in
it, and where it ends. -/
inductive Cut : (before text : List Char) → List Located → Position → Prop where
  | finish {before gap : List Char} (h : Gap [] gap) : Cut before gap [] (.behind (before ++ gap))
  | lexeme {before gap text rest : List Char} {t : Token} {items : List Located}
      {finish : Position} (hgap : Gap (text ++ rest) gap) (h : Lexeme rest text t)
      (tail : Cut (before ++ gap ++ text) rest items finish) :
      Cut before (gap ++ (text ++ rest)) (⟨t, .behind (before ++ gap)⟩ :: items) finish

end Lexical

/-! ## §2 Places -/

theorem Position.skip_start (text : List Char) : start.skip text = behind text := by
  induction text using List.reverseRecOn with
  | nil => rfl
  | append_singleton text c ih =>
    rw [skip_append, ih]
    show (behind text).after c = behind (text ++ [c])
    unfold after behind
    split
    · rename_i h
      simp [h, Nat.add_assoc]
    · rename_i h
      simp [h, Nat.add_assoc]

theorem Position.skip_behind (before text : List Char) :
    (behind before).skip text = behind (before ++ text) := by
  rw [← skip_start, ← skip_append, skip_start]

namespace Lexical

/-! ## §3 Gaps -/

theorem isBlank_iff {c : Char} :
    Text.isBlank c = true ↔ c ∈ [' ', '\t', '\n', '\x0c', '\r'] := by
  simp [Text.isBlank, or_assoc]

/-- A comment may be longer by any character but a line feed. -/
theorem Gap.cons_comment {rest gap : List Char} {c : Char} (hc : c ≠ '\n')
    (h : Gap rest ('#' :: gap)) : Gap rest ('#' :: c :: gap) := by
  cases h with
  | blank hblank tail => exact absurd hblank (by decide)
  | @comment body gap inLine ends tail =>
    refine @Gap.comment rest (c :: body) gap ?_ ends tail
    rw [List.mem_cons, not_or]
    exact ⟨hc.symm, inLine⟩

/-- What is passed is a gap, or the rest of one whose comment has begun. -/
theorem skipGap_sound (inComment : Bool) (position : Position) (cs : List Char) :
    ∃ gap rest, cs = gap ++ rest ∧
      skipGap inComment position cs = ⟨position.skip gap, rest⟩ ∧
      Gap rest (if inComment then '#' :: gap else gap) := by
  fun_induction skipGap inComment position cs with
  | case1 inComment position =>
    refine ⟨[], [], rfl, rfl, ?_⟩
    split
    · exact @Gap.comment [] [] [] (by simp) (by simp [NextIs]) .nil
    · exact .nil
  | case2 inComment position c cs hinside ih =>
    obtain ⟨gap, rest, rfl, hskip, hgap⟩ := ih
    rw [Bool.and_eq_true, decide_eq_true_iff] at hinside
    refine ⟨c :: gap, rest, rfl, hskip, ?_⟩
    rw [if_pos hinside.1]
    exact .cons_comment hinside.2 hgap
  | case3 inComment position c cs hinside hblank ih =>
    obtain ⟨gap, rest, rfl, hskip, hgap⟩ := ih
    have htail : Gap rest (c :: gap) := .blank (isBlank_iff.1 hblank) hgap
    refine ⟨c :: gap, rest, rfl, hskip, ?_⟩
    split
    · rename_i hcomment
      have hc : c = '\n' := by simpa [hcomment] using hinside
      exact @Gap.comment rest [] (c :: gap) (by simp) (by simp [NextIs, hc]) htail
    · exact htail
  | case4 inComment position cs hinside hblank ih =>
    obtain ⟨gap, rest, rfl, hskip, hgap⟩ := ih
    refine ⟨'#' :: gap, rest, rfl, hskip, ?_⟩
    rw [if_neg (by simpa using hinside)]
    exact hgap
  | case5 inComment position c cs hinside hblank hmark =>
    refine ⟨[], c :: cs, rfl, rfl, ?_⟩
    rw [if_neg]
    · exact .nil
    · intro hcomment
      have hc : c = '\n' := by simpa [hcomment] using hinside
      exact hblank (isBlank_iff.2 (by simp [hc]))

/-- A comment is passed up to what ends it. -/
theorem skipGap_comment {body cs : List Char} (hbody : '\n' ∉ body) (hcs : NextIs (· = '\n') cs)
    (position : Position) :
    skipGap true position (body ++ cs) = skipGap false (position.skip body) cs := by
  induction body generalizing position with
  | nil =>
    cases cs with
    | nil => rfl
    | cons c cs =>
      obtain rfl : c = '\n' := hcs c rfl
      rfl
  | cons c body ih =>
    rw [List.mem_cons, not_or] at hbody
    rw [List.cons_append, skipGap, if_pos (by simpa using Ne.symm hbody.1)]
    exact ih hbody.2 (position.after c)

/-- A gap is passed up to the first character of a lexeme. -/
theorem skipGap_complete {gap rest : List Char} (h : Gap rest gap)
    (hrest : NextIs (fun c => Text.isBlank c = false ∧ c ≠ '#') rest) (position : Position) :
    skipGap false position (gap ++ rest) = ⟨position.skip gap, rest⟩ := by
  induction h generalizing position with
  | nil =>
    cases rest with
    | nil => rfl
    | cons c rest =>
      obtain ⟨hblank, hmark⟩ := hrest c rfl
      simp [skipGap, hblank, hmark, Position.skip]
  | @blank c gap hc _ ih =>
    rw [List.cons_append, skipGap, if_neg (by simp), if_pos (isBlank_iff.2 hc)]
    exact ih (position.after c)
  | @comment body gap inLine ends _ ih =>
    rw [List.cons_append, skipGap, if_neg (by simp), if_neg (by decide), if_pos rfl,
      List.append_assoc, skipGap_comment inLine ends, ih, ← Position.skip_append]
    rfl

/-! ## §4 Strings -/

theorem unescape?_eq_some_iff {c d : Char} : unescape? c = some d ↔ (c, d) ∈ escapes := by
  constructor
  · intro h
    unfold unescape? at h
    split at h
    case h_7 => cases h
    all_goals
      obtain rfl := Option.some.inj h
      simp [escapes]
  · intro h
    simp only [escapes, List.mem_cons, Prod.mk.injEq, List.not_mem_nil, or_false] at h
    rcases h with ⟨rfl, rfl⟩ | ⟨rfl, rfl⟩ | ⟨rfl, rfl⟩ | ⟨rfl, rfl⟩ | ⟨rfl, rfl⟩ | ⟨rfl, rfl⟩ <;>
      rfl

theorem stringBody_sound {quote : Char} {opening position : Position} {cs value : List Char}
    {next : Cursor} (h : stringBody quote opening position cs = .ok (value, next)) :
    ∃ body, cs = body ++ quote :: next.rest ∧ Body quote body value ∧
      next.position = position.skip (body ++ [quote]) := by
  fun_induction stringBody quote opening position cs generalizing value next with
  | case1 => cases h
  | case2 => cases h
  | case3 => cases h
  | case4 position c cs d hc ih =>
    cases hbody : stringBody quote opening ((position.after '\\').after c) cs with
    | error e => simp [hbody, Except.map] at h
    | ok r =>
      obtain ⟨body, rfl, hvalue, hposition⟩ := ih hbody
      simp only [hbody, Except.map, Except.ok.injEq, Prod.mk.injEq] at h
      obtain ⟨rfl, rfl⟩ := h
      exact ⟨'\\' :: c :: body, rfl, .escape (unescape?_eq_some_iff.1 hc) hvalue, hposition⟩
  | case5 position cs =>
    obtain ⟨rfl, rfl⟩ := Prod.mk.inj (Except.ok.inj h)
    exact ⟨[], rfl, .nil, rfl⟩
  | case6 => cases h
  | case7 position c cs hend hescape hquote hline ih =>
    cases hbody : stringBody quote opening (position.after c) cs with
    | error e => simp [hbody, Except.map] at h
    | ok r =>
      obtain ⟨body, rfl, hvalue, hposition⟩ := ih hbody
      simp only [hbody, Except.map, Except.ok.injEq, Prod.mk.injEq] at h
      obtain ⟨rfl, rfl⟩ := h
      have hplain : c ≠ '\\' := by
        rintro rfl
        cases body with
        | nil => exact hescape _ _ rfl rfl
        | cons d body => exact hescape d _ rfl rfl
      exact ⟨c :: body, rfl, .plain ⟨hline, hplain, hquote⟩ hvalue, hposition⟩

theorem stringBody_complete {quote : Char} (hquote : quote ≠ '\\') {body value : List Char}
    (h : Body quote body value) (opening position : Position) (rest : List Char) :
    stringBody quote opening position (body ++ quote :: rest) =
      .ok (value, ⟨position.skip (body ++ [quote]), rest⟩) := by
  induction h generalizing position with
  | nil =>
    rw [List.nil_append, stringBody]
    · rw [if_pos rfl]
      rfl
    all_goals simp [hquote]
  | @plain c cs value hc _ ih =>
    obtain ⟨hline, hplain, hend⟩ := hc
    rw [List.cons_append, stringBody]
    · rw [if_neg hend, if_neg hline, ih]
      rfl
    all_goals simp [hplain]
  | @escape c d cs value hc _ ih =>
    rw [List.cons_append, List.cons_append, stringBody, unescape?_eq_some_iff.2 hc]
    simp only
    rw [ih]
    rfl

/-! ## §5 Lexemes -/

theorem symbol?_eq_some_iff {c : Char} {t : Token} : symbol? c = some t ↔ (c, t) ∈ symbols := by
  constructor
  · intro h
    unfold symbol? at h
    split at h
    case h_6 => cases h
    all_goals
      obtain rfl := Option.some.inj h
      simp [symbols]
  · intro h
    simp only [symbols, List.mem_cons, Prod.mk.injEq, List.not_mem_nil, or_false] at h
    rcases h with ⟨rfl, rfl⟩ | ⟨rfl, rfl⟩ | ⟨rfl, rfl⟩ | ⟨rfl, rfl⟩ | ⟨rfl, rfl⟩ <;> rfl

theorem isNumberChar_iff {c : Char} :
    isNumberChar c = true ↔ IsLetter c ∨ IsDigit c ∨ c = '.' := by
  simp [isNumberChar, Char.isAlphanum, isAlpha_iff, isDigit_iff, or_assoc]

/-- The longest run of characters of a class, and what is behind it. -/
theorem span_eq {p : Char → Bool} {cs rest : List Char} (hcs : ∀ c ∈ cs, p c = true)
    (hrest : NextIs (fun c => p c = false) rest) :
    (cs ++ rest).takeWhile p = cs ∧ (cs ++ rest).dropWhile p = rest := by
  rw [List.takeWhile_append_of_pos hcs, List.dropWhile_append_of_pos hcs]
  cases rest with
  | nil => simp
  | cons c rest => simp [hrest c rfl]

theorem nextIs_not_iff {p : Char → Bool} {q : Char → Prop} (h : ∀ c, p c = true ↔ q c)
    {cs : List Char} : NextIs (fun c => ¬ q c) cs ↔ NextIs (fun c => p c = false) cs :=
  forall₂_congr fun c _ => by
    show ¬ q c ↔ p c = false
    rw [← h, Bool.not_eq_true]

theorem nextIs_dropWhile (p : Char → Bool) (cs : List Char) :
    NextIs (fun c => p c = false) (cs.dropWhile p) := by
  intro c hc
  have h := List.head?_dropWhile_not p cs
  rw [Option.mem_def.1 hc] at h
  exact h

theorem integerValue?_eq_some_iff {text : List Char} {n : Int} (hplus : text.head? ≠ some '+') :
    integerValue? text = some n ↔ IsInteger text n := by
  rw [integerValue?, Option.filter_eq_some_iff, Number.integer?_eq_some_iff,
    Number.isSome_int64?_iff, IsInteger]
  exact ⟨fun h => ⟨hplus, h⟩, fun h => h.2⟩

theorem startsNumber_append {c : Char} {cs : List Char} (h : startsNumber c cs = true)
    (rest : List Char) : startsNumber c (cs ++ rest) = true := by
  cases cs with
  | nil =>
    have hdigit : c.isDigit = true := by simpa [startsNumber] using h
    simp [startsNumber, hdigit]
  | cons d ds => exact h

/-- What a name starts with starts no number. -/
theorem not_startsNumber {c : Char} (hc : IsLetter c ∨ c = '_') (cs : List Char) :
    ¬ startsNumber c cs = true := by
  have above : ∀ d : Char, '9' < d → '-' < d → d ≤ c → ¬ startsNumber c cs = true := by
    intro d hnine hminus hd h
    simp only [startsNumber, Bool.or_eq_true, Bool.and_eq_true, decide_eq_true_eq,
      isDigit_iff] at h
    rcases h with hdigit | ⟨rfl, _⟩
    · exact Char.not_le.2 hnine (Char.le_trans hd hdigit.2)
    · exact Char.not_le.2 hminus hd
  rcases hc with (hupper | hlower) | rfl
  · exact above _ (by decide) (by decide) hupper.1
  · exact above _ (by decide) (by decide) hlower.1
  · exact above '_' (by decide) (by decide) (Char.le_refl _)

/-- An integer starts as a number does, and goes on with characters that a number goes on
with. -/
theorem IsInteger.exists_cons {text : List Char} {n : Int} (h : IsInteger text n) :
    ∃ c cs, text = c :: cs ∧ startsNumber c cs = true ∧ ∀ d ∈ cs, isNumberChar d = true := by
  have hnumber : ∀ d : Char, d.isDigit = true → isNumberChar d = true := by
    intro d hd
    simp [isNumberChar, Char.isAlphanum, hd]
  obtain ⟨hplus, hnumeral, _⟩ := h
  cases hnumeral with
  | unsigned hm =>
    obtain ⟨hne, hdigits⟩ := hm.digits
    obtain ⟨c, cs, rfl⟩ := List.exists_cons_of_ne_nil hne
    rw [List.forall_mem_cons] at hdigits
    exact ⟨c, cs, rfl, by simp [startsNumber, hdigits.1], fun d hd => hnumber d (hdigits.2 d hd)⟩
  | plus => exact absurd rfl hplus
  | minus hm =>
    obtain ⟨hne, hdigits⟩ := hm.digits
    obtain ⟨c, cs, rfl⟩ := List.exists_cons_of_ne_nil hne
    refine ⟨'-', c :: cs, rfl, ?_, fun d hd => hnumber d (hdigits d hd)⟩
    simp [startsNumber, hdigits c List.mem_cons_self]

theorem lexeme_sound {position : Position} {c : Char} {cs : List Char} {t : Token}
    {next : Cursor} (h : lexeme position c cs = .ok (t, next)) :
    ∃ text, c :: cs = text ++ next.rest ∧ Lexeme next.rest text t ∧
      next.position = position.skip text := by
  unfold lexeme at h
  split at h
  · rename_i t' hsymbol
    obtain ⟨rfl, rfl⟩ := Prod.mk.inj (Except.ok.inj h)
    exact ⟨[c], rfl, .symbol (symbol?_eq_some_iff.1 hsymbol), rfl⟩
  · split at h
    · rename_i hquote
      cases hbody : stringBody c position (position.after c) cs with
      | error e => simp [hbody, Except.map] at h
      | ok r =>
        obtain ⟨body, rfl, hvalue, hposition⟩ := stringBody_sound hbody
        simp only [hbody, Except.map, Except.ok.injEq, Prod.mk.injEq] at h
        obtain ⟨rfl, rfl⟩ := h
        exact ⟨c :: (body ++ [c]), by simp, .string hquote hvalue, hposition⟩
    · split at h
      · rename_i hstart
        simp only at h
        split at h
        · rename_i n hn
          obtain ⟨rfl, rfl⟩ := Prod.mk.inj (Except.ok.inj h)
          have hplus : (c :: cs.takeWhile isNumberChar).head? ≠ some '+' := by
            rintro hc
            obtain rfl := Option.some.inj hc
            simp [startsNumber] at hstart
          refine ⟨c :: cs.takeWhile isNumberChar, ?_,
            .integer ((integerValue?_eq_some_iff hplus).1 hn) ?_, rfl⟩
          · exact congrArg (c :: ·) List.takeWhile_append_dropWhile.symm
          · exact (nextIs_not_iff fun _ => isNumberChar_iff).2 (nextIs_dropWhile isNumberChar cs)
        · cases h
      · split at h
        · rename_i hstart
          obtain ⟨rfl, rfl⟩ := Prod.mk.inj (Except.ok.inj h)
          have hname : IsIdentifier (String.ofList (c :: cs.takeWhile Text.isWord)) := by
            refine ⟨c, cs.takeWhile Text.isWord, String.toList_ofList, isWordStart_iff.1 hstart,
              fun d hd => isWord_iff.1 (List.all_eq_true.1 List.all_takeWhile d hd)⟩
          refine ⟨c :: cs.takeWhile Text.isWord, ?_, ?_, rfl⟩
          · exact congrArg (c :: ·) List.takeWhile_append_dropWhile.symm
          · have hword := @Lexeme.word (cs.dropWhile Text.isWord) _ hname ?_
            · rwa [String.toList_ofList] at hword
            · exact (nextIs_not_iff fun _ => isWord_iff).2 (nextIs_dropWhile Text.isWord cs)
        · cases h

/-- The characters that are between lexemes or lexemes by themselves. -/
def marks : List Char :=
  symbols.map Prod.fst ++ [' ', '\t', '\n', '\x0c', '\r', '#']

/-- A character of a class without marks starts no gap, and is no token by itself. -/
theorem not_mark {p : Char → Bool} (hmarks : marks.any p = false) {c : Char}
    (hc : p c = true) : symbol? c = none ∧ Text.isBlank c = false ∧ c ≠ '#' := by
  have hmem : c ∉ marks := fun hmem => List.any_eq_false.1 hmarks c hmem hc
  simp only [marks, List.mem_append, not_or] at hmem
  refine ⟨?_, ?_, ?_⟩
  · rw [Option.eq_none_iff_forall_ne_some]
    intro t ht
    exact hmem.1 (List.mem_map.2 ⟨(c, t), symbol?_eq_some_iff.1 ht, rfl⟩)
  · rw [← Bool.not_eq_true, isBlank_iff]
    intro hblank
    simp_all
  · rintro rfl
    simp at hmem

/-- A lexeme is read up to its end, whatever follows it there, and it starts no gap. -/
theorem lexeme_complete {rest text : List Char} {t : Token} (h : Lexeme rest text t) :
    ∃ c cs, text ++ rest = c :: cs ∧ Text.isBlank c = false ∧ c ≠ '#' ∧
      ∀ position, lexeme position c cs = .ok (t, ⟨position.skip text, rest⟩) := by
  cases h with
  | @symbol c _ hsymbol =>
    refine ⟨c, rest, rfl, ?_, ?_, fun position => ?_⟩
    · simp only [symbols, List.mem_cons, Prod.mk.injEq, List.not_mem_nil, or_false] at hsymbol
      rcases hsymbol with ⟨rfl, rfl⟩ | ⟨rfl, rfl⟩ | ⟨rfl, rfl⟩ | ⟨rfl, rfl⟩ | ⟨rfl, rfl⟩ <;> rfl
    · rintro rfl
      simp [symbols] at hsymbol
    · rw [lexeme, symbol?_eq_some_iff.2 hsymbol]
      rfl
  | @string quote body value hquote hbody =>
    obtain ⟨hnone, hblank, hmark⟩ := not_mark (p := fun c => c = '"' || c = '\'')
      (by simp [marks, symbols]) (by simpa using hquote)
    have hplain : quote ≠ '\\' := by
      rintro rfl
      simp at hquote
    refine ⟨quote, body ++ quote :: rest, by simp, hblank, hmark, fun position => ?_⟩
    rw [lexeme, hnone]
    simp only [if_pos hquote]
    rw [stringBody_complete hplain hbody]
    rfl
  | @integer _ n hinteger maximal =>
    obtain ⟨c, cs, rfl, hstart, hcs⟩ := hinteger.exists_cons
    obtain ⟨hnone, hblank, hmark⟩ := not_mark (p := fun c => startsNumber c cs)
      (by simp [marks, symbols, startsNumber]) hstart
    have hquote : ¬ (c = '"' ∨ c = '\'') := by
      rintro (rfl | rfl) <;> simp [startsNumber] at hstart
    have hnumber := startsNumber_append hstart rest
    obtain ⟨htake, hdrop⟩ := span_eq hcs ((nextIs_not_iff fun _ => isNumberChar_iff).1 maximal)
    refine ⟨c, cs ++ rest, rfl, hblank, hmark, fun position => ?_⟩
    rw [lexeme, hnone]
    simp only [if_neg hquote, if_pos hnumber, Cursor.past, htake, hdrop,
      (integerValue?_eq_some_iff hinteger.1).2 hinteger]
    rfl
  | @word name hname maximal =>
    obtain ⟨c, cs, htext, hc, hcs⟩ := hname
    obtain ⟨hnone, hblank, hmark⟩ := not_mark (p := Text.isWordStart)
      (by decide) (isWordStart_iff.2 hc)
    have hquote : ¬ (c = '"' ∨ c = '\'') := by
      rintro (rfl | rfl) <;> simp [IsLetter] at hc
    have hnumber := not_startsNumber hc (cs ++ rest)
    obtain ⟨htake, hdrop⟩ := span_eq (fun d hd => isWord_iff.2 (hcs d hd))
      ((nextIs_not_iff fun _ => isWord_iff).1 maximal)
    refine ⟨c, cs ++ rest, by rw [htext]; rfl, hblank, hmark, fun position => ?_⟩
    rw [lexeme, hnone]
    simp only [if_neg hquote, if_neg hnumber, if_pos (isWordStart_iff.2 hc), Cursor.past, htake,
      hdrop, ← htext, String.ofList_toList]
    rw [htext]
    rfl

/-! ## §6 Texts -/

theorem scanFrom_of_nil {cursor : Cursor} {position : Position}
    (h : skipGap false cursor.position cursor.rest = ⟨position, []⟩) :
    scanFrom cursor = .ok ⟨[], position⟩ := by
  rw [scanFrom]
  split
  · rename_i h'
    rw [h] at h'
    obtain ⟨rfl, _⟩ := Cursor.mk.inj h'
    rfl
  · rename_i h'
    rw [h] at h'
    cases h'

theorem scanFrom_of_cons {cursor : Cursor} {position : Position} {c : Char} {cs : List Char}
    (h : skipGap false cursor.position cursor.rest = ⟨position, c :: cs⟩) {tokens : TokenSequence} :
    scanFrom cursor = .ok tokens ↔ ∃ t next items, lexeme position c cs = .ok (t, next) ∧
      scanFrom next = .ok ⟨items, tokens.finish⟩ ∧ tokens.items = ⟨t, position⟩ :: items := by
  rw [scanFrom]
  split
  · rename_i h'
    rw [h] at h'
    cases h'
  · rename_i h'
    rw [h] at h'
    obtain ⟨rfl, heq⟩ := Cursor.mk.inj h'
    obtain ⟨rfl, rfl⟩ := List.cons.inj heq
    split
    · rename_i hl
      simp [hl]
    · rename_i t next hl
      cases hnext : scanFrom next with
      | error e => simp [hl, hnext]
      | ok later =>
        constructor
        · intro h
          obtain rfl := Except.ok.inj h
          exact ⟨t, next, later.items, hl, hnext, rfl⟩
        · rintro ⟨t', next', items, hl', hlater, hitems⟩
          obtain ⟨rfl, rfl⟩ := Prod.mk.inj (Except.ok.inj (hl.symm.trans hl'))
          obtain rfl := Except.ok.inj (hnext.symm.trans hlater)
          simp [← hitems]

/-- From behind a text on, the tokens are those of a cut. -/
theorem scanFrom_sound {cursor : Cursor} {before : List Char} {tokens : TokenSequence}
    (hposition : cursor.position = .behind before) (h : scanFrom cursor = .ok tokens) :
    Cut before cursor.rest tokens.items tokens.finish := by
  induction hlength : cursor.rest.length using Nat.strongRecOn
    generalizing cursor before tokens with
  | _ length ih =>
    obtain ⟨gap, rest, hrest, hskip, hgap⟩ := skipGap_sound false cursor.position cursor.rest
    rw [hposition, Position.skip_behind, ← hposition] at hskip
    rw [if_neg (by decide)] at hgap
    cases rest with
    | nil =>
      obtain rfl := Except.ok.inj ((scanFrom_of_nil hskip).symm.trans h)
      rw [hrest, List.append_nil]
      exact .finish hgap
    | cons c cs =>
      obtain ⟨t, next, items, hread, hnext, hitems⟩ := (scanFrom_of_cons hskip).1 h
      obtain ⟨text, htext, hlexeme, hbehind⟩ := lexeme_sound hread
      rw [Position.skip_behind] at hbehind
      have hshorter : next.rest.length < length := by
        have hle := length_lexeme hread
        rw [← hlength, hrest, List.length_append, List.length_cons]
        omega
      have htail := ih _ hshorter hbehind hnext rfl
      rw [htext] at hgap
      rw [hrest, hitems, htext]
      exact .lexeme hgap hlexeme htail

theorem scanFrom_complete {before text : List Char} {items : List Located} {finish : Position}
    (h : Cut before text items finish) :
    scanFrom ⟨.behind before, text⟩ = .ok ⟨items, finish⟩ := by
  induction h with
  | @finish before gap hgap =>
    have hskip := skipGap_complete hgap (by simp [NextIs]) (.behind before)
    rw [List.append_nil, Position.skip_behind] at hskip
    exact scanFrom_of_nil hskip
  | @lexeme before gap text rest t items finish hgap hlexeme _ ih =>
    obtain ⟨c, cs, htext, hblank, hmark, hread⟩ := lexeme_complete hlexeme
    have hskip := skipGap_complete hgap (by simp [NextIs, htext, hblank, hmark]) (.behind before)
    rw [Position.skip_behind, htext] at hskip
    rw [htext, scanFrom_of_cons hskip]
    refine ⟨t, _, items, hread _, ?_, rfl⟩
    rw [Position.skip_behind]
    exact ih

end Lexical

/-- **A text has tokens just if it can be cut into gaps and lexemes**, and its tokens are then
what the lexemes denote, in order, each at the place of its first character; the end of the
sequence is the place behind the whole text. Every other text is an error. -/
theorem scan_eq_ok_iff {text : String} {tokens : TokenSequence} :
    scan text = .ok tokens ↔ Lexical.Cut [] text.toList tokens.items tokens.finish :=
  ⟨Lexical.scanFrom_sound rfl, Lexical.scanFrom_complete⟩

end PropSchema
