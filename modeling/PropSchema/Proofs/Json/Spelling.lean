/-
PropSchema.Proofs.Json.Spelling — the texts of a JSON value, and reading them back.

A value has many texts, because blanks may stand around its punctuation. `Spells` is the
relation between a value and all its texts, whoever chose the blanks; the two writers are two
choices among many. That the reader gets the value back is proved once, for any text
(`ofChars?_of_spells`), and each writer is left with showing that it writes a text.

Strings are those that `escape` spells. Numbers are left out: the text of a number does not
say where it ends, and nothing that is read back here has one.

§1 Parts   — blanks, and spelled strings.
§2 Texts   — `Spells`, and the character that a text starts with.
§3 Reading — a text is read up to its end, and a text with blanks around it as a whole.
§4 Writing — `Legible`: both writers write texts of a value.
-/
import PropSchema.Json.Reader

namespace PropSchema.Json

/-! ## §1 Parts -/

/-- Whether there are only blanks in a text. -/
def IsBlank (cs : List Char) : Prop :=
  ∀ c ∈ cs, isSpace c = true

theorem isBlank_nil : IsBlank [] := by
  simp [IsBlank]

theorem isBlank_space : IsBlank [' '] := by
  simp [IsBlank, isSpace]

theorem isBlank_newline (depth : Nat) : IsBlank (newline depth) := by
  intro c hc
  rcases List.mem_cons.1 hc with rfl | hc
  · rfl
  · rw [List.eq_of_mem_replicate hc]
    rfl

theorem skipSpace_append {blank : List Char} (h : IsBlank blank) (cs : List Char) :
    skipSpace (blank ++ cs) = skipSpace cs :=
  List.dropWhile_append_of_pos h

theorem skipSpace_cons {c : Char} (h : isSpace c = false) (cs : List Char) :
    skipSpace (c :: cs) = c :: cs := by
  simp [skipSpace, h]

/-- Behind blanks a value is what it is without them. -/
theorem readValue_append {blank : List Char} (h : IsBlank blank) (fuel : Nat) (cs : List Char) :
    readValue fuel (blank ++ cs) = readValue fuel cs := by
  cases fuel with
  | zero => simp [readValue]
  | succ fuel => simp only [readValue, skipSpace_append h]

/-- The spelling of a character: a letter behind a backslash, the code point of a control
character, or the character itself. -/
theorem escapeChar_cases (c : Char) :
    (∃ letter, escapeChar c = ['\\', letter] ∧ letter ≠ 'u' ∧ escapedChar? letter = some c) ∨
      (c.toNat < 0x20 ∧ escapeChar c = ['\\', 'u', '0', '0',
        Number.hexDigitChar (c.toNat / 16), Number.hexDigitChar (c.toNat % 16)]) ∨
      (c ≠ '"' ∧ c ≠ '\\' ∧ ¬ c.toNat < 0x20 ∧ escapeChar c = [c]) := by
  unfold escapeChar
  repeat' split
  case isFalse.isFalse.isFalse.isFalse.isFalse.isFalse.isFalse.isTrue hcontrol =>
    exact .inr (.inl ⟨hcontrol, rfl⟩)
  case isFalse.isFalse.isFalse.isFalse.isFalse.isFalse.isFalse.isFalse hquote hslash _ _ _ _ _ h =>
    exact .inr (.inr ⟨hquote, hslash, h, rfl⟩)
  all_goals
    rename_i h
    subst h
    exact .inl ⟨_, rfl, by decide, rfl⟩

/-- A spelled character is read as it is spelled. -/
theorem readLiteral_escapeChar (c : Char) (cs : List Char) :
    readLiteral (escapeChar c ++ cs) =
      (readLiteral cs).map fun (spelling, rest) => (escapeChar c ++ spelling, rest) := by
  rcases escapeChar_cases c with ⟨letter, hspelled, hu, hletter⟩ | ⟨hcontrol, hspelled⟩ |
    ⟨hquote, hslash, hcontrol, hspelled⟩
  · simp [hspelled, readLiteral, hu, hletter]
  · simp [hspelled, readLiteral, hexQuad?_control hcontrol]
  · simp [hspelled, readLiteral, hslash, hcontrol]

/-- The spelling of a text is read up to the quote behind it. -/
theorem readLiteral_escape (s rest : List Char) :
    readLiteral (escape s ++ '"' :: rest) = some (escape s, rest) := by
  induction s with
  | nil => rfl
  | cons c s ih =>
    rw [escape, List.flatMap_cons, List.append_assoc, readLiteral_escapeChar]
    rw [escape] at ih
    rw [ih]
    rfl

/-! ## §2 Texts -/

/-- The texts of some things one after the other, with a comma between them and a bracket
behind them. -/
inductive Listed {α : Type} (close : Char) (P : α → List Char → Prop) :
    List α → List Char → Prop where
  | last {a : α} {cs blank : List Char} (ha : P a cs) (hblank : IsBlank blank) :
    Listed close P [a] (cs ++ (blank ++ [close]))
  | more {a : α} {as : List α} {cs ds blank between : List Char} (ha : P a cs)
      (hblank : IsBlank blank) (hbetween : IsBlank between) (has : Listed close P as ds) :
    Listed close P (a :: as) (cs ++ (blank ++ ',' :: (between ++ ds)))

/-- The texts of a member: its name as a string, a colon, and the text of its value. -/
inductive Named (P : Json → List Char → Prop) : List Char × Json → List Char → Prop where
  | mk (name : List Char) {value : Json} {cs before after : List Char} (hbefore : IsBlank before)
      (hafter : IsBlank after) (hvalue : P value cs) :
    Named P (escape name, value) (literal (escape name) ++ (before ++ ':' :: (after ++ cs)))

/-- The texts of a value. -/
inductive Spells : Json → List Char → Prop where
  | null : Spells .null "null".toList
  | bool (b : Bool) : Spells (.bool b) (if b then "true".toList else "false".toList)
  | string (s : List Char) : Spells (.string (escape s)) (literal (escape s))
  | noItems : Spells (.array []) ['[', ']']
  | items {items : List Json} {cs blank : List Char} (hblank : IsBlank blank)
      (h : Listed ']' Spells items cs) : Spells (.array items) ('[' :: (blank ++ cs))
  | noMembers : Spells (.object []) ['\x7b', '\x7d']
  | members {members : List (List Char × Json)} {cs blank : List Char} (hblank : IsBlank blank)
      (h : Listed '\x7d' (Named Spells) members cs) :
    Spells (.object members) ('\x7b' :: (blank ++ cs))

/-- What a text may start with, so that it is not mistaken for blanks or for the end of the
array or object around it. -/
def StartsWell (cs : List Char) : Prop :=
  ∃ c ds, cs = c :: ds ∧ isSpace c = false ∧ c ≠ ']' ∧ c ≠ '\x7d'

theorem Spells.startsWell {j : Json} {cs : List Char} (h : Spells j cs) : StartsWell cs := by
  cases h with
  | bool b => cases b <;> exact ⟨_, _, rfl, by decide⟩
  | _ => exact ⟨_, _, rfl, by decide⟩

theorem Named.startsWell {P : Json → List Char → Prop} {m : List Char × Json} {cs : List Char}
    (h : Named P m cs) : StartsWell cs := by
  cases h
  exact ⟨_, _, rfl, by decide⟩

theorem StartsWell.append {cs : List Char} (h : StartsWell cs) (ds : List Char) :
    StartsWell (cs ++ ds) := by
  obtain ⟨c, cs, rfl, hc⟩ := h
  exact ⟨c, cs ++ ds, rfl, hc⟩

theorem StartsWell.skipSpace {cs : List Char} (h : StartsWell cs) : skipSpace cs = cs := by
  obtain ⟨c, cs, rfl, hspace, _⟩ := h
  exact skipSpace_cons hspace cs

theorem Listed.startsWell {α : Type} {close : Char} {P : α → List Char → Prop}
    (hP : ∀ a cs, P a cs → StartsWell cs) {as : List α} {cs : List Char}
    (h : Listed close P as cs) : StartsWell cs := by
  cases h with
  | last ha => exact (hP _ _ ha).append _
  | more ha => exact (hP _ _ ha).append _

/-! ## §3 Reading -/

/-- Whether values are read up to the ends of their texts, with less fuel than `fuel`. -/
def ReadsBelow (fuel : Nat) : Prop :=
  ∀ n < fuel, ∀ j cs, Spells j cs → cs.length < n →
    ∀ rest, readValue n (cs ++ rest) = some (j, rest)

theorem ReadsBelow.mono {m n : Nat} (h : ReadsBelow n) (hmn : m ≤ n) : ReadsBelow m :=
  fun k hk => h k (by omega)

theorem readItems_append {blank : List Char} (h : IsBlank blank) (fuel : Nat) (cs : List Char) :
    readItems fuel (blank ++ cs) = readItems fuel cs := by
  cases fuel with
  | zero => simp [readItems]
  | succ fuel => simp only [readItems, readValue_append h]

theorem readMembers_append {blank : List Char} (h : IsBlank blank) (fuel : Nat) (cs : List Char) :
    readMembers fuel (blank ++ cs) = readMembers fuel cs := by
  cases fuel with
  | zero => simp [readMembers]
  | succ fuel => simp only [readMembers, skipSpace_append h]

/-- The items of an array are read if values are. -/
theorem readItems_of_listed {items : List Json} {cs : List Char} (h : Listed ']' Spells items cs) :
    ∀ {fuel : Nat}, ReadsBelow fuel → cs.length < fuel →
      ∀ rest, readItems fuel (cs ++ rest) = some (items, rest) := by
  induction h with
  | last hitem hblank =>
    intro fuel hreads hlength rest
    obtain ⟨n, rfl⟩ : ∃ n, fuel = n + 1 := ⟨fuel - 1, by omega⟩
    simp only [List.length_append, List.length_singleton] at hlength
    have hvalue := hreads n (by omega) _ _ hitem (by omega)
    have hclose : ∀ tail, skipSpace (']' :: tail) = ']' :: tail := skipSpace_cons rfl
    simp [readItems, hvalue, skipSpace_append hblank, hclose]
  | more hitem hblank hbetween _ ih =>
    intro fuel hreads hlength rest
    obtain ⟨n, rfl⟩ : ∃ n, fuel = n + 1 := ⟨fuel - 1, by omega⟩
    simp only [List.length_append, List.length_cons] at hlength
    have hvalue := hreads n (by omega) _ _ hitem (by omega)
    have hcomma : ∀ tail, skipSpace (',' :: tail) = ',' :: tail := skipSpace_cons rfl
    have hrest := ih (hreads.mono (Nat.le_succ n)) (by omega) rest
    simp [readItems, hvalue, skipSpace_append hblank, hcomma, readItems_append hbetween, hrest]

/-- What is left to read of an object after the name and the colon of a member. -/
def readFromValue (fuel : Nat) (name cs : List Char) :
    Option (List (List Char × Json) × List Char) :=
  match readValue fuel cs with
  | none => none
  | some (value, cs) =>
    match skipSpace cs with
    | '\x7d' :: cs => some ([(name, value)], cs)
    | ',' :: cs => (readMembers fuel cs).map fun (members, rest) => ((name, value) :: members, rest)
    | _ => none

/-- The name of a member is read with its colon. -/
theorem readMembers_name (fuel : Nat) (name : List Char) {before : List Char}
    (hbefore : IsBlank before) (cs : List Char) :
    readMembers (fuel + 1) (literal (escape name) ++ (before ++ ':' :: cs)) =
      readFromValue fuel (escape name) cs := by
  have hquote : ∀ tail, skipSpace ('"' :: tail) = '"' :: tail := skipSpace_cons rfl
  have hcolon : ∀ tail, skipSpace (':' :: tail) = ':' :: tail := skipSpace_cons rfl
  simp only [readMembers, literal, List.cons_append, List.append_assoc, List.nil_append, hquote,
    readLiteral_escape, skipSpace_append hbefore, hcolon]
  rfl

/-- The members of an object are read if values are. -/
theorem readMembers_of_listed {members : List (List Char × Json)} {cs : List Char}
    (h : Listed '\x7d' (Named Spells) members cs) :
    ∀ {fuel : Nat}, ReadsBelow fuel → cs.length < fuel →
      ∀ rest, readMembers fuel (cs ++ rest) = some (members, rest) := by
  induction h with
  | last hmember hblank =>
    intro fuel hreads hlength rest
    obtain ⟨n, rfl⟩ : ∃ n, fuel = n + 1 := ⟨fuel - 1, by omega⟩
    obtain ⟨name, hbefore, hafter, hvalue⟩ := hmember
    simp only [List.length_append, List.length_cons] at hlength
    have hread := hreads n (by omega) _ _ hvalue (by omega)
    have hclose : ∀ tail, skipSpace ('\x7d' :: tail) = '\x7d' :: tail := skipSpace_cons rfl
    simp [readMembers_name n name hbefore, readFromValue, readValue_append hafter, hread,
      skipSpace_append hblank, hclose]
  | more hmember hblank hbetween _ ih =>
    intro fuel hreads hlength rest
    obtain ⟨n, rfl⟩ : ∃ n, fuel = n + 1 := ⟨fuel - 1, by omega⟩
    obtain ⟨name, hbefore, hafter, hvalue⟩ := hmember
    simp only [List.length_append, List.length_cons] at hlength
    have hread := hreads n (by omega) _ _ hvalue (by omega)
    have hcomma : ∀ tail, skipSpace (',' :: tail) = ',' :: tail := skipSpace_cons rfl
    have hrest := ih (hreads.mono (Nat.le_succ n)) (by omega) rest
    simp [readMembers_name n name hbefore, readFromValue, readValue_append hafter, hread,
      skipSpace_append hblank, hcomma, readMembers_append hbetween, hrest]

/-- An array that does not end at once is read item by item. -/
theorem readValue_items (fuel : Nat) {blank cs : List Char} (hblank : IsBlank blank)
    (hcs : StartsWell cs) :
    readValue (fuel + 1) ('[' :: (blank ++ cs)) =
      (readItems fuel cs).map fun (items, rest) => (.array items, rest) := by
  obtain ⟨c, cs, rfl, hspace, hclose, _⟩ := hcs
  simp [readValue, skipSpace_cons (c := '[') rfl, skipSpace_append hblank, skipSpace_cons hspace,
    hclose]

/-- An object that does not end at once is read member by member. -/
theorem readValue_members (fuel : Nat) {blank cs : List Char} (hblank : IsBlank blank)
    (hcs : StartsWell cs) :
    readValue (fuel + 1) ('\x7b' :: (blank ++ cs)) =
      (readMembers fuel cs).map fun (members, rest) => (.object members, rest) := by
  obtain ⟨c, cs, rfl, hspace, _, hclose⟩ := hcs
  simp [readValue, skipSpace_cons (c := '\x7b') rfl, skipSpace_append hblank,
    skipSpace_cons hspace, hclose]

/-- Where there is enough fuel, a text is read up to its end. -/
theorem readsBelow (fuel : Nat) : ReadsBelow fuel := by
  induction fuel with
  | zero => exact fun n hn => absurd hn (Nat.not_lt_zero n)
  | succ fuel ih =>
    intro n hn j cs h hlength rest
    obtain ⟨n, rfl⟩ : ∃ m, n = m + 1 := ⟨n - 1, by omega⟩
    cases h with
    | null => simp [readValue, skipSpace, isSpace, readAtom]
    | bool b => cases b <;> simp [readValue, skipSpace, isSpace, readAtom]
    | string s => simp [readValue, literal, skipSpace_cons (c := '"') rfl, readLiteral_escape]
    | noItems => simp [readValue, skipSpace, isSpace]
    | noMembers => simp [readValue, skipSpace, isSpace]
    | items hblank h =>
      simp only [List.length_append, List.length_cons] at hlength
      have hstart := (h.startsWell fun _ _ => Spells.startsWell).append rest
      have hitems := readItems_of_listed h (ih.mono (m := n) (by omega)) (by omega) rest
      rw [List.cons_append, List.append_assoc, readValue_items n hblank hstart, hitems]
      rfl
    | members hblank h =>
      simp only [List.length_append, List.length_cons] at hlength
      have hstart := (h.startsWell fun _ _ => Named.startsWell).append rest
      have hmembers := readMembers_of_listed h (ih.mono (m := n) (by omega)) (by omega) rest
      rw [List.cons_append, List.append_assoc, readValue_members n hblank hstart, hmembers]
      rfl

/-- **Every text of a value is read as that value**, also with blanks around it. -/
theorem ofChars?_of_spells {j : Json} {cs before after : List Char} (h : Spells j cs)
    (hbefore : IsBlank before) (hafter : IsBlank after) :
    ofChars? (before ++ cs ++ after) = some j := by
  have hlength : cs.length < (before ++ cs ++ after).length + 1 := by
    simp only [List.length_append]
    omega
  have hread := readsBelow _ _ (Nat.lt_succ_self _) j cs h hlength after
  have hend : skipSpace after = [] := by
    rw [← List.append_nil after, skipSpace_append hafter]
    rfl
  rw [ofChars?, List.append_assoc, readValue_append hbefore, ← List.append_assoc, hread]
  simp [hend]

/-! ## §4 Writing -/

/-- Whether both writers write texts of a value. -/
def Legible (j : Json) : Prop :=
  Spells j j.compact ∧ ∀ depth, Spells j (j.prettyAt depth)

theorem legible_bool (b : Bool) : Legible (.bool b) := by
  cases b <;> exact ⟨.bool _, fun _ => .bool _⟩

theorem legible_ofText (s : String) : Legible (.ofText s) :=
  ⟨.string s.toList, fun _ => .string s.toList⟩

/-- Items are written one after the other, on one line or over several. -/
theorem listed_items {item : Json} {items : List Json} (h : ∀ i ∈ item :: items, Legible i) :
    Listed ']' Spells (item :: items) (item.compact ++ compactItems items) ∧
      ∀ depth, Listed ']' Spells (item :: items)
        (item.prettyAt (depth + 1) ++ prettyItems depth items) := by
  induction items generalizing item with
  | nil =>
    have hitem := h item (by simp)
    exact ⟨.last hitem.1 isBlank_nil,
      fun depth => .last (hitem.2 (depth + 1)) (isBlank_newline depth)⟩
  | cons next items ih =>
    have hitem := h item (by simp)
    have hitems := ih fun i hi => h i (List.mem_cons_of_mem _ hi)
    constructor
    · have hcompact := Listed.more hitem.1 isBlank_nil isBlank_nil hitems.1
      simpa [compactItems] using hcompact
    · intro depth
      have hpretty := Listed.more (hitem.2 (depth + 1)) isBlank_nil (isBlank_newline (depth + 1))
        (hitems.2 depth)
      simpa [prettyItems] using hpretty

theorem legible_array {items : List Json} (h : ∀ i ∈ items, Legible i) :
    Legible (.array items) := by
  cases items with
  | nil => exact ⟨.noItems, fun _ => .noItems⟩
  | cons item items =>
    have hitems := listed_items h
    constructor
    · have hcompact := Spells.items isBlank_nil hitems.1
      simpa [compact] using hcompact
    · intro depth
      have hpretty := Spells.items (isBlank_newline (depth + 1)) (hitems.2 depth)
      simpa [prettyAt] using hpretty

theorem Legible.named {j : Json} (h : Legible j) (name : List Char) :
    Named Spells (escape name, j) (literal (escape name) ++ ':' :: j.compact) ∧
      ∀ depth, Named Spells (escape name, j)
        (literal (escape name) ++ ':' :: ' ' :: j.prettyAt depth) :=
  ⟨.mk name isBlank_nil isBlank_nil h.1,
    fun depth => .mk name isBlank_nil isBlank_space (h.2 depth)⟩

/-- Members are written one after the other, on one line or over several. -/
theorem listed_members {m : String × Json} {ms : List (String × Json)}
    (h : ∀ n ∈ m :: ms, Legible n.2) :
    Listed '\x7d' (Named Spells) ((m :: ms).map fun n => (escape n.1.toList, n.2))
        (literal (escape m.1.toList) ++ ':' ::
          (m.2.compact ++ compactMembers (ms.map fun n => (escape n.1.toList, n.2)))) ∧
      ∀ depth, Listed '\x7d' (Named Spells) ((m :: ms).map fun n => (escape n.1.toList, n.2))
        (literal (escape m.1.toList) ++ ':' :: ' ' :: (m.2.prettyAt (depth + 1) ++
          prettyMembers depth (ms.map fun n => (escape n.1.toList, n.2)))) := by
  induction ms generalizing m with
  | nil =>
    have hm := (h m (by simp)).named m.1.toList
    constructor
    · have hcompact : Listed '\x7d' _ _ _ := .last hm.1 isBlank_nil
      simpa [compactMembers] using hcompact
    · intro depth
      have hpretty : Listed '\x7d' _ _ _ := .last (hm.2 (depth + 1)) (isBlank_newline depth)
      simpa [prettyMembers] using hpretty
  | cons next ms ih =>
    have hm := (h m (by simp)).named m.1.toList
    have hms := ih fun n hn => h n (List.mem_cons_of_mem _ hn)
    constructor
    · have hcompact := Listed.more hm.1 isBlank_nil isBlank_nil hms.1
      simpa [compactMembers] using hcompact
    · intro depth
      have hpretty := Listed.more (hm.2 (depth + 1)) isBlank_nil (isBlank_newline (depth + 1))
        (hms.2 depth)
      simpa [prettyMembers] using hpretty

theorem legible_ofMembers {members : List (String × Json)} (h : ∀ m ∈ members, Legible m.2) :
    Legible (.ofMembers members) := by
  cases members with
  | nil => exact ⟨.noMembers, fun _ => .noMembers⟩
  | cons m ms =>
    have hmembers := listed_members h
    constructor
    · have hcompact := Spells.members isBlank_nil hmembers.1
      simpa [ofMembers, compact] using hcompact
    · intro depth
      have hpretty := Spells.members (isBlank_newline (depth + 1)) (hmembers.2 depth)
      simpa [ofMembers, prettyAt] using hpretty

end PropSchema.Json
