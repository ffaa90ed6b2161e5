/-
PropSchema.Proofs.Schema.Rules — the rules for schemas as properties, and the
verdict of `Schema.verify` decided by them.

`Schema.Valid` says what a valid schema is: character classes by their ranges,
key families by what stands before and behind the partition's name, and
distinctness over all pairs. Nothing in it has an order. `Schema.FirstFault`
adds the order: a violation is the first fault if its own rule is broken and
every rule before it holds, with the earliest offender of that rule.

§1 Names      — identifiers and dotted names, as their characters.
§2 Families   — the keys of a partition.
§3 Repetition — labels that occur earlier in a list.
§4 Rules      — `Valid` and `FirstFault`, for properties and for schemas.
§5 Verdicts   — `verify_eq_ok_iff_valid`, `verify_eq_error_iff_firstFault`, and
                `verify_decides`, which is both.
-/
import PropSchema.Schema.Validity

namespace PropSchema

/-! ## §1 Names -/

/-- A letter from `A` to `Z` or from `a` to `z`. -/
def IsLetter (c : Char) : Prop :=
  ('A' ≤ c ∧ c ≤ 'Z') ∨ ('a' ≤ c ∧ c ≤ 'z')

/-- A digit from `0` to `9`. -/
def IsDigit (c : Char) : Prop :=
  '0' ≤ c ∧ c ≤ '9'

/-- `[A-Za-z_][A-Za-z0-9_]*`. -/
def IsIdentifier (name : String) : Prop :=
  ∃ c cs, name.toList = c :: cs ∧ (IsLetter c ∨ c = '_') ∧
    ∀ d ∈ cs, IsLetter d ∨ IsDigit d ∨ d = '_'

/-- `[A-Za-z0-9_.-]+`. -/
def IsDottedName (name : String) : Prop :=
  name ≠ "" ∧ ∀ c ∈ name.toList, IsLetter c ∨ IsDigit c ∨ c = '_' ∨ c = '.' ∨ c = '-'

theorem isAlpha_iff {c : Char} : c.isAlpha = true ↔ IsLetter c := by
  have hupper : c.isUpper = true ↔ 'A' ≤ c ∧ c ≤ 'Z' := decide_eq_true_iff
  have hlower : c.isLower = true ↔ 'a' ≤ c ∧ c ≤ 'z' :=
    Bool.and_eq_true_iff.trans (and_congr decide_eq_true_iff decide_eq_true_iff)
  exact Bool.or_eq_true_iff.trans (or_congr hupper hlower)

theorem isDigit_iff {c : Char} : c.isDigit = true ↔ IsDigit c := by
  simp only [Char.isDigit, IsDigit, Bool.and_eq_true, decide_eq_true_eq, ge_iff_le]
  exact Iff.rfl

theorem isWordStart_iff {c : Char} : Text.isWordStart c = true ↔ IsLetter c ∨ c = '_' := by
  simp [Text.isWordStart, isAlpha_iff]

theorem isWord_iff {c : Char} :
    Text.isWord c = true ↔ IsLetter c ∨ IsDigit c ∨ c = '_' := by
  simp [Text.isWord, Char.isAlphanum, isAlpha_iff, isDigit_iff, or_assoc]

theorem isKeyChar_iff {c : Char} :
    Text.isKeyChar c = true ↔ IsLetter c ∨ IsDigit c ∨ c = '_' ∨ c = '.' ∨ c = '-' := by
  simp only [Text.isKeyChar, Char.isAlphanum, Bool.or_eq_true, isAlpha_iff, isDigit_iff,
    decide_eq_true_eq, or_assoc, or_comm (a := c = '-')]

theorem isIdentifier_iff {name : String} : isIdentifier name = true ↔ IsIdentifier name := by
  unfold isIdentifier IsIdentifier
  split
  · rename_i h
    simp [h]
  · rename_i c cs h
    rw [Bool.and_eq_true, isWordStart_iff, List.all_eq_true]
    simp only [isWord_iff]
    constructor
    · rintro ⟨hc, hcs⟩
      exact ⟨c, cs, h, hc, hcs⟩
    · rintro ⟨d, ds, hd, hc, hcs⟩
      obtain ⟨rfl, rfl⟩ := List.cons.inj (h.symm.trans hd)
      exact ⟨hc, hcs⟩

theorem isDottedName_iff {name : String} : isDottedName name = true ↔ IsDottedName name := by
  have hempty : name = "" ↔ name.toList = [] := by
    rw [← String.toList_inj, String.toList_empty]
  unfold isDottedName IsDottedName
  split
  · rename_i h
    simp [hempty, h]
  · rename_i c cs h
    simp only [Ne, hempty, h, List.all_eq_true, isKeyChar_iff]
    simp

/-! ## §2 Families -/

/-- The keys of a partition: its name as a part, at the start or behind one of
three parts that may precede it, or the part that all partitions share; in each
case with something behind it. -/
def InFamily (partition key : String) : Prop :=
  (∃ opening ∈ ["", "init.svc.", "ro.", "persist."], ∃ rest, rest ≠ "" ∧
    key = opening ++ partition ++ "." ++ rest) ∨
  ∃ rest, rest ≠ "" ∧ key = "ro.hardware." ++ rest

/-- The keys that properties of an owner may have: a partition's own, and for the
platform those of neither partition. -/
def Owner.Admits (owner : Owner) (key : String) : Prop :=
  match owner with
  | .platform => ¬ InFamily "vendor" key ∧ ¬ InFamily "odm" key
  | .vendor => InFamily "vendor" key
  | .odm => InFamily "odm" key

theorem opensWith_iff {opening text : String} :
    opensWith opening text = true ↔ ∃ rest, text = opening ++ rest := by
  unfold opensWith
  rw [List.isPrefixOf_iff_prefix]
  constructor
  · rintro ⟨cs, hcs⟩
    exact ⟨String.ofList cs, by rw [← String.toList_inj, ← hcs]; simp⟩
  · rintro ⟨rest, rfl⟩
    exact ⟨rest.toList, by simp⟩

theorem goesOnAfter_iff {opening text : String} :
    goesOnAfter opening text = true ↔ ∃ rest, rest ≠ "" ∧ text = opening ++ rest := by
  unfold goesOnAfter
  rw [Bool.and_eq_true, opensWith_iff, decide_eq_true_eq]
  constructor
  · rintro ⟨⟨rest, rfl⟩, hlt⟩
    refine ⟨rest, fun h => ?_, rfl⟩
    simp [h] at hlt
  · rintro ⟨rest, hne, rfl⟩
    have hlen : rest.toList ≠ [] := fun h => hne (by rw [← String.toList_inj, h]; rfl)
    have hpos := List.length_pos_iff.2 hlen
    refine ⟨⟨rest, rfl⟩, ?_⟩
    simp only [String.toList_append, List.length_append]
    omega

theorem inFamily_iff {partition key : String} :
    inFamily partition key = true ↔ InFamily partition key := by
  simp [inFamily, familyOpenings, InFamily, goesOnAfter_iff, or_assoc]

theorem mayUse_iff {owner : Owner} {key : String} :
    owner.mayUse key = true ↔ owner.Admits key := by
  cases owner with
  | platform => simp [Owner.mayUse, Owner.Admits, ← inFamily_iff]
  | vendor => exact inFamily_iff
  | odm => exact inFamily_iff

/-! ## §3 Repetition -/

/-- The earliest element with a property. -/
def IsFirst {α : Type} (p : α → Prop) (as : List α) (a : α) : Prop :=
  ∃ before after, as = before ++ a :: after ∧ (∀ b ∈ before, ¬ p b) ∧ p a

/-- The earliest element whose label an element before it has. -/
def IsFirstRepeat {α β : Type} (label : α → β) (as : List α) (a : α) : Prop :=
  ∃ before after, as = before ++ a :: after ∧
    before.Pairwise (fun b c => label b ≠ label c) ∧ ∃ b ∈ before, label b = label a

/-- Nothing is listed as repeated just where the labels differ from each other
and from those already seen. -/
theorem repeated_eq_nil_iff {α β : Type} [DecidableEq β] {label : α → β} {seen : List β}
    {as : List α} :
    repeated label seen as = [] ↔
      (∀ a ∈ as, label a ∉ seen) ∧ as.Pairwise fun a b => label a ≠ label b := by
  induction as generalizing seen with
  | nil => simp [repeated]
  | cons a as ih =>
    rw [repeated]
    split
    · rename_i h
      simp [h]
    · rename_i h
      rw [ih, List.pairwise_cons]
      simp only [List.mem_cons, not_or, forall_eq_or_imp]
      constructor
      · rintro ⟨hs, hp⟩
        exact ⟨⟨h, fun b hb => (hs b hb).2⟩, fun b hb e => (hs b hb).1 e.symm, hp⟩
      · rintro ⟨⟨_, hs⟩, ha, hp⟩
        exact ⟨fun b hb => ⟨fun e => ha b hb e.symm, hs b hb⟩, hp⟩

/-- What is listed first is the first element whose label was seen before it. -/
theorem head?_repeated_eq_some_iff {α β : Type} [DecidableEq β] {label : α → β} {seen : List β}
    {as : List α} {a : α} :
    (repeated label seen as).head? = some a ↔
      ∃ before after, as = before ++ a :: after ∧ repeated label seen before = [] ∧
        (label a ∈ seen ∨ ∃ b ∈ before, label b = label a) := by
  induction as generalizing seen with
  | nil => simp [repeated]
  | cons c as ih =>
    rw [repeated]
    split
    · rename_i h
      rw [List.head?_cons, Option.some.injEq]
      constructor
      · rintro rfl
        exact ⟨[], as, rfl, rfl, .inl h⟩
      · rintro ⟨before, after, has, hbefore, _⟩
        cases before with
        | nil => exact (List.cons.inj has).1
        | cons b before =>
          rw [← (List.cons.inj has).1, repeated, if_pos h] at hbefore
          simp at hbefore
    · rename_i h
      rw [ih]
      constructor
      · rintro ⟨before, after, rfl, hbefore, hlabel⟩
        refine ⟨c :: before, after, rfl, by rw [repeated, if_neg h, hbefore], ?_⟩
        rcases hlabel with hlabel | ⟨b, hb, hlabel⟩
        · rcases List.mem_cons.1 hlabel with hlabel | hlabel
          · exact .inr ⟨c, List.mem_cons_self, hlabel.symm⟩
          · exact .inl hlabel
        · exact .inr ⟨b, List.mem_cons_of_mem _ hb, hlabel⟩
      · rintro ⟨before, after, has, hbefore, hlabel⟩
        cases before with
        | nil =>
          rw [← (List.cons.inj has).1] at hlabel
          simp [h] at hlabel
        | cons b before =>
          obtain ⟨rfl, rfl⟩ := List.cons.inj has
          rw [repeated, if_neg h] at hbefore
          refine ⟨before, after, rfl, hbefore, ?_⟩
          rcases hlabel with hlabel | ⟨b, hb, hlabel⟩
          · exact .inl (List.mem_cons_of_mem _ hlabel)
          · rcases List.mem_cons.1 hb with rfl | hb
            · exact .inl (hlabel ▸ List.mem_cons_self)
            · exact .inr ⟨b, hb, hlabel⟩

theorem head?_repeated_iff_isFirstRepeat {α β : Type} [DecidableEq β] {label : α → β}
    {as : List α} {a : α} :
    (repeated label [] as).head? = some a ↔ IsFirstRepeat label as a := by
  simp [head?_repeated_eq_some_iff, IsFirstRepeat, repeated_eq_nil_iff]

theorem head?_filter_iff_isFirst {α : Type} {p : α → Prop} {q : α → Bool}
    (h : ∀ a, q a = true ↔ p a) {as : List α} {a : α} :
    (as.filter q).head? = some a ↔ IsFirst p as a := by
  rw [List.head?_filter, List.find?_eq_some_iff_append]
  simp only [IsFirst, h, Bool.not_eq_true', Bool.eq_false_iff, ne_eq]
  constructor
  · rintro ⟨ha, before, after, has, hbefore⟩
    exact ⟨before, after, has, hbefore, ha⟩
  · rintro ⟨before, after, has, hbefore, ha⟩
    exact ⟨ha, before, after, has, hbefore⟩

/-! ## §4 Rules -/

/-- Whether two symbols are the same text but for ASCII case. -/
def SameSymbol (a b : String) : Prop :=
  Text.foldCase a.toList = Text.foldCase b.toList

namespace Property

/-- The symbols of an enumeration are identifiers, and no two are the same but
for case. Other properties may have any. -/
def HasGoodSymbols (p : Property) : Prop :=
  p.type.kind = .enumeration →
    (∀ symbol ∈ p.symbols, IsIdentifier symbol) ∧
      p.symbols.Pairwise fun a b => ¬ SameSymbol a b

/-- What is asked of a single property. -/
structure Valid (owner : Owner) (p : Property) : Prop where
  apiName : IsDottedName p.apiName
  symbols : p.HasGoodSymbols
  key : IsDottedName (p.key owner)
  family : owner.Admits (p.key owner)
  rewritable : p.access = .readWrite → ¬ ∃ rest, p.key owner = "ro." ++ rest
  digits : p.integerAsBool = true → p.type.kind = .boolean

/-- The rule that a property breaks first, and what breaks it. -/
inductive FirstFault (owner : Owner) (p : Property) : Violation → Prop where
  | apiName (h : ¬ IsDottedName p.apiName) : FirstFault owner p (.badApiName p.apiName)
  | badSymbol {symbol : String} (name : IsDottedName p.apiName)
      (enum : p.type.kind = .enumeration)
      (h : IsFirst (¬ IsIdentifier ·) p.symbols symbol) :
      FirstFault owner p (.badSymbol symbol p.apiName)
  | repeatedSymbol {symbol : String} (name : IsDottedName p.apiName)
      (enum : p.type.kind = .enumeration) (symbols : ∀ symbol ∈ p.symbols, IsIdentifier symbol)
      (h : IsFirstRepeat (fun symbol => Text.foldCase symbol.toList) p.symbols symbol) :
      FirstFault owner p (.repeatedSymbol symbol p.apiName)
  | key (name : IsDottedName p.apiName) (symbols : p.HasGoodSymbols)
      (h : ¬ IsDottedName (p.key owner)) : FirstFault owner p (.badKey (p.key owner))
  | family (name : IsDottedName p.apiName) (symbols : p.HasGoodSymbols)
      (key : IsDottedName (p.key owner)) (h : ¬ owner.Admits (p.key owner)) :
      FirstFault owner p (.foreignKey owner (p.key owner))
  | rewritable (name : IsDottedName p.apiName) (symbols : p.HasGoodSymbols)
      (key : IsDottedName (p.key owner)) (family : owner.Admits (p.key owner))
      (access : p.access = .readWrite) (h : ∃ rest, p.key owner = "ro." ++ rest) :
      FirstFault owner p (.writeOnceKey (p.key owner))
  | digits (name : IsDottedName p.apiName) (symbols : p.HasGoodSymbols)
      (key : IsDottedName (p.key owner)) (family : owner.Admits (p.key owner))
      (rewritable : p.access = .readWrite → ¬ ∃ rest, p.key owner = "ro." ++ rest)
      (flag : p.integerAsBool = true) (h : p.type.kind ≠ .boolean) :
      FirstFault owner p (.notBoolean (p.key owner))

end Property

namespace Schema

/-- At least two segments, all of them identifiers. -/
def HasGoodPath (s : Schema) : Prop :=
  2 ≤ s.segments.length ∧ ∀ segment ∈ s.segments, IsIdentifier segment

/-- What is asked of a schema. -/
structure Valid (s : Schema) : Prop where
  path : s.HasGoodPath
  presence : s.props ≠ []
  props : ∀ p ∈ s.props, p.Valid s.owner
  identifiers : s.props.Pairwise fun p q => p.identifier ≠ q.identifier

/-- API names differ, since the identifiers made of them do. -/
theorem Valid.apiNames {s : Schema} (hs : s.Valid) :
    s.props.Pairwise fun p q => p.apiName ≠ q.apiName :=
  hs.identifiers.imp fun hident heq => hident (congrArg identifierOf heq)

/-- Properties at two places have different API names. -/
theorem Valid.apiName_ne {s : Schema} (hs : s.Valid) {i j : Nat} (hi : i < s.props.length)
    (hj : j < s.props.length) (hij : i ≠ j) : s.props[i].apiName ≠ s.props[j].apiName := by
  have hpairs := List.pairwise_iff_getElem.1 hs.apiNames
  rcases Nat.lt_or_gt_of_ne hij with hlt | hlt
  · exact hpairs i j hi hj hlt
  · exact (hpairs j i hj hi hlt).symm

/-- The rule that a schema breaks first, and what breaks it. -/
inductive FirstFault (s : Schema) : Violation → Prop where
  | shortPath (h : s.segments.length < 2) : FirstFault s (.shortPath s.modulePath)
  | badSegment {segment : String} (length : 2 ≤ s.segments.length)
      (h : IsFirst (¬ IsIdentifier ·) s.segments segment) : FirstFault s (.badSegment segment)
  | noProperties (path : s.HasGoodPath) (h : s.props = []) : FirstFault s .noProperties
  | property {before after : List Property} {p : Property} {v : Violation}
      (path : s.HasGoodPath) (split : s.props = before ++ p :: after)
      (earlier : ∀ q ∈ before, q.Valid s.owner) (h : p.FirstFault s.owner v) : FirstFault s v
  | repeatedApiName {p : Property} (path : s.HasGoodPath) (props : ∀ q ∈ s.props, q.Valid s.owner)
      (h : IsFirstRepeat Property.identifier s.props p) :
      FirstFault s (.repeatedApiName p.apiName)

end Schema

/-! ## §5 Verdicts -/

theorem verdict_eq_error_iff {violations : List Violation} {v : Violation} :
    verdict violations = .error v ↔ violations.head? = some v := by
  cases violations <;> simp [verdict]

theorem requires_eq_nil_iff {holds : Bool} {v : Violation} :
    requires holds v = [] ↔ holds = true := by
  cases holds <;> simp [requires]

theorem head?_requires_eq_some_iff {holds : Bool} {v w : Violation} :
    (requires holds v).head? = some w ↔ holds = false ∧ v = w := by
  cases holds <;> simp [requires]

/-- Of two rules, the first fault is the first one's, or the second one's where the
first is not broken. -/
theorem head?_append_eq_some_iff {α : Type} {as bs : List α} {a : α} :
    (as ++ bs).head? = some a ↔ as.head? = some a ∨ (as = [] ∧ bs.head? = some a) := by
  cases as <;> simp

theorem head?_map_eq_some_iff {α β : Type} {f : α → β} {as : List α} {b : β} :
    (as.map f).head? = some b ↔ ∃ a, as.head? = some a ∧ f a = b := by
  rw [List.head?_map, Option.map_eq_some_iff]

namespace Property

theorem symbolViolations_eq_nil_iff {p : Property} :
    p.symbolViolations = [] ↔ p.HasGoodSymbols := by
  unfold symbolViolations HasGoodSymbols ValueType.isEnum
  by_cases h : p.type.kind = .enumeration
  · simp [h, List.filter_eq_nil_iff, isIdentifier_iff, repeated_eq_nil_iff, SameSymbol]
  · simp [h]

theorem head?_symbolViolations_eq_some_iff {p : Property} {v : Violation} :
    p.symbolViolations.head? = some v ↔ p.type.kind = .enumeration ∧
      ((∃ symbol, IsFirst (¬ IsIdentifier ·) p.symbols symbol ∧ v = .badSymbol symbol p.apiName) ∨
        (∀ symbol ∈ p.symbols, IsIdentifier symbol) ∧
          ∃ symbol, IsFirstRepeat (fun symbol => Text.foldCase symbol.toList) p.symbols symbol ∧
            v = .repeatedSymbol symbol p.apiName) := by
  unfold symbolViolations ValueType.isEnum
  by_cases h : p.type.kind = .enumeration
  · have hbad : ∀ symbol, (!isIdentifier symbol) = true ↔ ¬ IsIdentifier symbol := by
      simp [← isIdentifier_iff]
    simp only [h, decide_true, if_true, true_and, head?_append_eq_some_iff,
      head?_map_eq_some_iff, head?_filter_iff_isFirst hbad, head?_repeated_iff_isFirstRepeat,
      List.map_eq_nil_iff, List.filter_eq_nil_iff, hbad, Classical.not_not, eq_comm (b := v)]
  · simp [h]

theorem violations_eq_nil_iff {owner : Owner} {p : Property} :
    p.violations owner = [] ↔ p.Valid owner := by
  simp only [violations, List.append_eq_nil_iff, requires_eq_nil_iff, isDottedName_iff,
    symbolViolations_eq_nil_iff, mayUse_iff]
  constructor
  · rintro ⟨⟨⟨⟨⟨hname, hsymbols⟩, hkey⟩, hfamily⟩, haccess⟩, hdigits⟩
    refine ⟨hname, hsymbols, hkey, hfamily, fun hrw hro => ?_, fun hflag => ?_⟩
    · simp [hrw, opensWith_iff.2 hro] at haccess
    · simpa [hflag, ValueType.isBoolean] using hdigits
  · rintro ⟨hname, hsymbols, hkey, hfamily, haccess, hdigits⟩
    refine ⟨⟨⟨⟨⟨hname, hsymbols⟩, hkey⟩, hfamily⟩, ?_⟩, ?_⟩
    · by_cases hrw : p.access = .readWrite
      · simp [hrw, Bool.eq_false_iff, opensWith_iff, haccess hrw]
      · simp [hrw]
    · cases hflag : p.integerAsBool with
      | false => rfl
      | true => simp [ValueType.isBoolean, hdigits hflag]

theorem head?_violations_eq_some_iff {owner : Owner} {p : Property} {v : Violation} :
    (p.violations owner).head? = some v ↔ p.FirstFault owner v := by
  simp only [violations, head?_append_eq_some_iff, List.append_eq_nil_iff, requires_eq_nil_iff,
    head?_requires_eq_some_iff, symbolViolations_eq_nil_iff, head?_symbolViolations_eq_some_iff,
    Bool.eq_false_iff, ne_eq, isDottedName_iff, mayUse_iff]
  constructor
  · rintro (((((⟨h, rfl⟩ | ⟨name, enum, h⟩) | ⟨⟨name, symbols⟩, h, rfl⟩) |
      ⟨⟨⟨name, symbols⟩, key⟩, h, rfl⟩) | ⟨⟨⟨⟨name, symbols⟩, key⟩, family⟩, h, rfl⟩) |
      ⟨⟨⟨⟨⟨name, symbols⟩, key⟩, family⟩, hrw⟩, h, rfl⟩)
    · exact .apiName h
    · rcases h with ⟨symbol, h, rfl⟩ | ⟨symbols, symbol, h, rfl⟩
      · exact .badSymbol name enum h
      · exact .repeatedSymbol name enum symbols h
    · exact .key name symbols h
    · exact .family name symbols key h
    · have h' : p.access = .readWrite ∧ opensWith "ro." (p.key owner) = true := by simpa using h
      exact .rewritable name symbols key family h'.1 (opensWith_iff.1 h'.2)
    · have h' : p.integerAsBool = true ∧ p.type.kind ≠ .boolean := by
        simpa [ValueType.isBoolean] using h
      refine .digits name symbols key family (fun access hro => ?_) h'.1 h'.2
      simp [access, opensWith_iff.2 hro] at hrw
  · intro h
    cases h with
    | apiName h => exact .inl (.inl (.inl (.inl (.inl ⟨h, rfl⟩))))
    | badSymbol name enum h => exact .inl (.inl (.inl (.inl (.inr ⟨name, enum, .inl ⟨_, h, rfl⟩⟩))))
    | repeatedSymbol name enum symbols h =>
      exact .inl (.inl (.inl (.inl (.inr ⟨name, enum, .inr ⟨symbols, _, h, rfl⟩⟩))))
    | key name symbols h => exact .inl (.inl (.inl (.inr ⟨⟨name, symbols⟩, h, rfl⟩)))
    | family name symbols key h => exact .inl (.inl (.inr ⟨⟨⟨name, symbols⟩, key⟩, h, rfl⟩))
    | rewritable name symbols key family access h =>
      refine .inl (.inr ⟨⟨⟨⟨name, symbols⟩, key⟩, family⟩, ?_, rfl⟩)
      simp [access, opensWith_iff.2 h]
    | digits name symbols key family rewritable flag h =>
      refine .inr ⟨⟨⟨⟨⟨name, symbols⟩, key⟩, family⟩, ?_⟩, ?_, rfl⟩
      · by_cases access : p.access = .readWrite
        · simp [access, Bool.eq_false_iff, opensWith_iff, rewritable access]
        · simp [access]
      · simp [flag, ValueType.isBoolean, h]

end Property

namespace Schema

theorem pathViolations_eq_nil_iff {s : Schema} : s.pathViolations = [] ↔ s.HasGoodPath := by
  simp only [pathViolations, HasGoodPath, List.append_eq_nil_iff, requires_eq_nil_iff,
    decide_eq_true_eq, List.map_eq_nil_iff, List.filter_eq_nil_iff, Bool.not_eq_true',
    Bool.not_eq_false, isIdentifier_iff]
  exact Iff.rfl

theorem presenceViolations_eq_nil_iff {s : Schema} : s.presenceViolations = [] ↔ s.props ≠ [] := by
  simp [presenceViolations, requires_eq_nil_iff]

theorem identifierViolations_eq_nil_iff {s : Schema} :
    s.identifierViolations = [] ↔ s.props.Pairwise fun p q => p.identifier ≠ q.identifier := by
  simp [identifierViolations, repeated_eq_nil_iff]

theorem violations_eq_nil_iff {s : Schema} : s.violations = [] ↔ s.Valid := by
  simp only [violations, List.append_eq_nil_iff, pathViolations_eq_nil_iff,
    presenceViolations_eq_nil_iff, identifierViolations_eq_nil_iff, List.flatMap_eq_nil_iff,
    Property.violations_eq_nil_iff]
  constructor
  · rintro ⟨⟨⟨path, presence⟩, props⟩, identifiers⟩
    exact ⟨path, presence, props, identifiers⟩
  · rintro ⟨path, presence, props, identifiers⟩
    exact ⟨⟨⟨path, presence⟩, props⟩, identifiers⟩

theorem head?_pathViolations_eq_some_iff {s : Schema} {v : Violation} :
    s.pathViolations.head? = some v ↔
      (s.segments.length < 2 ∧ v = .shortPath s.modulePath) ∨
        2 ≤ s.segments.length ∧
          ∃ segment, IsFirst (¬ IsIdentifier ·) s.segments segment ∧ v = .badSegment segment := by
  have hbad : ∀ segment, (!isIdentifier segment) = true ↔ ¬ IsIdentifier segment := by
    simp [← isIdentifier_iff]
  have hlt : ¬ 1 < s.segments.length ↔ s.segments.length < 2 := by omega
  simp only [pathViolations, head?_append_eq_some_iff, head?_requires_eq_some_iff,
    requires_eq_nil_iff, head?_map_eq_some_iff, head?_filter_iff_isFirst hbad,
    decide_eq_false_iff_not, decide_eq_true_eq, hlt, eq_comm (b := v)]
  exact Iff.rfl

/-- The first fault among the properties is that of the earliest property that is
not valid. -/
theorem head?_flatMap_violations_eq_some_iff {owner : Owner} {props : List Property}
    {v : Violation} :
    (props.flatMap (Property.violations owner)).head? = some v ↔
      ∃ before p after, props = before ++ p :: after ∧ (∀ q ∈ before, q.Valid owner) ∧
        p.FirstFault owner v := by
  rw [List.head?_flatMap, List.findSome?_eq_some_iff]
  simp only [Property.head?_violations_eq_some_iff, List.head?_eq_none_iff,
    Property.violations_eq_nil_iff]
  constructor
  · rintro ⟨before, p, after, hprops, hp, hbefore⟩
    exact ⟨before, p, after, hprops, hbefore, hp⟩
  · rintro ⟨before, p, after, hprops, hbefore, hp⟩
    exact ⟨before, p, after, hprops, hp, hbefore⟩

theorem head?_violations_eq_some_iff {s : Schema} {v : Violation} :
    s.violations.head? = some v ↔ s.FirstFault v := by
  simp only [violations, head?_append_eq_some_iff, List.append_eq_nil_iff,
    pathViolations_eq_nil_iff, presenceViolations_eq_nil_iff, head?_pathViolations_eq_some_iff,
    head?_flatMap_violations_eq_some_iff, List.flatMap_eq_nil_iff,
    Property.violations_eq_nil_iff]
  constructor
  · rintro ((((⟨h, rfl⟩ | ⟨length, segment, h, rfl⟩) | ⟨path, h⟩) |
      ⟨⟨path, presence⟩, before, p, after, split, earlier, h⟩) | ⟨⟨⟨path, presence⟩, props⟩, h⟩)
    · exact .shortPath h
    · exact .badSegment length h
    · obtain ⟨hempty, rfl⟩ := head?_requires_eq_some_iff.1 h
      exact .noProperties path (by simpa using hempty)
    · exact .property path split earlier h
    · obtain ⟨p, hp, rfl⟩ := head?_map_eq_some_iff.1 h
      exact .repeatedApiName path props (head?_repeated_iff_isFirstRepeat.1 hp)
  · intro h
    cases h with
    | shortPath h => exact .inl (.inl (.inl (.inl ⟨h, rfl⟩)))
    | badSegment length h => exact .inl (.inl (.inl (.inr ⟨length, _, h, rfl⟩)))
    | noProperties path h =>
      exact .inl (.inl (.inr ⟨path, head?_requires_eq_some_iff.2 ⟨by simp [h], rfl⟩⟩))
    | property path split earlier h =>
      exact .inl (.inr ⟨⟨path, by simp [split]⟩, _, _, _, split, earlier, h⟩)
    | repeatedApiName path props h =>
      obtain ⟨before, after, split, _⟩ := id h
      refine .inr ⟨⟨⟨path, by simp [split]⟩, props⟩, ?_⟩
      exact head?_map_eq_some_iff.2 ⟨_, head?_repeated_iff_isFirstRepeat.2 h, rfl⟩

theorem verify_eq_ok_iff_valid {s : Schema} : s.verify = .ok () ↔ s.Valid :=
  verify_eq_ok_iff.trans violations_eq_nil_iff

theorem verify_eq_error_iff_firstFault {s : Schema} {v : Violation} :
    s.verify = .error v ↔ s.FirstFault v :=
  verdict_eq_error_iff.trans head?_violations_eq_some_iff

/-- **A schema passes just if it keeps every rule**, and one that does not is reported
for the rule it breaks first: the rules go from the module path over the presence of
properties and each property in turn to the identifiers. -/
theorem verify_decides (s : Schema) :
    (s.verify = .ok () ↔ s.Valid) ∧ ∀ v, s.verify = .error v ↔ s.FirstFault v :=
  ⟨verify_eq_ok_iff_valid, fun _ => verify_eq_error_iff_firstFault⟩

end Schema

end PropSchema
