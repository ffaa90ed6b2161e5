/-
PropSchema.Proofs.Value.DoubleGrammar — which stored texts are doubles, and which ones.

A text denotes a double if it is one of the words for infinity and NaN, or a decimal numeral that
is in range, each with at most one sign. A numeral is an exact rational number, and in range if
it is zero or the nearest rank to it is neither zero nor above those of finite doubles. That is
what the reader finds; and it is what is left of a plain reading, which rounds every numeral to
the nearest double, once the two checks on the text have been made.

§1 Grammar  — `DenotesDouble`.
§2 Decimals — `decimal?_eq_some_iff`.
§3 Doubles  — `readDouble?_eq_some_iff`.
§4 Values   — `decode_double_iff`.
-/
import PropSchema.Proofs.Number.Nearest
import PropSchema.Proofs.Number.Numerals
import PropSchema.Value.Codec

namespace PropSchema

namespace Number

/-! ## §1 Grammar -/

/-- At most one sign, and whether it is a minus sign. -/
inductive IsSign : List Char → Bool → Prop where
  | none : IsSign [] false
  | plus : IsSign ['+'] false
  | minus : IsSign ['-'] true

/-- Whether a text is a word, in any ASCII case. -/
def IsWord (word : String) (cs : List Char) : Prop :=
  Text.foldCase cs = Text.foldCase word.toList

/-- What a numeral may end with: an `e` or `E` and the exponent of a power of ten, zero where there
is none. -/
inductive IsPower : List Char → Int → Prop where
  | none : IsPower [] 0
  | power {mark : Char} {cs : List Char} {e : Int} (hmark : mark = 'e' ∨ mark = 'E')
      (h : IsSignedNumeral cs e) : IsPower (mark :: cs) e

/-- An unsigned decimal numeral, and its exact value: digits, among which there may be a point, at
least one digit in all, and a power of ten. -/
inductive IsDecimal : List Char → Decimal → Prop where
  | whole {digits power : List Char} {n : Nat} {e : Int} (hn : IsNumeral 10 digits n)
      (he : IsPower power e) : IsDecimal (digits ++ power) ⟨n, e⟩
  | point {whole fraction power : List Char} {n : Nat} {e : Int}
      (hn : IsNumeral 10 (whole ++ fraction) n) (he : IsPower power e) :
      IsDecimal (whole ++ '.' :: (fraction ++ power)) ⟨n, e - fraction.length⟩

/-- Whether a text denotes a double: a word for infinity or NaN, or a decimal numeral in range. The
sign of the text is that of the double, of zero too. -/
inductive DenotesDouble : List Char → Binary64 → Prop where
  | infinity {sign body : List Char} {negative : Bool} (hsign : IsSign sign negative)
      (h : IsWord "inf" body ∨ IsWord "infinity" body) :
      DenotesDouble (sign ++ body) (.infinite negative)
  | nan {sign body : List Char} {negative : Bool} (hsign : IsSign sign negative)
      (h : IsWord "nan" body) : DenotesDouble (sign ++ body) .nan
  | decimal {sign body : List Char} {negative : Bool} {d : Decimal} {rank : Nat}
      (hsign : IsSign sign negative) (h : IsDecimal body d) (hnear : IsNearest d.value rank)
      (hfinite : rank < infiniteRank) (hzero : rank = 0 → d.value = 0) :
      DenotesDouble (sign ++ body) (.finite negative ⟨rank, hfinite⟩)

/-! ## §2 Decimals -/

theorem IsPower.endsRun {rest : List Char} {e : Int} (h : IsPower rest e) : EndsRun rest := by
  cases h with
  | none => simp [EndsRun]
  | power hmark _ => rcases hmark with rfl | rfl <;> simp [EndsRun]

theorem IsPower.fractionOf {rest : List Char} {e : Int} (h : IsPower rest e) :
    fractionOf rest = ([], rest) := by
  cases h with
  | none => rfl
  | power hmark _ => rcases hmark with rfl | rfl <;> rfl

theorem exponentOf?_eq_some_iff {rest : List Char} {e : Int} :
    exponentOf? rest = some e ↔ IsPower rest e := by
  constructor
  · intro h
    cases rest with
    | nil =>
      obtain rfl := Option.some.inj h
      exact .none
    | cons c cs =>
      rw [exponentOf?] at h
      split at h
      · rename_i hmark
        exact .power hmark (integer?_eq_some_iff.1 h)
      · cases h
  · intro h
    cases h with
    | none => rfl
    | power hmark h => rw [exponentOf?, if_pos hmark, integer?_eq_some_iff.2 h]

/-- A fraction is read behind a point, and is empty where there is none. -/
theorem fractionOf_cases (cs : List Char) :
    (∃ fraction rest, cs = '.' :: (fraction ++ rest) ∧ fractionOf cs = (fraction, rest)) ∨
      fractionOf cs = ([], cs) := by
  unfold fractionOf
  split
  · rename_i cs
    exact .inl ⟨_, _, congrArg ('.' :: ·) (digitRun_spec cs).1, rfl⟩
  · exact .inr rfl

/-- A text is read as a decimal just if it is a numeral of it. -/
theorem decimal?_eq_some_iff {body : List Char} {d : Decimal} :
    decimal? body = some d ↔ IsDecimal body d := by
  constructor
  · intro h
    obtain ⟨hbody, _⟩ := digitRun_spec body
    unfold decimal? at h
    generalize digitRun body = run at hbody h
    obtain ⟨whole, after⟩ := run
    simp only at hbody h
    rcases fractionOf_cases after with ⟨fraction, rest, hafter, hfraction⟩ | hnone
    · rw [hfraction] at h
      split at h
      · rename_i n e hn he
        obtain rfl := Option.some.inj h
        rw [hbody, hafter]
        exact .point (natural?_eq_some_iff.1 hn) (exponentOf?_eq_some_iff.1 he)
      · cases h
    · rw [hnone] at h
      split at h
      · rename_i n e hn he
        obtain rfl := Option.some.inj h
        rw [List.append_nil] at hn
        rw [hbody]
        simpa using IsDecimal.whole (natural?_eq_some_iff.1 hn) (exponentOf?_eq_some_iff.1 he)
      · cases h
  · intro h
    cases h with
    | whole hn he =>
      have hrun := digitRun_append hn.digits.2 he.endsRun
      simp [decimal?, hrun, he.fractionOf, natural?_eq_some_iff.2 hn, exponentOf?_eq_some_iff.2 he]
    | @point whole fraction power n e hn he =>
      obtain ⟨hwhole, hfraction⟩ := List.forall_mem_append.1 hn.digits.2
      have hpoint : EndsRun ('.' :: (fraction ++ power)) := by simp [EndsRun]
      have hrun := digitRun_append hwhole hpoint
      have hrun' := digitRun_append hfraction he.endsRun
      simp [decimal?, hrun, fractionOf, hrun', natural?_eq_some_iff.2 hn,
        exponentOf?_eq_some_iff.2 he]

/-! ## §3 Doubles -/

/-- What stands behind a sign has none of its own. -/
def Unsigned (body : List Char) : Prop :=
  ∀ c ∈ body.head?, c ≠ '+' ∧ c ≠ '-'

theorem signOf_append {sign body : List Char} {negative : Bool} (hsign : IsSign sign negative)
    (hbody : Unsigned body) : signOf (sign ++ body) = (negative, body) := by
  cases hsign with
  | none =>
    cases body with
    | nil => rfl
    | cons c cs =>
      obtain ⟨hplus, hminus⟩ := hbody c rfl
      simp [signOf, hplus, hminus]
  | plus => rfl
  | minus => rfl

theorem exists_sign (cs : List Char) :
    ∃ sign, IsSign sign (signOf cs).1 ∧ cs = sign ++ (signOf cs).2 := by
  unfold signOf
  split
  · exact ⟨['+'], .plus, rfl⟩
  · exact ⟨['-'], .minus, rfl⟩
  · exact ⟨[], .none, rfl⟩

theorem IsWord.unsigned {word : String} {body : List Char}
    (hword : (Text.foldCase word.toList).all fun c => c != '+' && c != '-')
    (h : IsWord word body) : Unsigned body := by
  intro c hc
  have hmem : c.toUpper ∈ Text.foldCase word.toList := by
    rw [← h]
    exact List.mem_map_of_mem (List.mem_of_mem_head? hc)
  have hupper := List.all_eq_true.1 hword _ hmem
  constructor
  · rintro rfl
    exact absurd hupper (by decide)
  · rintro rfl
    exact absurd hupper (by decide)

theorem IsDecimal.unsigned {body : List Char} {d : Decimal} (h : IsDecimal body d) :
    Unsigned body := by
  have hdigit : ∀ c : Char, c.isDigit = true → c ≠ '+' ∧ c ≠ '-' := fun c hc =>
    ⟨ne_of_isDigit hc (by decide), ne_of_isDigit hc (by decide)⟩
  cases h with
  | @whole digits _ _ _ hn _ =>
    obtain ⟨hne, hdigits⟩ := hn.digits
    obtain ⟨c, cs, rfl⟩ := List.exists_cons_of_ne_nil hne
    intro c' hc'
    obtain rfl := Option.some.inj hc'
    exact hdigit c (hdigits c List.mem_cons_self)
  | @point whole _ _ _ _ hn _ =>
    intro c hc
    cases whole with
    | nil =>
      obtain rfl := Option.some.inj hc
      decide
    | cons c' cs =>
      obtain rfl := Option.some.inj hc
      exact hdigit c' (hn.digits.2 c' (by simp))

/-- A numeral is none of the words. -/
theorem IsDecimal.not_isWord {body : List Char} {d : Decimal} (h : IsDecimal body d)
    {word : String} (hword : word.toList.all fun c => !c.isDigit) :
    Text.foldCase body ≠ word.toList := by
  intro hfold
  have hany : body.any Char.isDigit = true :=
    any_isDigit_of_decimal? [] (decimal?_eq_some_iff.2 h)
  obtain ⟨c, hc, hdigit⟩ := List.any_eq_true.1 hany
  simp [not_isDigit_of_foldCase hfold hword c hc] at hdigit

/-- **A text is read as a double just if it denotes it.** -/
theorem readDouble?_eq_some_iff {cs : List Char} {x : Binary64} :
    readDouble? cs = some x ↔ DenotesDouble cs x := by
  constructor
  · intro h
    obtain ⟨sign, hsign, hcs⟩ := exists_sign cs
    unfold readDouble? at h
    generalize signOf cs = parts at hsign hcs h
    obtain ⟨negative, body⟩ := parts
    simp only at hsign hcs h
    rw [hcs]
    split at h
    · rename_i hword
      obtain rfl := Option.some.inj h
      exact .infinity hsign hword
    · split at h
      · rename_i hword
        obtain rfl := Option.some.inj h
        exact .nan hsign hword
      · obtain ⟨d, hd, hx⟩ := Option.bind_eq_some_iff.1 h
        obtain ⟨rank, hfinite, hnear, hzero, rfl⟩ := Decimal.binary64?_eq_some_iff.1 hx
        exact .decimal hsign (decimal?_eq_some_iff.1 hd) hnear hfinite hzero
  · intro h
    cases h with
    | infinity hsign hword =>
      have hbody := hword.elim (IsWord.unsigned (by decide)) (IsWord.unsigned (by decide))
      unfold readDouble?
      rw [signOf_append hsign hbody]
      exact if_pos hword
    | nan hsign hword =>
      unfold readDouble?
      rw [signOf_append hsign (hword.unsigned (by decide))]
      have hfold : Text.foldCase _ = "NAN".toList := hword
      simp only
      rw [if_neg (by rw [hfold]; decide), if_pos hfold]
    | decimal hsign h hnear hfinite hzero =>
      unfold readDouble?
      rw [signOf_append hsign h.unsigned]
      simp only
      rw [if_neg (not_or.2 ⟨h.not_isWord (by decide), h.not_isWord (by decide)⟩),
        if_neg (h.not_isWord (by decide)), decimal?_eq_some_iff.2 h]
      exact Decimal.binary64?_eq_some_iff.2 ⟨_, hfinite, hnear, hzero, rfl⟩

/-- The plain reading rounds every numeral to the double of the nearest rank, which is infinity
if that rank is above those of finite doubles. -/
theorem readNearest?_of_isDecimal {sign body : List Char} {negative : Bool} {d : Decimal}
    {rank : Nat} (hsign : IsSign sign negative) (h : IsDecimal body d)
    (hnear : IsNearest d.value rank) :
    readNearest? (sign ++ body) = some (.ofRank negative rank) := by
  unfold readNearest?
  rw [signOf_append hsign h.unsigned]
  simp only
  rw [if_neg (not_or.2 ⟨h.not_isWord (by decide), h.not_isWord (by decide)⟩),
    if_neg (h.not_isWord (by decide)), decimal?_eq_some_iff.2 h, Option.map_some,
    Decimal.nearest_eq negative hnear]

end Number

/-! ## §4 Values -/

/-- **Texts are decoded as just the doubles they denote.** A property of doubles reads a text just
if it denotes a double, and as that double. It is what the plain reading gives, which rounds
every numeral to infinity or zero if nothing is nearer, where neither of the two checks on the
text refuses it. -/
theorem Descriptor.decode_double_iff (symbols : List String) (raw : String) :
    (∀ value, decode ⟨⟨.double, false⟩, symbols⟩ raw = some value ↔
      ∃ x, Number.DenotesDouble raw.toList x ∧ value = .double x) ∧
    decode ⟨⟨.double, false⟩, symbols⟩ raw =
      ((Number.readNearest? raw.toList).filter fun x =>
        !Number.overflows raw.toList x && !Number.underflows raw.toList x).map .double ∧
    ∀ sign body negative d rank, Number.IsSign sign negative → Number.IsDecimal body d →
      Number.IsNearest d.value rank → raw.toList = sign ++ body →
        Number.readNearest? raw.toList = some (.ofRank negative rank) := by
  have hdecode : decode ⟨⟨.double, false⟩, symbols⟩ raw =
      (Number.readDouble? raw.toList).map .double := rfl
  refine ⟨fun value => ?_, ?_, ?_⟩
  · rw [hdecode, Option.map_eq_some_iff]
    constructor
    · rintro ⟨x, hx, rfl⟩
      exact ⟨x, Number.readDouble?_eq_some_iff.1 hx, rfl⟩
    · rintro ⟨x, hx, rfl⟩
      exact ⟨x, Number.readDouble?_eq_some_iff.2 hx, rfl⟩
  · rw [hdecode, Number.readDouble?_eq_filter]
  · intro sign body negative d rank hsign hbody hnear hraw
    rw [hraw]
    exact Number.readNearest?_of_isDecimal hsign hbody hnear

/-- At the ends: a zero keeps its sign, however large its exponent; the least subnormal is kept;
what rounds to infinity and what rounds to zero is refused; a space before a numeral is too. -/
theorem Descriptor.doubles_at_the_ends :
    decode ⟨⟨.double, false⟩, []⟩ "-0e999999" = some (.double (.finite true ⟨0, by decide⟩)) ∧
    decode ⟨⟨.double, false⟩, []⟩ "4.9e-324" = some (.double (.finite false ⟨1, by decide⟩)) ∧
    decode ⟨⟨.double, false⟩, []⟩ "-InFinity" = some (.double (.infinite true)) ∧
    decode ⟨⟨.double, false⟩, []⟩ "1e400" = none ∧
    (∃ rank, Number.IsNearest (Number.Decimal.value ⟨1, 400⟩) rank ∧
      Number.infiniteRank ≤ rank) ∧
    decode ⟨⟨.double, false⟩, []⟩ "1e-400" = none ∧
    decode ⟨⟨.double, false⟩, []⟩ " 1" = none := by
  have hread {raw : String} {x : Number.Binary64}
      (h : Number.readDouble? raw.toList = some x) :
      decode ⟨⟨.double, false⟩, []⟩ raw = some (.double x) :=
    ((decode_double_iff [] raw).1 _).2 ⟨x, Number.readDouble?_eq_some_iff.1 h, rfl⟩
  have hrefused {raw : String} (h : Number.readDouble? raw.toList = none) :
      decode ⟨⟨.double, false⟩, []⟩ raw = none := by
    refine Option.eq_none_iff_forall_ne_some.2 fun value hvalue => ?_
    obtain ⟨x, hx, _⟩ := ((decode_double_iff [] raw).1 value).1 hvalue
    simp [Number.readDouble?_eq_some_iff.2 hx] at h
  have hlarge : Number.IsDecimal "1e400".toList ⟨1, 400⟩ :=
    Number.decimal?_eq_some_iff.1 (by decide +kernel)
  have hinfinite : Number.readNearest? "1e400".toList = some (.infinite false) := by
    decide +kernel
  obtain ⟨rank, hnear⟩ := Number.Decimal.exists_isNearest ⟨1, 400⟩
  have hrank : Number.readNearest? "1e400".toList = some (.ofRank false rank) :=
    (decode_double_iff [] "1e400").2.2 [] _ _ _ _ .none hlarge hnear rfl
  have hover : Number.infiniteRank ≤ rank := by
    by_contra hfinite
    rw [hinfinite, Number.Binary64.ofRank, dif_pos (Nat.lt_of_not_le hfinite)] at hrank
    cases hrank
  exact ⟨hread (by decide +kernel), hread (by decide +kernel), hread (by decide +kernel),
    hrefused (by decide +kernel), ⟨rank, hnear, hover⟩, hrefused (by decide +kernel),
    hrefused (by decide +kernel)⟩

end PropSchema
