/-
PropSchema.Proofs.Number.DoubleTexts — every double is read back from its
canonical text, and the two range checks of the reader never get in the way.

Both forms of a decimal are read as that decimal, except that a positional
form with an exponent above zero has the zeros counted among its digits; its
value is the same. What is read therefore lies in the cell of the rank the
decimal was made for.

`readDouble?` refuses a numeral that is out of range. It can also be described
as a plain reading, which rounds a numeral that is too large to infinity and
one that is too small to zero, with two checks on its result that look at the
text: `readDouble?_eq_filter`.

§1 Digits   — runs of digits and zeros.
§2 Decimals — the two forms of a decimal, read again.
§3 Doubles  — `readDouble?_doubleText`.
§4 Checks   — the plain reading, and what the range checks refuse.
-/
import PropSchema.Proofs.Number.Rounding
import PropSchema.Proofs.Number.Texts

namespace PropSchema.Number

/-! ## §1 Digits -/

/-- Zeros behind digits multiply by powers of ten. -/
theorem digitsValue?_replicate_zero (acc k : Nat) :
    digitsValue? 10 acc (List.replicate k '0') = some (acc * tenTo k) := by
  induction k generalizing acc with
  | zero => simp [digitsValue?, tenTo_eq]
  | succ k ih =>
    have hzero : digitValue? 10 '0' = some 0 := by decide
    rw [List.replicate_succ, digitsValue?, hzero]
    simp only [ih]
    rw [Nat.add_zero, Nat.add_comm k 1, tenTo_add, ← Nat.mul_assoc, Nat.mul_comm acc]
    rfl

/-- A number is read with any zeros before and behind its digits. -/
theorem natural?_zeros_decimal (before after n : Nat) :
    natural? 10 (List.replicate before '0' ++ decimal n ++ List.replicate after '0')
      = some (n * tenTo after) := by
  have hne : List.replicate before '0' ++ decimal n ++ List.replicate after '0' ≠ [] := by
    simp [decimal_ne_nil n]
  rw [natural?, if_neg (by simpa using hne), digitsValue?_append, digitsValue?_append,
    digitsValue?_replicate_zero, Nat.zero_mul]
  simp [digitsValue?_decimal, digitsValue?_replicate_zero]

/-- What a run of digits may be followed by, to end there. -/
def EndsRun (rest : List Char) : Prop :=
  ∀ c ∈ rest.head?, c.isDigit = false

theorem digitRun_append {digits rest : List Char} (hdigits : ∀ c ∈ digits, c.isDigit = true)
    (hrest : EndsRun rest) : digitRun (digits ++ rest) = (digits, rest) := by
  have htake : rest.takeWhile Char.isDigit = [] := by
    cases rest with
    | nil => rfl
    | cons c cs => simp [hrest c rfl]
  have hdrop : rest.dropWhile Char.isDigit = rest := by
    cases rest with
    | nil => rfl
    | cons c cs => simp [hrest c rfl]
  rw [digitRun, List.takeWhile_append_of_pos hdigits, List.dropWhile_append_of_pos hdigits, htake,
    hdrop, List.append_nil]

theorem ne_of_isDigit {c d : Char} (hc : c.isDigit = true) (hd : d.isDigit = false) : c ≠ d := by
  rintro rfl
  simp [hc] at hd

theorem isDigit_of_mem_replicate {k : Nat} {c : Char} (h : c ∈ List.replicate k '0') :
    c.isDigit = true := by
  rw [List.eq_of_mem_replicate h]
  decide

/-! ## §2 Decimals -/

/-- What follows the digits of a numeral: nothing, or a power of ten. -/
inductive Tail : List Char → Int → Prop where
  | none : Tail [] 0
  | power (e : Int) : Tail ('e' :: signedDecimal e) e

theorem Tail.endsRun {rest : List Char} {e : Int} (h : Tail rest e) : EndsRun rest := by
  cases h with
  | none => simp [EndsRun]
  | power e => simp [EndsRun]

theorem Tail.exponentOf? {rest : List Char} {e : Int} (h : Tail rest e) :
    exponentOf? rest = some e := by
  cases h with
  | none => rfl
  | power e => simp [Number.exponentOf?, integer?_signedDecimal]

theorem Tail.fractionOf {rest : List Char} {e : Int} (h : Tail rest e) :
    fractionOf rest = ([], rest) := by
  cases h with
  | none => rfl
  | power e => rfl

/-- A numeral without a point. -/
theorem decimal?_whole {whole rest : List Char} {n : Nat} {e : Int}
    (hwhole : ∀ c ∈ whole, c.isDigit = true) (hn : natural? 10 whole = some n)
    (hrest : Tail rest e) : decimal? (whole ++ rest) = some ⟨n, e⟩ := by
  simp [decimal?, digitRun_append hwhole hrest.endsRun, hrest.fractionOf, hn, hrest.exponentOf?]

/-- A numeral with a point. -/
theorem decimal?_point {whole fraction rest : List Char} {n : Nat} {e : Int}
    (hwhole : ∀ c ∈ whole, c.isDigit = true) (hfraction : ∀ c ∈ fraction, c.isDigit = true)
    (hn : natural? 10 (whole ++ fraction) = some n) (hrest : Tail rest e) :
    decimal? (whole ++ '.' :: (fraction ++ rest)) = some ⟨n, e - fraction.length⟩ := by
  have hpoint : EndsRun ('.' :: (fraction ++ rest)) := by simp [EndsRun]
  simp [decimal?, digitRun_append hwhole hpoint, fractionOf,
    digitRun_append hfraction hrest.endsRun, hn, hrest.exponentOf?]

theorem isDigit_of_mem_take {n k : Nat} {c : Char} (h : c ∈ (decimal n).take k) :
    c.isDigit = true :=
  isDigit_of_mem_decimal (List.mem_of_mem_take h)

theorem isDigit_of_mem_drop {n k : Nat} {c : Char} (h : c ∈ (decimal n).drop k) :
    c.isDigit = true :=
  isDigit_of_mem_decimal (List.mem_of_mem_drop h)

/-- The positional form of a whole number has all its zeros written out. -/
theorem decimal?_positional_ofNat (coefficient e : Nat) :
    decimal? (Decimal.positional ⟨coefficient, .ofNat e⟩) = some ⟨coefficient * tenTo e, 0⟩ := by
  have hdigits : ∀ c ∈ decimal coefficient ++ List.replicate e '0', c.isDigit = true :=
    List.forall_mem_append.2 ⟨fun _ => isDigit_of_mem_decimal, fun _ => isDigit_of_mem_replicate⟩
  have hn := natural?_zeros_decimal 0 e coefficient
  rw [List.replicate_zero, List.nil_append] at hn
  have hread := decimal?_whole hdigits hn .none
  rwa [List.append_nil] at hread

/-- The positional form of any other decimal is read as that decimal. -/
theorem decimal?_positional_negSucc (coefficient e : Nat) :
    decimal? (Decimal.positional ⟨coefficient, .negSucc e⟩) = some ⟨coefficient, .negSucc e⟩ := by
  have hexponent : (0 : Int) - ((e + 1 : Nat) : Int) = .negSucc e := by omega
  unfold Decimal.positional
  simp only
  split
  · -- the places before the digits are filled with zeros
    rename_i hplaces
    have hfraction : ∀ c ∈ List.replicate (e + 1 - (decimal coefficient).length) '0' ++
        decimal coefficient, c.isDigit = true :=
      List.forall_mem_append.2 ⟨fun _ => isDigit_of_mem_replicate, fun _ => isDigit_of_mem_decimal⟩
    have hn := natural?_zeros_decimal (e + 1 - (decimal coefficient).length + 1) 0 coefficient
    rw [List.replicate_succ, List.replicate_zero, List.append_nil] at hn
    have hzero : ∀ c ∈ ['0'], c.isDigit = true := by simp
    have hread := decimal?_point hzero hfraction hn .none
    rw [List.append_nil, List.length_append, List.length_replicate,
      show e + 1 - (decimal coefficient).length + (decimal coefficient).length = e + 1 by omega,
      hexponent, tenTo_eq, Nat.pow_zero, Nat.mul_one] at hread
    exact hread
  · -- the point is put between the digits
    rename_i hplaces
    have hn := natural?_decimal coefficient
    rw [← List.take_append_drop ((decimal coefficient).length - (e + 1))
      (decimal coefficient)] at hn
    have hread := decimal?_point (fun _ => isDigit_of_mem_take) (fun _ => isDigit_of_mem_drop) hn
      .none
    rw [List.append_nil, List.length_drop,
      show (decimal coefficient).length - ((decimal coefficient).length - (e + 1)) = e + 1 by omega,
      hexponent] at hread
    exact hread

/-- The scientific form of a decimal is read as that decimal. -/
theorem decimal?_scientific (d : Decimal) : decimal? d.scientific = some d := by
  have hn := natural?_decimal d.coefficient
  have hdigits : ∀ c ∈ decimal d.coefficient, c.isDigit = true := fun c =>
    isDigit_of_mem_decimal
  unfold Decimal.scientific
  split
  · rename_i h
    exact absurd h (decimal_ne_nil _)
  · rename_i lead h
    rw [h] at hn hdigits
    exact decimal?_whole hdigits hn (.power d.exponent)
  · rename_i lead places _ h
    rw [h] at hn hdigits
    have hlead : ∀ c ∈ [lead], c.isDigit = true := by simpa using hdigits lead List.mem_cons_self
    have hplaces : ∀ c ∈ places, c.isDigit = true := fun c hc =>
      hdigits c (List.mem_cons_of_mem _ hc)
    have hread := decimal?_point hlead hplaces hn (.power (d.exponent + places.length))
    rw [Int.add_sub_cancel] at hread
    exact hread

/-! ## §3 Doubles -/

theorem signOf_signed {negative : Bool} {c : Char} (hc : c.isDigit = true) (cs : List Char) :
    signOf (signed negative (c :: cs)) = (negative, c :: cs) := by
  have hplus : c ≠ '+' := ne_of_isDigit hc (by decide)
  have hminus : c ≠ '-' := ne_of_isDigit hc (by decide)
  cases negative with
  | false => simp [signed, signOf, hplus, hminus]
  | true => rfl

theorem toUpper_of_isDigit {c : Char} (hc : c.isDigit = true) : c.toUpper = c := by
  have hlower : ¬ ('a'.val ≤ c.val ∧ c.val ≤ 'z'.val) := by
    intro h
    simp only [Char.isDigit, Bool.and_eq_true, decide_eq_true_eq] at hc
    have hle : 'a'.val ≤ '9'.val := UInt32.le_trans h.1 hc.2
    exact absurd hle (by decide)
  unfold Char.toUpper
  rw [dif_neg hlower]

/-- The words for what is no number have no digits, in any case. -/
theorem not_isDigit_of_foldCase {body : List Char} {word : String}
    (h : Text.foldCase body = word.toList) (hword : word.toList.all fun c => !c.isDigit) :
    ∀ c ∈ body, c.isDigit = false := by
  intro c hc
  apply Bool.eq_false_iff.2
  intro hdigit
  have hmem : c.toUpper ∈ word.toList := by
    rw [← h]
    exact List.mem_map_of_mem hc
  have := List.all_eq_true.1 hword _ hmem
  simp [toUpper_of_isDigit hdigit, hdigit] at this

/-- A text that starts with a digit is read as a decimal. -/
theorem readDouble?_signed {negative : Bool} {c : Char} (hc : c.isDigit = true) (cs : List Char) :
    readDouble? (signed negative (c :: cs))
      = (decimal? (c :: cs)).bind (Decimal.binary64? negative) := by
  have hword : ∀ word : String, (word.toList.all fun c => !c.isDigit) = true →
      Text.foldCase (c :: cs) ≠ word.toList := by
    intro word hall h
    have := not_isDigit_of_foldCase h hall c List.mem_cons_self
    simp [hc] at this
  unfold readDouble?
  rw [signOf_signed hc]
  simp only
  rw [if_neg, if_neg (hword "NAN" (by decide))]
  rintro (h | h)
  · exact hword "INF" (by decide) h
  · exact hword "INFINITY" (by decide) h

/-- Both forms of a decimal start with a digit. -/
theorem exists_cons_scientific (d : Decimal) :
    ∃ c cs, d.scientific = c :: cs ∧ c.isDigit = true := by
  have hdigits : ∀ c ∈ decimal d.coefficient, c.isDigit = true := fun c =>
    isDigit_of_mem_decimal
  unfold Decimal.scientific
  split
  · rename_i h
    exact absurd h (decimal_ne_nil _)
  · rename_i lead h
    exact ⟨_, _, rfl, hdigits lead (by simp [h])⟩
  · rename_i lead places _ h
    exact ⟨_, _, rfl, hdigits lead (by simp [h])⟩

theorem exists_cons_positional (d : Decimal) :
    ∃ c cs, d.positional = c :: cs ∧ c.isDigit = true := by
  obtain ⟨lead, places, h⟩ := List.exists_cons_of_ne_nil (decimal_ne_nil d.coefficient)
  have hlead : lead.isDigit = true := isDigit_of_mem_decimal (n := d.coefficient) (by simp [h])
  unfold Decimal.positional
  simp only
  split
  · exact ⟨lead, _, by rw [h]; rfl, hlead⟩
  · rename_i e _
    split
    · exact ⟨'0', _, rfl, by decide⟩
    · rename_i hlong
      obtain ⟨k, hk⟩ : ∃ k, (decimal d.coefficient).length - (e + 1) = k + 1 :=
        ⟨(decimal d.coefficient).length - (e + 1) - 1, by omega⟩
      rw [hk, h]
      exact ⟨lead, _, rfl, hlead⟩

/-- A decimal in the cell of a finite double's rank gives that double. -/
theorem Decimal.binary64?_of_roundsTo {negative : Bool} {d : Decimal} {rank : Fin infiniteRank}
    (hpos : 0 < rank.val) (h : Binary64.roundsTo rank d.exponent d.coefficient = true) :
    d.binary64? negative = some (.finite negative rank) := by
  have hrank := Decimal.rank_eq_of_roundsTo hpos rank.isLt h
  unfold Decimal.binary64?
  rw [if_neg (Binary64.coefficient_ne_zero_of_roundsTo hpos h)]
  simp only [hrank]
  rw [dif_pos ⟨hpos, rank.isLt⟩]

/-- Writing the zeros of a whole number out does not take it out of its cell. -/
theorem roundsTo_mul_tenTo {rank coefficient e : Nat}
    (h : Binary64.roundsTo rank (.ofNat e) coefficient = true) :
    Binary64.roundsTo rank (.ofNat 0) (coefficient * tenTo e) = true := by
  have hpoint : ∀ shift : Nat,
      coefficient * tenTo e * (tenTo 0 <<< shift) = coefficient * (tenTo e <<< shift) := by
    intro shift
    rw [Nat.mul_assoc, ← mul_shiftLeft, ← tenTo_add, Nat.add_zero]
  rw [Binary64.roundsTo_ofNat_iff] at h ⊢
  rw [hpoint]
  exact h

/-- The positional form of a decimal in a rank's cell is read as the double of that
rank. -/
theorem readDouble?_positional {negative : Bool} {d : Decimal} {rank : Fin infiniteRank}
    (hpos : 0 < rank.val) (h : Binary64.roundsTo rank d.exponent d.coefficient = true) :
    readDouble? (signed negative d.positional) = some (.finite negative rank) := by
  obtain ⟨c, cs, htext, hc⟩ := exists_cons_positional d
  rw [htext, readDouble?_signed hc, ← htext]
  obtain ⟨coefficient, exponent⟩ := d
  cases exponent with
  | ofNat e =>
    rw [decimal?_positional_ofNat]
    exact Decimal.binary64?_of_roundsTo hpos (roundsTo_mul_tenTo h)
  | negSucc e =>
    rw [decimal?_positional_negSucc]
    exact Decimal.binary64?_of_roundsTo hpos h

/-- So is its scientific form. -/
theorem readDouble?_scientific {negative : Bool} {d : Decimal} {rank : Fin infiniteRank}
    (hpos : 0 < rank.val) (h : Binary64.roundsTo rank d.exponent d.coefficient = true) :
    readDouble? (signed negative d.scientific) = some (.finite negative rank) := by
  obtain ⟨c, cs, htext, hc⟩ := exists_cons_scientific d
  rw [htext, readDouble?_signed hc, ← htext, decimal?_scientific]
  exact Decimal.binary64?_of_roundsTo hpos h

/-- **Every double is read back from its canonical text**, whichever of the two forms
that is. -/
theorem readDouble?_doubleText (x : Binary64) : readDouble? (doubleText x) = some x := by
  cases x with
  | nan => decide
  | infinite negative => cases negative <;> decide
  | finite negative rank =>
    rw [doubleText, magnitudeText]
    by_cases hzero : rank.val = 0
    · have hrank : rank = ⟨0, by decide⟩ := Fin.ext hzero
      rw [if_pos hzero, hrank]
      cases negative <;> decide
    · have hpos : 0 < rank.val := Nat.pos_of_ne_zero hzero
      have hcell := Binary64.roundsTo_shortest hpos
      rw [if_neg hzero]
      simp only
      split
      · exact readDouble?_scientific hpos hcell
      · exact readDouble?_positional hpos hcell

/-! ## §4 Checks -/

/-- The double nearest to a decimal, infinity and zero included. -/
def Decimal.nearest (negative : Bool) (d : Decimal) : Binary64 :=
  .ofRank negative d.rank

/-- The double that a text denotes if nothing is out of range: a numeral that is too
large denotes infinity, and one that is too small zero. -/
def readNearest? (cs : List Char) : Option Binary64 :=
  let (negative, body) := signOf cs
  let word := Text.foldCase body
  if word = "INF".toList ∨ word = "INFINITY".toList then some (.infinite negative)
  else if word = "NAN".toList then some .nan
  else (decimal? body).map (Decimal.nearest negative)

/-- What stands before the power of ten in a numeral. -/
def mantissa (cs : List Char) : List Char :=
  cs.takeWhile fun c => c ≠ 'e' && c ≠ 'E'

/-- The check for overflow: infinity was read from a text with a digit in it. -/
def overflows (cs : List Char) : Binary64 → Bool
  | .infinite _ => cs.any Char.isDigit
  | _ => false

/-- The digits other than zero. -/
def isNonzeroDigit (c : Char) : Bool :=
  '1' ≤ c && c ≤ '9'

/-- The check for underflow: zero was read from a text whose mantissa has a digit
other than zero. -/
def underflows (cs : List Char) : Binary64 → Bool
  | .finite _ rank => rank.val = 0 && (mantissa cs).any isNonzeroDigit
  | _ => false

theorem isNonzeroDigit_iff {c : Char} {v : Nat} (h : digitValue? 10 c = some v) :
    isNonzeroDigit c = true ↔ v ≠ 0 := by
  obtain ⟨hhex, hlt⟩ := Option.filter_eq_some_iff.1 h
  rw [decide_eq_true_eq] at hlt
  unfold hexValue? at hhex
  split at hhex
  · rename_i hdigit
    have hzero : '0'.toNat = 48 := rfl
    simp only [Char.isDigit, Bool.and_eq_true, decide_eq_true_eq] at hdigit
    have hle : c.toNat ≤ 57 := UInt32.le_iff_toNat_le.1 hdigit.2
    have hone : '1' ≤ c ↔ 49 ≤ c.toNat := UInt32.le_iff_toNat_le
    have hnine : c ≤ '9' ↔ c.toNat ≤ 57 := UInt32.le_iff_toNat_le
    rw [Option.some.injEq] at hhex
    simp only [isNonzeroDigit, Bool.and_eq_true, decide_eq_true_eq, hone, hnine]
    omega
  · split at hhex
    · rw [Option.some.injEq] at hhex
      omega
    · split at hhex
      · rw [Option.some.injEq] at hhex
        omega
      · simp at hhex

/-- A run of digits is worth nothing just if it has no digit other than zero. -/
theorem digitsValue?_eq_zero_iff {cs : List Char} {acc n : Nat}
    (h : digitsValue? 10 acc cs = some n) :
    n = 0 ↔ acc = 0 ∧ cs.any isNonzeroDigit = false := by
  induction cs generalizing acc with
  | nil =>
    rw [digitsValue?, Option.some.injEq] at h
    simp [h]
  | cons c cs ih =>
    rw [digitsValue?] at h
    cases hv : digitValue? 10 c with
    | none => simp [hv] at h
    | some v =>
      simp only [hv] at h
      have hc : isNonzeroDigit c = false ↔ v = 0 := by
        rw [← Bool.not_eq_true, isNonzeroDigit_iff hv]
        exact Decidable.not_not
      rw [ih h, List.any_cons, Bool.or_eq_false_iff, hc]
      constructor
      · rintro ⟨hacc, hcs⟩
        exact ⟨by omega, by omega, hcs⟩
      · rintro ⟨hacc, hv0, hcs⟩
        exact ⟨by omega, hcs⟩

/-- What a numeral is made of: digits, a point and digits, and a power of ten; the last
two may be missing. -/
structure Layout (body : List Char) (coefficient : Nat)
    (whole point fraction power : List Char) : Prop where
  text : body = whole ++ point ++ fraction ++ power
  wholeDigits : ∀ c ∈ whole, c.isDigit = true
  fractionDigits : ∀ c ∈ fraction, c.isDigit = true
  isPoint : ∀ c ∈ point, c = '.'
  isPower : ∀ c ∈ power.head?, c = 'e' ∨ c = 'E'
  value : natural? 10 (whole ++ fraction) = some coefficient

theorem power_of_exponentOf? {rest : List Char} {e : Int} (h : exponentOf? rest = some e) :
    ∀ c ∈ rest.head?, c = 'e' ∨ c = 'E' := by
  cases rest with
  | nil => simp
  | cons c cs =>
    rw [exponentOf?] at h
    split at h
    · rename_i hc
      simpa using hc
    · simp at h

theorem digitRun_spec (cs : List Char) :
    cs = (digitRun cs).1 ++ (digitRun cs).2 ∧ ∀ c ∈ (digitRun cs).1, c.isDigit = true :=
  ⟨List.takeWhile_append_dropWhile.symm, fun _ hc => List.all_eq_true.1 List.all_takeWhile _ hc⟩

theorem fractionOf_spec (cs : List Char) :
    ∃ point, cs = point ++ (fractionOf cs).1 ++ (fractionOf cs).2 ∧ (∀ c ∈ point, c = '.') ∧
      ∀ c ∈ (fractionOf cs).1, c.isDigit = true := by
  unfold fractionOf
  split
  · rename_i rest
    obtain ⟨hrest, hdigits⟩ := digitRun_spec rest
    exact ⟨['.'], by rw [List.append_assoc, ← hrest]; rfl, by simp, hdigits⟩
  · exact ⟨[], by simp, by simp, by simp⟩

/-- Whatever is read as a decimal has such a layout. -/
theorem exists_layout {body : List Char} {d : Decimal} (h : decimal? body = some d) :
    ∃ whole point fraction power, Layout body d.coefficient whole point fraction power := by
  obtain ⟨hbody, hwhole⟩ := digitRun_spec body
  obtain ⟨point, hafter, hpoint, hfraction⟩ := fractionOf_spec (digitRun body).2
  unfold decimal? at h
  simp only at h
  split at h
  · rename_i n e hn he
    obtain rfl := Option.some.inj h
    refine ⟨_, point, _, _, ?_, hwhole, hfraction, hpoint, power_of_exponentOf? he, hn⟩
    rw [List.append_assoc, List.append_assoc, ← List.append_assoc point, ← hafter]
    exact hbody
  · simp at h

theorem signOf_spec (cs : List Char) :
    ∃ sign, cs = sign ++ (signOf cs).2 ∧ ∀ c ∈ sign, c = '+' ∨ c = '-' := by
  unfold signOf
  split
  · exact ⟨['+'], rfl, by simp⟩
  · exact ⟨['-'], rfl, by simp⟩
  · exact ⟨[], rfl, by simp⟩

/-- The mantissa of a signed numeral ends where the power of ten starts. -/
theorem mantissa_of_layout {sign body whole point fraction power : List Char} {n : Nat}
    (hsign : ∀ c ∈ sign, c = '+' ∨ c = '-') (h : Layout body n whole point fraction power) :
    mantissa (sign ++ body) = sign ++ whole ++ point ++ fraction := by
  have hdigit : ∀ c : Char, c.isDigit = true → (c ≠ 'e' && c ≠ 'E') = true := by
    intro c hc
    simp [ne_of_isDigit hc (show 'e'.isDigit = false by decide),
      ne_of_isDigit hc (show 'E'.isDigit = false by decide)]
  have hbefore : ∀ c ∈ sign ++ whole ++ point ++ fraction, (c ≠ 'e' && c ≠ 'E') = true := by
    intro c hc
    simp only [List.mem_append] at hc
    rcases hc with ((hc | hc) | hc) | hc
    · rcases hsign c hc with rfl | rfl <;> decide
    · exact hdigit c (h.wholeDigits c hc)
    · rw [h.isPoint c hc]
      decide
    · exact hdigit c (h.fractionDigits c hc)
  have hpower : power.takeWhile (fun c => c ≠ 'e' && c ≠ 'E') = [] := by
    cases power with
    | nil => rfl
    | cons c cs =>
      rcases h.isPower c rfl with rfl | rfl <;> simp
  rw [mantissa, h.text, ← List.append_assoc, ← List.append_assoc, ← List.append_assoc,
    List.takeWhile_append_of_pos hbefore, hpower, List.append_nil]

/-- A numeral is zero just if its mantissa has no digit other than zero. -/
theorem coefficient_eq_zero_iff {sign body : List Char} {d : Decimal}
    (hsign : ∀ c ∈ sign, c = '+' ∨ c = '-') (h : decimal? body = some d) :
    d.coefficient = 0 ↔ (mantissa (sign ++ body)).any isNonzeroDigit = false := by
  obtain ⟨whole, point, fraction, power, hlayout⟩ := exists_layout h
  have hvalue := hlayout.value
  unfold natural? at hvalue
  split at hvalue
  · simp at hvalue
  · have hsigns : sign.any isNonzeroDigit = false := by
      rw [List.any_eq_false]
      intro c hc
      rcases hsign c hc with rfl | rfl <;> decide
    have hpoints : point.any isNonzeroDigit = false := by
      rw [List.any_eq_false]
      intro c hc
      rw [hlayout.isPoint c hc]
      decide
    rw [digitsValue?_eq_zero_iff hvalue, mantissa_of_layout hsign hlayout]
    simp [hsigns, hpoints]

/-- A numeral has a digit. -/
theorem any_isDigit_of_decimal? (sign : List Char) {body : List Char} {d : Decimal}
    (h : decimal? body = some d) : (sign ++ body).any Char.isDigit = true := by
  obtain ⟨whole, point, fraction, power, hlayout⟩ := exists_layout h
  have hvalue := hlayout.value
  have hdigits : ∀ c ∈ whole ++ fraction, c.isDigit = true :=
    List.forall_mem_append.2 ⟨hlayout.wholeDigits, hlayout.fractionDigits⟩
  cases hcs : whole ++ fraction with
  | nil => simp [natural?, hcs] at hvalue
  | cons c cs =>
    have hc : c ∈ whole ++ fraction := by simp [hcs]
    rw [List.any_eq_true]
    refine ⟨c, ?_, hdigits c hc⟩
    rw [hlayout.text]
    simp only [List.mem_append] at hc ⊢
    rcases hc with hc | hc
    · exact .inr (.inl (.inl (.inl hc)))
    · exact .inr (.inl (.inr hc))

theorem Decimal.rank_eq_zero {d : Decimal} (h : d.coefficient = 0) : d.rank = 0 := by
  obtain ⟨coefficient, exponent⟩ := d
  subst h
  unfold Decimal.rank
  cases exponent with
  | ofNat e => rfl
  | negSucc e =>
    simp only
    split
    · rfl
    · rw [Nat.zero_shiftLeft, Binary64.nearestRank_eq_iff (tenTo_pos (e + 1))]
      simp [Binary64.InCell, Binary64.lowerEnd, Binary64.scaled_zero]

/-- Of the decimals the checks let pass what is in range. -/
theorem Decimal.binary64?_eq_filter {negative : Bool} {d : Decimal} {cs : List Char}
    (hdigit : cs.any Char.isDigit = true)
    (hzero : d.coefficient = 0 ↔ (mantissa cs).any isNonzeroDigit = false) :
    d.binary64? negative =
      (some (d.nearest negative)).filter fun x => !overflows cs x && !underflows cs x := by
  rw [Option.filter_some]
  unfold Decimal.binary64? Decimal.nearest
  by_cases hc : d.coefficient = 0
  · have hrank : Binary64.ofRank negative d.rank = .zero negative := by
      rw [Decimal.rank_eq_zero hc]
      rfl
    simp [hc, hrank, Binary64.zero, overflows, underflows, hzero.1 hc]
  · have hany : (mantissa cs).any isNonzeroDigit = true := by
      rw [← Bool.not_eq_false]
      exact fun h => hc (hzero.2 h)
    rw [if_neg hc]
    by_cases hlt : d.rank < infiniteRank
    · rw [Binary64.ofRank, dif_pos hlt]
      by_cases hpos : 0 < d.rank
      · rw [dif_pos ⟨hpos, hlt⟩]
        simp [overflows, underflows, show d.rank ≠ 0 by omega]
      · rw [dif_neg (fun h => hpos h.1)]
        simp only [underflows, hany, show d.rank = 0 by omega]
        simp
    · rw [dif_neg (fun h => hlt h.2), Binary64.ofRank, dif_neg hlt]
      simp [overflows, hdigit]

/-- **The reader is the plain reading with the two checks on its result.** -/
theorem readDouble?_eq_filter (cs : List Char) :
    readDouble? cs = (readNearest? cs).filter fun x => !overflows cs x && !underflows cs x := by
  obtain ⟨sign, hcs, hsign⟩ := signOf_spec cs
  unfold readDouble? readNearest?
  generalize signOf cs = parts at hcs ⊢
  obtain ⟨negative, body⟩ := parts
  simp only at hcs ⊢
  split
  · -- the words for infinity have no digits
    rename_i hword
    have hbody : ∀ c ∈ body, c.isDigit = false := by
      rcases hword with hword | hword
      · exact not_isDigit_of_foldCase hword (by decide)
      · exact not_isDigit_of_foldCase hword (by decide)
    have hnone : cs.any Char.isDigit = false := by
      rw [hcs, List.any_append, Bool.or_eq_false_iff, List.any_eq_false, List.any_eq_false]
      constructor
      · intro c hc
        rcases hsign c hc with rfl | rfl <;> decide
      · intro c hc
        simp [hbody c hc]
    rw [Option.filter_some]
    simp [overflows, underflows, hnone]
  · split
    · rfl
    · cases hd : decimal? body with
      | none => rfl
      | some d =>
        have hdigit := any_isDigit_of_decimal? sign hd
        have hzero := coefficient_eq_zero_iff hsign hd
        rw [← hcs] at hdigit hzero
        exact Decimal.binary64?_eq_filter hdigit hzero

end PropSchema.Number
