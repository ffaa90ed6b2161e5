/-
PropSchema.Number.Shortest — decimals for doubles: the fewest digits that
round back to a double, and the double nearest to a decimal.

Both directions are exact. `Decimal.rank` rounds a decimal of any size to the
nearest rank. `shortest` goes the other way: the reals that round to a rank
form an interval, which reaches half-way to both neighbouring ranks and holds
its ends exactly for even ranks, and the decimals with a given last place form
a grid. Taking ever finer grids, the first that has a point in the interval
holds the decimals with the fewest digits; on it, only the two grid points
around the exact value have to be looked at, and the nearer one is taken. Of
two equally near ones the larger is taken.
-/
import PropSchema.Number.Binary64

namespace PropSchema.Number

/-- The powers of ten. -/
def tenTo (n : Nat) : Nat :=
  Nat.pow 10 n

/-- The non-negative decimal `coefficient * 10 ^ exponent`. -/
structure Decimal where
  coefficient : Nat
  exponent : Int
  deriving DecidableEq, Repr

namespace Decimal

/-! ## From decimals to ranks -/

/-- The rank nearest to a decimal, ties to even; `infiniteRank` or more where
the decimal is out of range above. The two tests before the division keep
exponents far outside the range from being expanded: beyond 10^310 everything
overflows, and a coefficient is below ten to its binary length, so that with
400 further places everything rounds to zero. -/
def rank (d : Decimal) : Nat :=
  match d.exponent with
  | .ofNat e =>
    if d.coefficient = 0 then 0
    else if 310 < e then infiniteRank
    else Binary64.nearestRank ((d.coefficient * tenTo e) <<< 1074) 1
  | .negSucc e =>
    if d.coefficient.log2 + 400 < e then 0
    else Binary64.nearestRank (d.coefficient <<< 1074) (tenTo (e + 1))

/-- The double nearest to a decimal, if the decimal is in range: zero itself,
or close enough to a double that is neither zero nor infinite. -/
def binary64? (negative : Bool) (d : Decimal) : Option Binary64 :=
  if d.coefficient = 0 then some (.zero negative)
  else if h : 0 < d.rank ∧ d.rank < infiniteRank then some (.finite negative ⟨d.rank, h.2⟩)
  else none

end Decimal

namespace Binary64

/-! ## From ranks to decimals

Lengths are in half units, multiples of 2^-1075, so that the midpoints between
neighbouring ranks are whole numbers. -/

/-- Half-way to the rank below. -/
def lowerEnd (rank : Nat) : Nat :=
  scaled (rank - 1) + scaled rank

/-- Half-way to the rank above. -/
def upperEnd (rank : Nat) : Nat :=
  scaled rank + scaled (rank + 1)

/-- The length of a grid step of `10 ^ exponent`, and the factor that lengths in
half units take to be comparable with it. -/
def gridScale : Int → Nat × Nat
  | .ofNat e => (tenTo e <<< 1075, 1)
  | .negSucc e => (1 <<< 1075, tenTo (e + 1))

/-- Whether `coefficient * 10 ^ exponent` rounds to the given positive rank. -/
def roundsTo (rank : Nat) (exponent : Int) (coefficient : Nat) : Bool :=
  let (step, factor) := gridScale exponent
  let point := coefficient * step
  let low := lowerEnd rank * factor
  let high := upperEnd rank * factor
  if rank % 2 = 0 then low ≤ point && point ≤ high else low < point && point < high

/-- The point nearest to the given positive rank on the grid with steps of
`10 ^ exponent`, among the grid's points that round to it. -/
def gridPoint? (rank : Nat) (exponent : Int) : Option Nat :=
  let (step, factor) := gridScale exponent
  let value := 2 * scaled rank * factor
  let below := value / step
  match roundsTo rank exponent below, roundsTo rank exponent (below + 1) with
  | true, true => some (if 2 * (value % step) < step then below else below + 1)
  | true, false => some below
  | false, true => some (below + 1)
  | false, false => none

/-- An exponent whose grid has no point but zero below the upper end of the
rank's interval, so that no coarser grid can hold more. With `2 ^ k` a power of
two above the magnitude, `10 ^ (k / 3 + 1)` is above `2 ^ k`, and
`10 ^ (3 * k / 10)` is below it. -/
def coarsestExponent (rank : Nat) : Int :=
  let length := (scaled rank).log2 + 1
  if 1074 ≤ length then ((length - 1074) / 3 + 1 : Nat) else -(((1074 - length) * 3 / 10 : Nat) : Int)

/-- The exponents tried, from the coarsest grid to one on which every interval
has a point: the least interval is longer than 10^-324. -/
def exponents (rank : Nat) : List Int :=
  let coarsest := coarsestExponent rank
  (List.range (coarsest + 325).toNat).map fun i : Nat => coarsest - (i : Int)

/-- The decimal with the fewest digits that rounds to the given positive rank,
and of those the one nearest to it. -/
def shortest (rank : Nat) : Decimal :=
  match (exponents rank).findSome? fun e => (gridPoint? rank e).map (Decimal.mk · e) with
  | some d => d
  | none => ⟨0, 0⟩

end Binary64

end PropSchema.Number
