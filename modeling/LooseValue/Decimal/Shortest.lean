import LooseValue.Number.Binary

/-!
# Shortest decimals

The decimal with the fewest digits among those that round to a given binary number, and of these
the nearest to it. All arithmetic is exact: the number, written as a natural number of units
`10 ^ exponent`, stands in the interval of those reals that round to it, and grids of ever finer
powers of ten are tried until one has a point in the interval. The number itself is a point of the
finest grid, so the search always ends with an answer.
-/

set_option autoImplicit false

namespace LooseValue

/-- The number `digits * 10 ^ exponent`. -/
structure Decimal where
  digits : Nat
  exponent : Int
  deriving DecidableEq

/-- The reals that round to one positive number. The ends are counted in quarters of the unit
`10 ^ exponent`, since they lie halfway, or where the neighbour below is nearer a quarter of the
way, to the neighbours. -/
structure RoundingInterval where
  /-- The number itself, in units. -/
  center : Nat
  lower : Nat
  upper : Nat
  closed : Bool
  /-- The power of ten that is the unit. -/
  exponent : Int
  deriving DecidableEq

namespace RoundingInterval

/-- The interval of the number `m * 2 ^ q`; `narrow` says that the gap below it is half the gap
above it. Ties round to the even significand, so the ends belong to it when `m` is even. -/
def ofScaled (m : Nat) (q : Int) (narrow : Bool) : RoundingInterval :=
  let unit := if 0 ≤ q then Nat.pow 2 q.toNat else Nat.pow 5 (-q).toNat
  { center := m * unit
    lower := (4 * m - if narrow then 1 else 2) * unit
    upper := (4 * m + 2) * unit
    closed := m % 2 == 0
    exponent := min q 0 }

/-- Whether a whole number of units rounds to the number. -/
def contains (interval : RoundingInterval) (units : Nat) : Bool :=
  if interval.closed then interval.lower ≤ 4 * units && 4 * units ≤ interval.upper
  else interval.lower < 4 * units && 4 * units < interval.upper

/-- The first hit on the grids `10 ^ fineness` and finer. On each grid only the two neighbours of
the number are tried; of two hits the nearer wins, and a tie goes up. -/
def search (interval : RoundingInterval) : (fineness : Nat) → Decimal
  | 0 => ⟨interval.center, interval.exponent⟩
  | fineness + 1 =>
      let step := Nat.pow 10 (fineness + 1)
      let below := interval.center / step
      let above := below + 1
      let exponent := interval.exponent + (fineness + 1 : Nat)
      match interval.contains (below * step), interval.contains (above * step) with
      | true, true =>
          if interval.center - below * step < above * step - interval.center
          then ⟨below, exponent⟩ else ⟨above, exponent⟩
      | true, false => ⟨below, exponent⟩
      | false, true => ⟨above, exponent⟩
      | false, false => interval.search fineness

/-- The shortest decimal in the interval. The search starts at a grid wider than the number. -/
def shortest (interval : RoundingInterval) : Decimal :=
  interval.search (Nat.toDigits 10 interval.center).length

end RoundingInterval

namespace Binary

variable {w p : Nat}

/-- Whether the neighbour below is nearer than the one above: at the bottom of a binade, except
the lowest. -/
def isNarrow (x : Binary w p) : Bool := x.fraction == 0 && decide (1 < x.exponent.toNat)

/-- The reals that round to the magnitude of a finite nonzero number. -/
def roundingInterval (x : Binary w p) : RoundingInterval :=
  .ofScaled x.significand x.scale x.isNarrow

/-- The shortest decimal that rounds to the magnitude of a finite nonzero number. -/
def shortest (x : Binary w p) : Decimal := x.roundingInterval.shortest

end Binary

end LooseValue
