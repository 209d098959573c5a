import LooseValue.Number.Source

/-!
# Floor

The largest integer not above a number, computed on the exact significand. Where the scale is not
negative the number is an integer already; otherwise the quotient by the power of two is the
integer part, and a negative number with a remainder goes one further down.
-/

set_option autoImplicit false

namespace LooseValue

variable {w p : Nat}

/-- The largest integer not above `x`. Integers, both zeros and the infinities are kept as they
are, and so is not-a-number. -/
def Binary.floor (x : Binary w p) : Binary w p :=
  if x.isFinite && x.scale < 0 then
    let divisor := Nat.pow 2 (-x.scale).toNat
    if x.significand % divisor = 0 then x
    else
      let whole := x.significand / divisor
      ofScaled x.negative (if x.negative then whole + 1 else whole) 0
  else x

/-- The floor of any numeric source, in double precision. -/
def NumericSource.floor (n : NumericSource) : Binary64 := n.toBinary64.floor

end LooseValue
