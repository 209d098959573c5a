import LooseValue.Decimal.Layout

/-!
# Texts of numbers

A number has two texts. The canonical text is what a number renders as and what it is compared as
when it meets a text. The detailed text keeps the sign of zero and always shows that the number is
not an integer of another kind.
-/

set_option autoImplicit false

namespace LooseValue

namespace Layout

/-- Canonical text: integers have no fraction, both zeros read `0`, and the exponent form with an
explicit sign starts at `1e+21` and below `0.000001`. -/
def canonical : Layout where
  positionalFrom := -6
  positionalBelow := 21
  wholeSuffix := []
  exponentPlus := ['+']
  zero := ['0']
  negativeZero := ['0']
  notANumber := "NaN".toList
  infinity := "Infinity".toList

/-- Detailed text: a positional number has a fraction, negative zero keeps its sign, and the
exponent form without a plus starts at `1e16` and below `0.0001`. -/
def detailed : Layout where
  positionalFrom := -4
  positionalBelow := 16
  wholeSuffix := ['.', '0']
  exponentPlus := []
  zero := "0.0".toList
  negativeZero := "-0.0".toList
  notANumber := "NaN".toList
  infinity := "inf".toList

end Layout

namespace Binary

def text (x : Binary64) : List Char := Layout.canonical.write x

def detail (x : Binary64) : List Char := Layout.detailed.write x

end Binary

def numberText (x : Binary64) : String := String.ofList x.text

end LooseValue
