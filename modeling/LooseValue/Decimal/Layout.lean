import LooseValue.Decimal.Shortest

/-!
# Layout of decimals

How a decimal is written out: which magnitudes are positional, and how the parts of the exponent
form are spelled. A `Layout` collects the decisions; the functions below apply them.
-/

set_option autoImplicit false

namespace LooseValue

/-- The decisions of a number format. -/
structure Layout where
  /-- The least exponent of the leading digit that is written positionally. -/
  positionalFrom : Int
  /-- The least exponent of the leading digit above those written positionally. -/
  positionalBelow : Int
  /-- What follows the digits of a positional integer. -/
  wholeSuffix : List Char
  /-- What stands before a nonnegative exponent. -/
  exponentPlus : List Char
  zero : List Char
  negativeZero : List Char
  notANumber : List Char
  infinity : List Char

namespace Decimal

/-- The digits, most significant first. -/
def text (d : Decimal) : List Char := Nat.toDigits 10 d.digits

/-- The exponent of the leading digit. -/
def leading (d : Decimal) : Int := d.exponent + d.text.length - 1

def positional (layout : Layout) (d : Decimal) : List Char :=
  let point := d.exponent + d.text.length
  if 0 ≤ d.exponent then d.text ++ List.replicate d.exponent.toNat '0' ++ layout.wholeSuffix
  else if 0 < point then d.text.take point.toNat ++ '.' :: d.text.drop point.toNat
  else '0' :: '.' :: List.replicate (-point).toNat '0' ++ d.text

/-- The digits with a point after the first, if there are more. -/
def pointed : List Char → List Char
  | [] => []
  | [digit] => [digit]
  | digit :: rest => digit :: '.' :: rest

def scientific (layout : Layout) (d : Decimal) : List Char :=
  let mark := if d.leading < 0 then ['-'] else layout.exponentPlus
  pointed d.text ++ 'e' :: mark ++ Nat.toDigits 10 d.leading.natAbs

/-- The notation that the layout chooses for the magnitude. -/
def write (layout : Layout) (d : Decimal) : List Char :=
  if layout.positionalFrom ≤ d.leading ∧ d.leading < layout.positionalBelow
  then d.positional layout else d.scientific layout

end Decimal

/-- A minus sign before the text of a negative number. -/
def signed (negative : Bool) (text : List Char) : List Char :=
  if negative then '-' :: text else text

/-- The text of a number: the shortest decimal that rounds to it, in the given layout. -/
def Layout.write {w p : Nat} (layout : Layout) (x : Binary w p) : List Char :=
  if x.isNaN then layout.notANumber
  else if x.isInfinite then signed x.negative layout.infinity
  else if x.isZero then (if x.negative then layout.negativeZero else layout.zero)
  else signed x.negative (x.shortest.write layout)

end LooseValue
