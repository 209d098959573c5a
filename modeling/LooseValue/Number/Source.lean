import LooseValue.Number.Binary

/-!
# Numeric sources

The kinds of number that may be handed over where a double-precision number is stored. Each of
them is contained in double precision, so the conversion keeps the exact value.
-/

set_option autoImplicit false

namespace LooseValue

/-- A number of a type that double precision contains. -/
inductive NumericSource where
  | binary64 (x : Binary64)
  | binary32 (x : Binary32)
  | int8 (n : Int8)
  | int16 (n : Int16)
  | int32 (n : Int32)
  | uint8 (n : UInt8)
  | uint16 (n : UInt16)
  | uint32 (n : UInt32)
  | boolean (b : Bool)
  deriving DecidableEq

/-- Single precision widened to double: finite numbers keep their value, the others their class
and sign. -/
def Binary.widen (x : Binary32) : Binary64 :=
  if x.isFinite then ofScaled x.negative x.significand x.scale
  else ⟨x.negative, BitVec.allOnes 11, BitVec.ofNat 52 (x.fraction.toNat * Nat.pow 2 29)⟩

/-- The double-precision number of the same value; true counts as one. -/
def NumericSource.toBinary64 : NumericSource → Binary64
  | .binary64 x => x
  | .binary32 x => x.widen
  | .int8 n => .ofInt n.toInt
  | .int16 n => .ofInt n.toInt
  | .int32 n => .ofInt n.toInt
  | .uint8 n => .ofInt n.toNat
  | .uint16 n => .ofInt n.toNat
  | .uint32 n => .ofInt n.toNat
  | .boolean b => .ofInt b.toNat

end LooseValue
