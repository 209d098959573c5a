/-!
# Binary interchange numbers

A number is its bit pattern: a sign, an exponent field of `w` bits and a fraction field of `p`
bits. Everything said about a finite number is said on two exact integers, its significand and
its scale: the number is plus or minus `significand * 2 ^ scale`. No rounding happens here.
-/

set_option autoImplicit false

namespace LooseValue

/-- A binary floating-point datum with `w` exponent bits and `p` fraction bits. -/
structure Binary (w p : Nat) where
  /-- The sign bit, also of zeros, infinities and not-a-numbers. -/
  negative : Bool
  exponent : BitVec w
  fraction : BitVec p
  deriving DecidableEq

abbrev Binary64 : Type := Binary 11 52

abbrev Binary32 : Type := Binary 8 23

namespace Binary

variable {w p : Nat}

/-- What the exponent field adds to the exponent it stands for. -/
def bias (w : Nat) : Nat := Nat.pow 2 (w - 1) - 1

def zero (negative : Bool) : Binary w p := ⟨negative, 0, 0⟩

instance : Inhabited (Binary w p) := ⟨zero false⟩

/-- The number whose fields are packed, sign first, into the low bits of `bits`. -/
def ofBits (bits : Nat) : Binary w p where
  negative := bits.testBit (w + p)
  exponent := BitVec.ofNat w (bits / Nat.pow 2 p)
  fraction := BitVec.ofNat p bits

/-- The fields packed into one natural number, sign first. -/
def toBits (x : Binary w p) : Nat :=
  (x.negative.toNat * Nat.pow 2 w + x.exponent.toNat) * Nat.pow 2 p + x.fraction.toNat

/-- Whether the number is finite: an exponent field of all ones is kept for the rest. -/
def isFinite (x : Binary w p) : Bool := x.exponent != BitVec.allOnes w

def isNaN (x : Binary w p) : Bool := x.exponent == BitVec.allOnes w && x.fraction != 0

def isInfinite (x : Binary w p) : Bool := x.exponent == BitVec.allOnes w && x.fraction == 0

def isZero (x : Binary w p) : Bool := x.exponent == 0 && x.fraction == 0

/-- The integer significand; below the normal range the implied leading bit is absent. -/
def significand (x : Binary w p) : Nat :=
  if x.exponent = 0 then x.fraction.toNat else Nat.pow 2 p + x.fraction.toNat

/-- The power of two that the significand is multiplied by. -/
def scale (x : Binary w p) : Int :=
  (max x.exponent.toNat 1 : Nat) - ((bias w + p : Nat) : Int)

/-- Equality of numbers: the two zeros are equal, and not-a-number equals nothing. -/
def numericEq (x y : Binary w p) : Bool :=
  !x.isNaN && !y.isNaN && ((x.isZero && y.isZero) || x == y)

/-- The number plus or minus `m * 2 ^ q`. It is exact when `m`, trailing zero bits aside, fits the
significand and the leading bit of the number falls into the normal range. -/
def ofScaled (negative : Bool) (m : Nat) (q : Int) : Binary w p :=
  if m = 0 then zero negative
  else
    { negative
      exponent := BitVec.ofNat w ((m.log2 : Int) + q + bias w).toNat
      fraction := BitVec.ofNat p (m * Nat.pow 2 p / Nat.pow 2 m.log2) }

def ofInt (n : Int) : Binary w p := ofScaled (n < 0) n.natAbs 0

/-- A not-a-number equals nothing, itself included. -/
theorem numericEq_self (x : Binary w p) : x.numericEq x = !x.isNaN := by
  simp [numericEq]

theorem numericEq_comm (x y : Binary w p) : x.numericEq y = y.numericEq x := by
  unfold numericEq
  rw [Bool.and_comm (!x.isNaN), Bool.and_comm x.isZero, Bool.beq_comm]

end Binary

end LooseValue
