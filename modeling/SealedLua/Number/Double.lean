/-!
# Doubles as bit patterns

A `Double` is an IEEE 754 binary64 number, held as its 64 bits.  A finite
double stands for `± mantissa * 2 ^ exponent`; the four basic operations take
the exact value of their operands, compute with natural numbers and round once,
to the nearest double with ties to even.  Nothing here depends on the machine's
floating-point unit, so a result can be computed inside a proof as well.

Only two conventions are not in the standard's default: an invalid operation
gives the negative quiet NaN, and an operation on NaNs gives its first NaN
operand, quieted.  The sign of a NaN is visible when it is written as text.
-/

namespace SealedLua

/-- An IEEE 754 binary64 number, by its bits. -/
structure Double where
  bits : UInt64
deriving DecidableEq, Hashable, Inhabited, Repr

namespace Double

def negative (x : Double) : Bool := 2 ^ 63 ≤ x.bits.toNat

def exponentField (x : Double) : Nat := x.bits.toNat / 2 ^ 52 % 2048

def fraction (x : Double) : Nat := x.bits.toNat % 2 ^ 52

def isNaN (x : Double) : Bool := x.exponentField == 2047 && x.fraction != 0

def isInfinite (x : Double) : Bool := x.exponentField == 2047 && x.fraction == 0

def isFinite (x : Double) : Bool := x.exponentField != 2047

def isZero (x : Double) : Bool := x.exponentField == 0 && x.fraction == 0

/-- The mantissa of a finite double, with its hidden bit. -/
def mantissa (x : Double) : Nat :=
  if x.exponentField = 0 then x.fraction else 2 ^ 52 + x.fraction

/-- The power of two that scales the mantissa of a finite double. -/
def exponent (x : Double) : Int :=
  if x.exponentField = 0 then -1074 else (x.exponentField : Int) - 1075

/-- The double with this sign and these sixty-three low bits. -/
def ofFields (negative : Bool) (magnitude : Nat) : Double :=
  ⟨UInt64.ofNat (magnitude % 2 ^ 63 + if negative then 2 ^ 63 else 0)⟩

def infinity (negative : Bool) : Double := ofFields negative (2047 * 2 ^ 52)

def zero (negative : Bool) : Double := ofFields negative 0

def invalid : Double := ofFields true (2047 * 2 ^ 52 + 2 ^ 51)

def quiet (x : Double) : Double := ⟨x.bits ||| 0x0008000000000000⟩

/-- The double `± mantissa * 2 ^ exponent` for a mantissa of at most 53 bits
that is already on the grid of doubles; a mantissa of exactly `2 ^ 53` carries
into the next binade, and a magnitude beyond the largest double is infinite. -/
def encode (negative : Bool) (mantissa : Nat) (exponent : Int) : Double :=
  if mantissa < 2 ^ 52 then ofFields negative mantissa
  else
    let magnitude := (exponent + 1075).toNat * 2 ^ 52 + (mantissa - 2 ^ 52)
    if magnitude < 2047 * 2 ^ 52 then ofFields negative magnitude else infinity negative

/-- The quotient of two naturals as the nearest natural, ties to even. -/
def roundDiv (num den : Nat) : Nat :=
  let q := num / den
  let r := num % den
  if 2 * r < den then q
  else if den < 2 * r then q + 1
  else if q % 2 = 0 then q else q + 1

/-- The binary logarithm of the ratio of two positive naturals, rounded down. -/
def logRatio (num den : Nat) : Int :=
  let guess : Int := (Nat.log2 num : Int) - (Nat.log2 den : Int)
  let reached := if 0 ≤ guess then den * 2 ^ guess.toNat ≤ num else den ≤ num * 2 ^ (-guess).toNat
  if reached then guess else guess - 1

/-- The double nearest to `± num / den`, ties to even, for a positive `den`. -/
def ofRatio (negative : Bool) (num den : Nat) : Double :=
  if num = 0 then zero negative
  else
    let grid := max (logRatio num den - 52) (-1074)
    let mantissa :=
      if 0 ≤ grid then roundDiv num (den * 2 ^ grid.toNat)
        else roundDiv (num * 2 ^ (-grid).toNat) den
    encode negative mantissa grid

/-- The double nearest to `± mantissa * 2 ^ exponent`, ties to even. -/
def ofDyadic (negative : Bool) (mantissa : Nat) (exponent : Int) : Double :=
  if 0 ≤ exponent then ofRatio negative (mantissa * 2 ^ exponent.toNat) 1
  else ofRatio negative mantissa (2 ^ (-exponent).toNat)

def ofInt (n : Int) : Double := ofDyadic (n < 0) n.natAbs 0

def signedMantissa (x : Double) : Int := if x.negative then -(x.mantissa : Int) else x.mantissa

/-- The value of a finite double, if it is a whole number. -/
def toInt? (x : Double) : Option Int :=
  if !x.isFinite then none
  else if 0 ≤ x.exponent then some (x.signedMantissa * 2 ^ x.exponent.toNat)
  else
    let unit : Nat := 2 ^ (-x.exponent).toNat
    if x.mantissa % unit = 0 then some (if x.negative then -((x.mantissa / unit : Nat) : Int)
      else (x.mantissa / unit : Nat))
    else none

/-- The largest integer that is not above a finite double. -/
def floorInt (x : Double) : Int :=
  if 0 ≤ x.exponent then x.signedMantissa * 2 ^ x.exponent.toNat
  else Int.fdiv x.signedMantissa (2 ^ (-x.exponent).toNat)

/-- The smallest integer that is not below a finite double. -/
def ceilInt (x : Double) : Int :=
  if 0 ≤ x.exponent then x.signedMantissa * 2 ^ x.exponent.toNat
  else -Int.fdiv (-x.signedMantissa) (2 ^ (-x.exponent).toNat)

/-- A whole number as a double that keeps the sign of `like` when it is zero. -/
def whole (like : Double) (n : Int) : Double :=
  if n = 0 then zero like.negative else ofInt n

/-- Rounds down to a whole number; infinities and NaNs stay as they are. -/
def floor (x : Double) : Double := if x.isFinite then whole x x.floorInt else x

/-- Rounds up to a whole number; infinities and NaNs stay as they are. -/
def ceil (x : Double) : Double := if x.isFinite then whole x x.ceilInt else x

def neg (x : Double) : Double := ⟨x.bits ^^^ 0x8000000000000000⟩

def abs (x : Double) : Double := ⟨x.bits &&& 0x7FFFFFFFFFFFFFFF⟩

/-- The place of a double that is not NaN in the order of doubles. -/
def rank (x : Double) : Int :=
  let magnitude : Int := (x.bits.toNat % 2 ^ 63 : Nat)
  if x.negative then -magnitude else magnitude

/-- Equality of numbers: zeros are equal, a NaN equals nothing. -/
def eq (x y : Double) : Bool := !x.isNaN && !y.isNaN && x.rank == y.rank

def lt (x y : Double) : Bool := !x.isNaN && !y.isNaN && decide (x.rank < y.rank)

def le (x y : Double) : Bool := !x.isNaN && !y.isNaN && decide (x.rank ≤ y.rank)

/-- The sum of two finite doubles.  An exact zero is negative only if both
operands are. -/
private def addFinite (x y : Double) : Double :=
  let grid := min x.exponent y.exponent
  let total := x.signedMantissa * 2 ^ (x.exponent - grid).toNat + y.signedMantissa *
    2 ^ (y.exponent - grid).toNat
  if total = 0 then zero (x.negative && y.negative) else ofDyadic (total < 0) total.natAbs grid

def add (x y : Double) : Double :=
  if x.isNaN then x.quiet
  else if y.isNaN then y.quiet
  else if x.isInfinite then if y.isInfinite && x.negative != y.negative then invalid else x
  else if y.isInfinite then y
  else addFinite x y

def sub (x y : Double) : Double :=
  if x.isNaN then x.quiet
  else if y.isNaN then y.quiet
  else add x y.neg

def mul (x y : Double) : Double :=
  let negative := x.negative != y.negative
  if x.isNaN then x.quiet
  else if y.isNaN then y.quiet
  else if x.isInfinite || y.isInfinite then
    if x.isZero || y.isZero then invalid else infinity negative
  else ofDyadic negative (x.mantissa * y.mantissa) (x.exponent + y.exponent)

def div (x y : Double) : Double :=
  let negative := x.negative != y.negative
  if x.isNaN then x.quiet
  else if y.isNaN then y.quiet
  else if x.isInfinite then if y.isInfinite then invalid else infinity negative
  else if y.isInfinite then zero negative
  else if y.isZero then if x.isZero then invalid else infinity negative
  else
    let shift := x.exponent - y.exponent
    if 0 ≤ shift then ofRatio negative (x.mantissa * 2 ^ shift.toNat) y.mantissa
    else ofRatio negative x.mantissa (y.mantissa * 2 ^ (-shift).toNat)

/-- The remainder of a division that rounds its quotient toward zero; it is
exact and has the sign of the dividend. -/
def remainder (x y : Double) : Double :=
  if x.isNaN then x.quiet
  else if y.isNaN then y.quiet
  else if x.isInfinite || y.isZero then invalid
  else if y.isInfinite || x.isZero then x
  else
    let grid := min x.exponent y.exponent
    let rest := (x.mantissa * 2 ^ (x.exponent - grid).toNat) %
      (y.mantissa * 2 ^ (y.exponent - grid).toNat)
    ofDyadic x.negative rest grid

/-- The remainder of a division that rounds its quotient down: it has the sign
of the divisor. -/
def modulo (x y : Double) : Double :=
  let m := remainder x y
  let opposite := lt (zero false) m && lt y (zero false) || lt m (zero false) && lt (zero false) y
  if opposite then add m y else m

/-- Applies a function of the machine's arithmetic.  It is used for roots,
powers, logarithms and angles only, of which no law is stated. -/
def viaFloat (f : Float → Float) (x : Double) : Double :=
  if x.isNaN then x.quiet
  else
    let r : Double := ⟨(f (Float.ofBits x.bits)).toBits⟩
    if r.isNaN then invalid else r

def viaFloat₂ (f : Float → Float → Float) (x y : Double) : Double :=
  let r : Double := ⟨(f (Float.ofBits x.bits) (Float.ofBits y.bits)).toBits⟩
  if !r.isNaN then r else if x.isNaN then x.quiet else if y.isNaN then y.quiet else invalid

def sqrt (x : Double) : Double := viaFloat Float.sqrt x

/-- A power; a square is a product, which rounds once. -/
def pow (x y : Double) : Double :=
  if eq y (ofInt 2) then mul x x else viaFloat₂ Float.pow x y

end Double
end SealedLua
