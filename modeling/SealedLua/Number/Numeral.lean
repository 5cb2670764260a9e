import SealedLua.Bytes.Ascii
import SealedLua.Number.Double

/-!
# Doubles and integers as text

Writing works on the exact value of a double: `scaled` divides natural numbers
and rounds once, so every form below is correctly rounded for any precision.
Reading is exact in the same way.

A numeral is read as an integer if it has neither a fraction nor an exponent
and, in decimal, fits in 64 bits; hexadecimal integers wrap instead.  All other
numerals are doubles.
-/

namespace SealedLua

/-- A number of the language: a 64-bit integer or a double. -/
inductive Number where
  | integer (n : Int64)
  | double (x : Double)
deriving DecidableEq, Repr, Inhabited

namespace Double

/-- The exact value of a finite double without its sign, as a ratio. -/
def ratio (x : Double) : Nat × Nat :=
  if 0 ≤ x.exponent then (x.mantissa * 2 ^ x.exponent.toNat, 1)
    else (x.mantissa, 2 ^ (-x.exponent).toNat)

/-- The nearest natural to `num / den * 10 ^ places`, ties to even. -/
def scaled (num den : Nat) (places : Int) : Nat :=
  if 0 ≤ places then roundDiv (num * 10 ^ places.toNat) den
    else roundDiv num (den * 10 ^ (-places).toNat)

private def reaches (num den : Nat) (k : Int) : Bool :=
  if 0 ≤ k then den * 10 ^ k.toNat ≤ num else den ≤ num * 10 ^ (-k).toNat

/-- The decimal logarithm of a positive ratio, rounded down. -/
def log10Ratio (num den : Nat) : Int :=
  let guess := Int.fdiv (logRatio num den * 1233) 4096 - 1
  if reaches num den (guess + 2) then guess + 2
  else if reaches num den (guess + 1) then guess + 1
  else guess

/-- The first `count` significant digits of a positive ratio, rounded, as a
natural of `count` digits, and the power of ten of the first digit. -/
def significant (num den count : Nat) : Nat × Int :=
  if num = 0 then (0, 0)
  else
    let lead := log10Ratio num den
    let digits := scaled num den (count - 1 - lead)
    if digits = 10 ^ count then (digits / 10, lead + 1) else (digits, lead)

/-- A numeral of at least `width` digits, filled with zeros. -/
def padded (width n : Nat) : List UInt8 :=
  let digits := Ascii.numeral 10 n
  List.replicate (width - digits.length) 48 ++ digits

/-- Digits with a point before the last `places` of them.  The point is left
out if no digit follows it, unless `pointed`. -/
def withPoint (places : Nat) (pointed : Bool) (n : Nat) : List UInt8 :=
  let digits := padded (places + 1) n
  let split := digits.length - places
  digits.take split ++ (if places = 0 && !pointed then [] else 46 :: digits.drop split)

/-- Positional form of the magnitude with `places` digits after the point. -/
def fixed (x : Double) (places : Nat) (pointed : Bool) : List UInt8 :=
  let (num, den) := x.ratio
  withPoint places pointed (scaled num den places)

/-- An exponent with its sign and at least `width` digits. -/
def exponentText (mark : UInt8) (width : Nat) (e : Int) : List UInt8 :=
  mark :: (if e < 0 then 45 else 43) :: padded width e.natAbs

/-- Scientific form of the magnitude with `places` digits after the point. -/
def scientific (x : Double) (places : Nat) (pointed : Bool) : List UInt8 :=
  let (num, den) := x.ratio
  let (digits, lead) := significant num den (places + 1)
  withPoint places pointed digits ++ exponentText 101 2 lead

/-- Drops the zeros at the end of a fraction, and its point if nothing is left. -/
def trimFraction (text : List UInt8) : List UInt8 :=
  if text.contains 46 then
    let kept := text.reverse.dropWhile (· == 48)
    (if kept.head? == some 46 then kept.tail else kept).reverse
  else text

/-- The shorter of the two forms of the magnitude to `digits` significant
digits: positional where the leading digit's power of ten is at least -4 and
less than `digits`.  Zeros at the end are dropped unless `pointed`. -/
def general (x : Double) (digits : Nat) (pointed : Bool) : List UInt8 :=
  let count := if digits = 0 then 1 else digits
  let (num, den) := x.ratio
  let (mantissa, lead) := significant num den count
  let trim := fun text => if pointed then text else trimFraction text
  if -4 ≤ lead && lead < count then trim (fixed x (count - 1 - lead).toNat pointed)
  else trim (withPoint (count - 1) pointed mantissa) ++ exponentText 101 2 lead

/-- Hexadecimal form of the magnitude.  Without a number of places the fraction
is exact and has no zeros at its end; with one it is rounded to that many hexadecimal digits. -/
def hexadecimal (x : Double) (places : Option Nat) (pointed : Bool) : List UInt8 :=
  let lead := if x.exponentField = 0 then 0 else 1
  let power : Int := if x.isZero then 0 else if x.exponentField = 0 then -1022
    else (x.exponentField : Int) - 1023
  let digitsOf := fun (width n : Nat) =>
    let digits := if width = 0 then [] else Ascii.numeral 16 n
    List.replicate (width - digits.length) 48 ++ digits
  let (lead, fractionDigits) :=
    match places with
    | none => (lead, ((digitsOf 13 x.fraction).reverse.dropWhile (· == 48)).reverse)
    | some p =>
      if p < 13 then
        let rounded := roundDiv (lead * 2 ^ 52 + x.fraction) (16 ^ (13 - p))
        (rounded / 16 ^ p, digitsOf p (rounded % 16 ^ p))
      else (lead, digitsOf 13 x.fraction ++ List.replicate (p - 13) 48)
  let exponentDigits := 112 :: (if power < 0 then 45 else 43) :: Ascii.numeral 10 power.natAbs
  ascii "0x" ++ [Ascii.digit lead] ++ (if fractionDigits.isEmpty && !pointed then []
    else 46 :: fractionDigits) ++
    exponentDigits

/-- Writes a double with its sign; what is not finite has a name instead of digits. -/
def signed (x : Double) (magnitude : Double → List UInt8) : List UInt8 :=
  (if x.negative then [45] else []) ++
    if x.isNaN then ascii "nan" else if x.isInfinite then ascii "inf" else magnitude x

end Double

namespace Number

/-- The text of a double: fourteen significant digits, with `.0` added where
the text would otherwise be an integer's. -/
def doubleText (x : Double) : List UInt8 :=
  let text := x.signed fun x => x.general 14 false
  if text.all fun c => Ascii.isDigit c || c == 45 then text ++ ascii ".0" else text

def text : Number → List UInt8
  | .integer n => Ascii.decimal n.toInt
  | .double x => doubleText x

def takeSign : List UInt8 → Bool × List UInt8
  | 45 :: rest => (true, rest)
  | 43 :: rest => (false, rest)
  | rest => (false, rest)

def takeDigits (base : Nat) (text : List UInt8) : List Nat × List UInt8 :=
  let inBase := fun c => match Ascii.hexValue? c with
    | some v => decide (v < base)
    | none => false
  (text.takeWhile inBase |>.filterMap Ascii.hexValue?, text.dropWhile inBase)

/-- Splits an exponent off a text.  A mark that no digit follows is no exponent. -/
def takeExponent (mark : UInt8) (text : List UInt8) : Int × List UInt8 :=
  match text with
  | c :: rest =>
    if Ascii.toLower c == mark then
      let (negative, rest) := takeSign rest
      let (digits, rest) := takeDigits 10 rest
      if digits.isEmpty then (0, text)
      else (if negative then -(Ascii.value 10 digits : Int) else Ascii.value 10 digits, rest)
    else (0, text)
  | [] => (0, [])

/-- The double nearest to `± mantissa * 10 ^ power`.  Far outside the range of
doubles the power is not computed. -/
def decimalDouble (negative : Bool) (mantissa : Nat) (power : Int) : Double :=
  let size : Int := power + (mantissa.log2 : Int) / 3
  if mantissa = 0 then .zero negative
  else if 700 < size then .infinity negative
  else if power + (mantissa.log2 : Int) < -1100 then .zero negative
  else if 0 ≤ power then .ofRatio negative (mantissa * 10 ^ power.toNat) 1
  else .ofRatio negative mantissa (10 ^ (-power).toNat)

def binaryDouble (negative : Bool) (mantissa : Nat) (power : Int) : Double :=
  let size : Int := power + mantissa.log2
  if mantissa = 0 then .zero negative
  else if 1100 < size then .infinity negative
  else if size < -1200 then .zero negative
  else .ofDyadic negative mantissa power

/-- Reads digits with an optional point among them; at least one digit is needed. -/
def takeMantissa (base : Nat) (text : List UInt8) : Option (Nat × Nat × List UInt8) :=
  let (whole, rest) := takeDigits base text
  let (fraction, rest) := match rest with
    | 46 :: more => takeDigits base more
    | _ => ([], rest)
  if whole.isEmpty && fraction.isEmpty then none
  else some (Ascii.value base (whole ++ fraction), fraction.length, rest)

/-- Reads an unsigned double and gives the text that follows it. -/
def takeDouble (negative : Bool) (text : List UInt8) : Option (Double × List UInt8) :=
  let decimal := fun text => do
    let (mantissa, places, rest) ← takeMantissa 10 text
    let (power, rest) := takeExponent 101 rest
    return (decimalDouble negative mantissa (power - places), rest)
  match text with
  | 48 :: x :: rest =>
    if Ascii.toLower x == 120 then do
      let (mantissa, places, rest) ← takeMantissa 16 rest
      let (power, rest) := takeExponent 112 rest
      return (binaryDouble negative mantissa (power - 4 * places), rest)
    else decimal text
  | _ => decimal text

/-- Reads an unsigned integer and gives the text that follows it. -/
def takeInteger (negative : Bool) (text : List UInt8) : Option (Int64 × List UInt8) :=
  let sign := fun (n : Nat) => Int64.ofInt (if negative then -(n : Int) else n)
  let decimal := fun text =>
    let (digits, rest) := takeDigits 10 text
    let n := Ascii.value 10 digits
    if digits.isEmpty || n > (if negative then 2 ^ 63 else 2 ^ 63 - 1) then none
    else some (sign n, rest)
  match text with
  | 48 :: x :: rest =>
    if Ascii.toLower x == 120 then
      let (digits, rest) := takeDigits 16 rest
      if digits.isEmpty then none else some (sign (Ascii.value 16 digits), rest)
    else decimal text
  | _ => decimal text

/-- Reads a numeral that fills the text, up to white space at both ends. -/
def read? (text : List UInt8) : Option Number :=
  let (negative, body) := takeSign (text.dropWhile Ascii.isSpace)
  let fills := fun (rest : List UInt8) => rest.all Ascii.isSpace
  match takeInteger negative body with
  | some (n, rest) => if fills rest then some (.integer n) else double negative body fills
  | none => double negative body fills
where
  double (negative : Bool) (body : List UInt8) (fills : List UInt8 → Bool) : Option Number :=
    match takeDouble negative body with
    | some (x, rest) => if fills rest then some (.double x) else none
    | none => none

end Number
end SealedLua
