import SealedLua.Number.Shortest

/-!
# Numbers in JSON

A numeral without fraction and exponent is an integer as long as it fits in 64
bits.  All others are doubles: the digits that fit in 64 bits, scaled by one
multiplication or division by a power of ten, which is not always the nearest
double.
-/

namespace SealedLua.Json

inductive NumberFault where
  /-- The text ends in the middle of a numeral. -/
  | unfinished
  | malformed
  | outOfRange
deriving DecidableEq, Repr

inductive Number where
  | natural (n : Nat)
  | negative (n : Int)
  | double (x : Double)
deriving DecidableEq, Repr

/-- What is read off the front of a text together with the text that follows
it, or why nothing can be read and the text that has not been looked at. -/
abbrev Reading (ε α : Type) : Type := Except (ε × List Char) (α × List Char)

namespace Number

def bound : Nat := 2 ^ 64

/-- Digits with the number that they add up to. -/
structure Run where
  value : Nat
  count : Nat
  rest : List Char

/-- Takes digits as long as the number stays below the bound. -/
def takeFitting (value count : Nat) : List Char → Run
  | [] => ⟨value, count, []⟩
  | c :: rest =>
    let next := value * 10 + (c.toNat - 48)
    if c.isDigit && next < bound then takeFitting next (count + 1) rest
      else ⟨value, count, c :: rest⟩

def startsWithDigit : List Char → Bool
  | c :: _ => c.isDigit
  | [] => false

/-- The largest power of ten that a double can be multiplied by. -/
def largestPower : Nat := 308

def powerOfTen (k : Nat) : Double := SealedLua.Number.decimalDouble false 1 k

/-- Divides by powers of ten.  Divided by `10 ^ 308` twice, a number below
`2 ^ 64` is zero. -/
def lowered (x : Double) (places : Nat) : Double :=
  if places ≤ largestPower then x.div (powerOfTen places)
  else
    let x := x.div (powerOfTen largestPower)
    if places - largestPower ≤ largestPower then x.div (powerOfTen (places - largestPower))
    else x.div (powerOfTen largestPower)

/-- The double `± significand * 10 ^ power`, if there is one. -/
def scale (isNegative : Bool) (significand : Nat) (power : Int) : Option Double :=
  let x := Double.ofInt significand
  let signed := fun (x : Double) => if isNegative then x.neg else x
  if power < 0 then some (signed (lowered x (-power).toNat))
  else if power ≤ largestPower then
    let x := x.mul (powerOfTen power.toNat)
    if x.isInfinite then none else some (signed x)
  else if significand = 0 then some (signed x)
  else none

def scaledAt (isNegative : Bool) (significand : Nat) (power : Int) (rest : List Char) :
    Reading NumberFault Number :=
  match scale isNegative significand power with
  | some x => .ok (.double x, rest)
  | none => .error (.outOfRange, rest)

/-- Exponents from this one on are beyond every double. -/
def exponentBound : Nat := 2 ^ 31

/-- Reads the rest of a numeral after the mark of its exponent. -/
def readExponent (isNegative : Bool) (significand : Nat) (power : Int) (text : List Char) :
    Reading NumberFault Number :=
  let (lowers, text) := match text with
    | '-' :: rest => (true, rest)
    | '+' :: rest => (false, rest)
    | text => (false, text)
  match text with
  | [] => .error (.unfinished, [])
  | c :: rest =>
    if !c.isDigit then .error (.malformed, rest)
    else
      let exponent := Ascii.value 10 ((text.takeWhile Char.isDigit).map fun d => d.toNat - 48)
      let rest := text.dropWhile Char.isDigit
      if exponent < exponentBound then
        scaledAt isNegative significand (if lowers then power - exponent else power + exponent) rest
      else if significand ≠ 0 && !lowers then .error (.outOfRange, rest)
      else .ok (.double (.zero isNegative), rest)

/-- Reads the rest of a numeral after its last digit before an exponent. -/
def readAfterDigits (isNegative : Bool) (significand : Nat) (power : Int) :
    List Char → Reading NumberFault Number
  | 'e' :: rest | 'E' :: rest => readExponent isNegative significand power rest
  | rest => scaledAt isNegative significand power rest

def readFraction (isNegative : Bool) (significand : Nat) (power : Int) (text : List Char) :
    Reading NumberFault Number :=
  let run := takeFitting significand 0 text
  if run.count = 0 && !startsWithDigit run.rest then
    match run.rest with
    | [] => .error (.unfinished, [])
    | _ :: rest => .error (.malformed, rest)
  else readAfterDigits isNegative run.value (power - run.count) (run.rest.dropWhile Char.isDigit)

/-- A whole number.  There is no negative zero among the integers. -/
def ofWhole (isNegative : Bool) (n : Nat) : Number :=
  if !isNegative then .natural n
  else if n = 0 || 2 ^ 63 < n then .double (Double.ofInt n).neg
  else .negative (-n)

def readAfterWhole (isNegative : Bool) (n : Nat) : List Char → Reading NumberFault Number
  | '.' :: rest => readFraction isNegative n 0 rest
  | 'e' :: rest | 'E' :: rest => readExponent isNegative n 0 rest
  | rest => .ok (ofWhole isNegative n, rest)

/-- Reads the rest of a numeral when more digits come than fit. -/
def readLong (isNegative : Bool) (n : Nat) (text : List Char) : Reading NumberFault Number :=
  let power : Int := ((text.takeWhile Char.isDigit).length : Nat)
  match text.dropWhile Char.isDigit with
  | '.' :: rest => readFraction isNegative n power rest
  | rest => readAfterDigits isNegative n power rest

/-- Reads a numeral after its sign.  No other digit follows a leading zero. -/
def readUnsigned (isNegative : Bool) : List Char → Reading NumberFault Number
  | [] => .error (.unfinished, [])
  | '0' :: rest =>
    match rest with
    | d :: more => if d.isDigit then .error (.malformed, more) else readAfterWhole isNegative 0 rest
    | [] => readAfterWhole isNegative 0 []
  | c :: rest =>
    if !c.isDigit then .error (.malformed, rest)
    else
      let run := takeFitting 0 0 (c :: rest)
      if startsWithDigit run.rest then readLong isNegative run.value run.rest
      else readAfterWhole isNegative run.value run.rest

def read : List Char → Reading NumberFault Number
  | '-' :: rest => readUnsigned true rest
  | text => readUnsigned false text

/-- Decimal exponents from which on and up to which a double is shown without an exponent. -/
def leastPositional : Int := -5
def greatestPositional : Int := 15

/-- The shortest form of a double, with a point or an exponent in any case. -/
def doubleText (x : Double) : String :=
  let d := x.shortest
  let digits := Ascii.numeral 10 d.digits
  let lead : Int := d.power + digits.length - 1
  let zeros := fun (n : Int) => List.replicate n.toNat 48
  let unsigned :=
    if lead < leastPositional || greatestPositional < lead then
      digits.take 1 ++ (if digits.length = 1 then [] else 46 :: digits.drop 1) ++
        Double.exponentText 101 2 lead
    else if lead < 0 then ascii "0." ++ zeros (-lead - 1) ++ digits
    else if 0 ≤ d.power then digits ++ zeros d.power ++ ascii ".0"
    else digits.take (lead + 1).toNat ++ [46] ++ digits.drop (lead + 1).toNat
  Ascii.text ((if x.negative then [45] else []) ++ unsigned)

def shown : Number → String
  | .natural n => toString n
  | .negative n => toString n
  | .double x => doubleText x

end Number
end SealedLua.Json
