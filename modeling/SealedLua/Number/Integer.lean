/-!
# Integers from text

Decimal integers of 64 bits with an optional sign.  A text is read from left to
right, and the first thing that is wrong with it is what is reported.
-/

namespace SealedLua

inductive IntegerFault where
  | empty
  | invalidDigit
  | tooLarge
  | tooSmall
deriving DecidableEq, Repr

namespace IntegerFault

def message : IntegerFault → String
  | .empty => "cannot parse integer from empty string"
  | .invalidDigit => "invalid digit found in string"
  | .tooLarge => "number too large to fit in target type"
  | .tooSmall => "number too small to fit in target type"

end IntegerFault

namespace Integer

/-- The largest magnitude of an integer of a sign. -/
def limit (isNegative : Bool) : Nat := if isNegative then 2 ^ 63 else 2 ^ 63 - 1

/-- Reads digits after the number that came before them. -/
def readDigits (isNegative : Bool) (n : Nat) : List Char → Except IntegerFault Nat
  | [] => .ok n
  | c :: rest =>
    let next := n * 10 + (c.toNat - 48)
    if !c.isDigit then .error .invalidDigit
    else if limit isNegative < next then .error (if isNegative then .tooSmall else .tooLarge)
    else readDigits isNegative next rest

def readMagnitude (isNegative : Bool) : List Char → Except IntegerFault Int64
  | [] => .error .invalidDigit
  | digits => do
    let n ← readDigits isNegative 0 digits
    return Int64.ofInt (if isNegative then -n else n)

def read (text : String) : Except IntegerFault Int64 :=
  match text.toList with
  | [] => .error .empty
  | '-' :: rest => readMagnitude true rest
  | '+' :: rest => readMagnitude false rest
  | digits => readMagnitude false digits

end Integer
end SealedLua
