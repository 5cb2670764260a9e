import SealedLua.Lua.Native

/-!
# The mathematical functions

Functions that can be exact are: rounding, remainders, comparison, and splitting
a double.  Angles, logarithms and powers go through the machine's arithmetic.
Random numbers come from a generator of 256 bits of state, which starts from
words that the circumstances or a script give it.
-/

namespace SealedLua.Lua.Math

open Native

/-- A whole double as an integer if it fits, as it is otherwise. -/
def ofWhole (x : Double) : Value :=
  match Value.exactInteger? x with
  | some n => .integer n
  | none => .double x

def pi : Double := ⟨0x400921FB54442D18⟩

def abs (args : List Value) : Native (List Value) := do
  match arg args 1 with
  | .integer n => return [.integer (if n < 0 then -n else n)]
  | _ => return [.double (← doubleArg args 1).abs]

/-- Rounds a double; an integer stays as it is. -/
def rounded (f : Double → Double) (args : List Value) : Native (List Value) := do
  match arg args 1 with
  | .integer n => return [.integer n]
  | _ => return [ofWhole (f (← doubleArg args 1))]

def unary (f : Double → Double) (args : List Value) : Native (List Value) := do
  return [.double (f (← doubleArg args 1))]

def atan (args : List Value) : Native (List Value) := do
  let y ← doubleArg args 1
  let x ← doubleArgOr args 2 (.ofInt 1)
  return [.double (Double.viaFloat₂ Float.atan2 y x)]

def fmod (args : List Value) : Native (List Value) := do
  match arg args 1, arg args 2 with
  | .integer a, .integer b =>
    if b = 0 then badArgumentText 2 "zero"
    else return [.integer (Int64.ofInt (Int.tmod a.toInt b.toInt))]
  | _, _ =>
    let x ← doubleArg args 1
    let y ← doubleArg args 2
    return [.double (x.remainder y)]

def truncated (x : Double) : Double := if x.lt (.zero false) then x.ceil else x.floor

def modf (args : List Value) : Native (List Value) := do
  match arg args 1 with
  | .integer n => return [.integer n, .double (.zero false)]
  | _ =>
    let x ← doubleArg args 1
    let whole := truncated x
    return [.double whole, .double (if x.eq whole then .zero false else x.sub whole)]

def log (args : List Value) : Native (List Value) := do
  let x ← doubleArg args 1
  if absent args 2 then return [.double (Double.viaFloat Float.log x)]
  else
    let base ← doubleArg args 2
    let r :=
      if base.eq (.ofInt 2) then Double.viaFloat Float.log2 x
      else if base.eq (.ofInt 10) then Double.viaFloat Float.log10 x
      else (Double.viaFloat Float.log x).div (Double.viaFloat Float.log base)
    return [.double r]

def pow (args : List Value) : Native (List Value) := do
  let x ← doubleArg args 1
  let y ← doubleArg args 2
  return [.double (Double.viaFloat₂ Float.pow x y)]

/-- The mantissa between a half and one, and the power of two that goes with it. -/
def frexp (args : List Value) : Native (List Value) := do
  let x ← doubleArg args 1
  if !x.isFinite || x.isZero then return [.double x, .integer 0]
  else
    let power : Int := (x.mantissa.log2 : Int) + x.exponent + 1
    return [.double (Double.ofDyadic x.negative x.mantissa (x.exponent - power)),
      .integer (Int64.ofInt power)]

def ldexp (args : List Value) : Native (List Value) := do
  let x ← doubleArg args 1
  let n := (← integerArg args 2).toInt
  let power := if n < -5000 then -5000 else if 5000 < n then 5000 else n
  if !x.isFinite || x.isZero then return [.double x]
  else return [.double (Double.ofDyadic x.negative x.mantissa (x.exponent + power))]

def tointeger (args : List Value) : Native (List Value) := do
  match (arg args 1).coercedInteger? with
  | some n => return [.integer n]
  | none =>
    let _ ← anyArg args 1
    return [.nil]

def type (args : List Value) : Native (List Value) := do
  match ← anyArg args 1 with
  | .integer _ => return [.ofAscii "integer"]
  | .double _ => return [.ofAscii "float"]
  | _ => return [.nil]

def ult (args : List Value) : Native (List Value) := do
  let a ← integerArg args 1
  let b ← integerArg args 2
  return [.boolean (a.toUInt64 < b.toUInt64)]

/-- The best of some values, where `better` says that the second is better than the first. -/
def best (better : Value → Value → Action Bool) : List Value → Value → Native Value
  | [], v => return v
  | w :: rest, v => do
    if ← (better v w : Action Bool) then best better rest w else best better rest v

def extremum (better : Value → Value → Action Bool) (args : List Value) : Native (List Value) := do
  (List.range args.length).forM fun i => do
    let _ ← numberArg args (i + 1)
  match args with
  | [] => badArgumentText 1 "number expected, got no value"
  | v :: rest => return [← best better rest v]

def nextRandom : List UInt64 → UInt64 × List UInt64
  | [s0, s1, s2, s3] =>
    let rotl := fun (x n : UInt64) => (x <<< n) ||| (x >>> (64 - n))
    let t2 := s2 ^^^ s0
    let t3 := s3 ^^^ s1
    (rotl (s1 * 5) 7 * 9, [s0 ^^^ t3, s1 ^^^ t2, t2 ^^^ (s1 <<< 17), rotl t3 45])
  | _ => (0, [0xff, 0, 0, 0])

def seeded (a b : UInt64) : List UInt64 :=
  let rec discard : Nat → List UInt64 → List UInt64
    | 0, s => s
    | n + 1, s => discard n (nextRandom s).2
  discard 16 [a, 0xff, b, 0]

/-- The next words that the circumstances give the generator. -/
def freshSeed : Native (UInt64 × UInt64) :=
  Action.modifyGet fun h => (h.circumstances.seed h.seeds, { h with seeds := h.seeds + 1 })

def plant (a b : UInt64) : Native Unit := Action.modify fun h =>
  { h with randomState := seeded a b }

def drawn : Native UInt64 := do
  if (← Action.gets (·.randomState.isEmpty)) then
    let (a, b) ← freshSeed
    plant a b
  Action.modifyGet fun h => let (n, s) := nextRandom h.randomState; (n, { h with randomState := s })

def drawLimit : Nat := 2 ^ 256

/-- The ones in all places up to the first one of a word. -/
def onesBelow (n : UInt64) : UInt64 :=
  if n = 0 then 0 else UInt64.ofNat (2 ^ (n.toNat.log2 + 1) - 1)

/-- A random number of at most `limit`, of as many bits as `limit` has; one
that is greater is drawn again. -/
def project (limit : UInt64) : Nat → UInt64 → Native UInt64
  | 0, _ => pure 0
  | n + 1, r => do
    let bits := r &&& onesBelow limit
    if bits ≤ limit then return bits else project limit n (← drawn)

def random (args : List Value) : Native (List Value) := do
  let r ← drawn
  let within := fun (low high : Int64) (number : Nat) => (do
    if high < low then badArgumentText number "interval is empty"
    else
      let above ← project (high.toUInt64 - low.toUInt64) drawLimit r
      return [.integer (low.toUInt64 + above).toInt64] : Native (List Value))
  match args.length with
  | 0 => return [.double (Double.ofDyadic false (r.toNat / 2 ^ 11) (-53))]
  | 1 =>
    let high ← integerArg args 1
    if high = 0 then return [.integer r.toInt64] else within 1 high 1
  | 2 => within (← integerArg args 1) (← integerArg args 2) 2
  | _ => failText "wrong number of arguments"

def randomseed (args : List Value) : Native (List Value) := do
  let (a, b) ← if args.isEmpty then freshSeed else
    let a ← match ← numberArg args 1 with
      | .integer n => pure n
      | .double x => pure ((Value.exactInteger? x).getD x.bits.toInt64)
    pure (a.toUInt64, (← integerArgOr args 2 0).toUInt64)
  plant a b
  return [.integer a.toInt64, .integer b.toInt64]

end SealedLua.Lua.Math
