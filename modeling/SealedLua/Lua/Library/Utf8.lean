import SealedLua.Lua.Native

/-!
# The functions on UTF-8

Sequences of up to six bytes encode numbers below `2 ^ 31`.  Unless a script
asks for leniency, only the code points of Unicode count as valid, surrogates
excluded.
-/

namespace SealedLua.Lua.Utf8

open Native

def isContinuation (c : UInt8) : Bool := c &&& 0xC0 == 0x80

def continuesAt (s : ByteArray) (i : Nat) : Bool := (s.data[i]?.map isContinuation).getD false

/-- How many continuation bytes follow a first byte, and its own bits. -/
def header (c : UInt8) : Option (Nat × Nat) :=
  let n := c.toNat
  if n < 0x80 then some (0, n)
  else if n < 0xC0 then none
  else if n < 0xE0 then some (1, n % 32)
  else if n < 0xF0 then some (2, n % 16)
  else if n < 0xF8 then some (3, n % 8)
  else if n < 0xFC then some (4, n % 4)
  else if n < 0xFE then some (5, n % 2)
  else none

/-- The least number that needs so many continuation bytes. -/
def least : Nat → Nat
  | 0 => 0
  | 1 => 0x80
  | 2 => 0x800
  | 3 => 0x10000
  | 4 => 0x200000
  | _ => 0x4000000

/-- The number that a sequence at a place encodes, and the place after it. -/
def decode (s : ByteArray) (i : Nat) (lax : Bool) : Option (Nat × Nat) := do
  let (count, bits) ← header (← s.data[i]?)
  let rest := (codes (s.extract (i + 1) (i + 1 + count)))
  if rest.length < count || !rest.all isContinuation then none
  else
    let n := rest.foldl (fun n c => n * 64 + c.toNat % 64) bits
    if n < least count || !lax && (0x10FFFF < n || 0xD800 ≤ n && n ≤ 0xDFFF) then none
    else some (n, i + 1 + count)

/-- A position from either end as a number from one, or below one. -/
def position (p : Int64) (size : Nat) : Int :=
  if 0 ≤ p then p.toInt else if p.toInt < -(size : Int) then 0 else size + p.toInt + 1

/-- The bytes of a number's sequence. -/
def encode (n : Nat) : List UInt8 :=
  if n < 0x80 then [UInt8.ofNat n]
  else
    let count :=
      if n < 0x800 then 1 else if n < 0x10000 then 2 else if n < 0x200000 then 3
      else if n < 0x4000000 then 4 else 5
    let head := 256 - 2 ^ (7 - count) + n / 64 ^ count
    UInt8.ofNat head :: ((List.range count).reverse.map fun i =>
      UInt8.ofNat (0x80 + n / 64 ^ i % 64))

def char (args : List Value) : Native (List Value) := do
  let parts ← (List.range args.length).mapM fun i => do
    let n ← integerArg args (i + 1)
    if n.toUInt64 ≤ 0x7FFFFFFF then pure (encode n.toInt.toNat)
      else badArgumentText (i + 1) "value out of range"
  return [.string (bytes parts.flatten)]

/-- The numbers that a stretch encodes, or `none` if it is invalid. -/
def decodeAll (s : ByteArray) (lax : Bool) : Nat → Nat → Nat → Option (List Nat)
  | 0, _, _ => some []
  | budget + 1, i, stop =>
    if i < stop then do
      let (n, j) ← decode s i lax
      return n :: (← decodeAll s lax budget j stop)
    else some []

def codepoint (args : List Value) : Native (List Value) := do
  let s ← stringArg args 1
  let first ← integerArgOr args 2 1
  let start := position first s.size
  let stop := position (← integerArgOr args 3 (Int64.ofInt start)) s.size
  if start < 1 then badArgumentText 2 "out of bounds"
  if s.size < stop then badArgumentText 3 "out of bounds"
  if stop < start then return []
  match decodeAll s (arg args 4).truthy (s.size + 1) (start - 1).toNat stop.toNat with
  | some numbers => return numbers.map fun n => .integer (Int64.ofNat n)
  | none => failText "invalid UTF-8 code"

/-- The number of sequences that start in a stretch, or the place of an invalid one. -/
def count (s : ByteArray) (lax : Bool) : Nat → Int → Int → Nat → Nat ⊕ Int
  | 0, _, _, n => .inl n
  | budget + 1, i, last, n =>
    if i ≤ last then
      match decode s i.toNat lax with
      | some (_, j) => count s lax budget j last (n + 1)
      | none => .inr i
    else .inl n

def len (args : List Value) : Native (List Value) := do
  let s ← stringArg args 1
  let start := position (← integerArgOr args 2 1) s.size - 1
  let last := position (← integerArgOr args 3 (-1)) s.size - 1
  if !(0 ≤ start && start ≤ s.size) then badArgumentText 2 "initial position out of bounds"
  if !(last < s.size) then badArgumentText 3 "final position out of bounds"
  match count s (arg args 4).truthy (s.size + 1) start last 0 with
  | .inl n => return [.integer (Int64.ofNat n)]
  | .inr i => return [.nil, .integer (Int64.ofInt (i + 1))]

def sequenceStart (s : ByteArray) : Nat → Nat
  | 0 => 0
  | i + 1 => if continuesAt s (i + 1) then sequenceStart s i else i + 1

/-- The place after a place that no continuation byte stands at. -/
def sequenceEnd (s : ByteArray) : Nat → Nat → Nat
  | 0, i => i
  | budget + 1, i => if continuesAt s i then sequenceEnd s budget (i + 1) else i

/-- Moves back over `n` sequences; gives those that were not there as well. -/
def moveBack (s : ByteArray) : Nat → Nat → Nat × Nat
  | 0, i => (i, 0)
  | n + 1, 0 => (0, n + 1)
  | n + 1, i + 1 => moveBack s n (sequenceStart s i)

def moveForward (s : ByteArray) : Nat → Nat → Nat × Nat
  | 0, i => (i, 0)
  | n + 1, i => if i < s.size then moveForward s n (sequenceEnd s s.size (i + 1)) else (i, n + 1)

def offset (args : List Value) : Native (List Value) := do
  let s ← stringArg args 1
  let n ← integerArg args 2
  let start :=
    position (← integerArgOr args 3 (if 0 < n then 1 else Int64.ofNat (s.size + 1))) s.size - 1
  if !(0 ≤ start && start ≤ s.size) then badArgumentText 3 "position out of bounds"
  let i := start.toNat
  if n = 0 then return [.integer (Int64.ofNat (sequenceStart s i + 1))]
  else
    if continuesAt s i then failText "initial position is a continuation byte"
    let (place, missing) := if n < 0 then moveBack s (min n.toInt.natAbs (s.size + 1)) i
      else moveForward s (min (n.toInt.toNat - 1) (s.size + 1)) i
    return [if missing = 0 then .integer (Int64.ofNat (place + 1)) else .nil]

def codepoints (args : List Value) : Native (List Value) := do
  let s ← stringArg args 1
  if continuesAt s 0 then badArgumentText 1 "invalid UTF-8 code"
  return [.builtin (.utf8CodesNext (arg args 2).truthy), .string s, .integer 0]

def codesNext (lax : Bool) (args : List Value) : Native (List Value) := do
  let s ← stringArg args 1
  let n := ((arg args 2).coercedInteger?.getD 0).toUInt64.toNat
  let i := if n < s.size then sequenceEnd s s.size n else n
  if i ≥ s.size then return []
  else
    match decode s i lax with
    | some (code, j) =>
      if continuesAt s j then failText "invalid UTF-8 code"
      else return [.integer (Int64.ofNat (i + 1)), .integer (Int64.ofNat code)]
    | none => failText "invalid UTF-8 code"

end SealedLua.Lua.Utf8
