import SealedLua.Lua.Library.Text

/-!
# Binary layouts

A format text describes a sequence of items: integers of one to sixteen bytes,
doubles, strings with or without a length, padding.  `Item.next` reads one item
off a format; packing, unpacking and measuring go over the items in order and
know the offset at which each item stands, which alignment depends on.
-/

namespace SealedLua.Lua.Layout

open Native

/-- What a format says about the items that follow. -/
structure Mode where
  little : Bool := true
  alignment : Nat := 1

inductive Item where
  | integer (size : Nat) (signed : Bool)
  | single
  | double
  /-- A string in exactly so many bytes. -/
  | fixed (size : Nat)
  /-- A string after its length. -/
  | counted (size : Nat)
  /-- A string before a zero byte. -/
  | ended
  | padding
  | align
  | none
deriving DecidableEq

/-- The number of bytes that an item takes besides the bytes of a string. -/
def Item.size : Item → Nat
  | .integer n _ => n
  | .single => 4
  | .double => 8
  | .fixed n => n
  | .counted n => n
  | .padding => 1
  | .ended | .align | .none => 0

/-- Why a format cannot be used. -/
inductive LayoutError where
  | missingSize
  | unknownOption (code : UInt8)
  | sizeOutOfRange (size : Nat)
  | nothingToAlign
  | oddAlignment
deriving DecidableEq

def LayoutError.raise {α : Type} : LayoutError → Native α
  | .missingSize => failText "missing size for format option 'c'"
  | .unknownOption c => fail (bytes (ascii "invalid format option '" ++ [c] ++ ascii "'"))
  | .sizeOutOfRange n => failText ("integral size (" ++ toString n ++ ") out of limits [1,16]")
  | .nothingToAlign => badArgumentText 1 "invalid next option for option 'X'"
  | .oddAlignment => badArgumentText 1 "format asks for alignment not power of 2"

/-- A number at the front of a format, if there is one.  No digit is read after
a number above a tenth of `2 ^ 31`. -/
def readNumber : List UInt8 → Option Nat → Option Nat × List UInt8
  | [], n => (n, [])
  | c :: rest, n =>
    if Ascii.isDigit c && n.getD 0 ≤ 214748363 then readNumber rest
      (some (n.getD 0 * 10 + (c.toNat - 48)))
    else (n, c :: rest)

def readSize (usual : Nat) (format : List UInt8) : Except LayoutError (Nat × List UInt8) :=
  match readNumber format Option.none with
  | (Option.none, rest) => .ok (usual, rest)
  | (some n, rest) => if 1 ≤ n && n ≤ 16 then .ok (n, rest) else .error (.sizeOutOfRange n)

def readOption (mode : Mode) : List UInt8 → Except LayoutError (Item × Mode × List UInt8)
  | [] => .ok (.none, mode, [])
  | c :: rest =>
    let sized := fun (usual : Nat) (item : Nat → Item) => do
      let (n, rest) ← readSize usual rest
      return (item n, mode, rest)
    match Char.ofNat c.toNat with
    | 'b' => .ok (.integer 1 true, mode, rest)
    | 'B' => .ok (.integer 1 false, mode, rest)
    | 'h' => .ok (.integer 2 true, mode, rest)
    | 'H' => .ok (.integer 2 false, mode, rest)
    | 'l' | 'j' => .ok (.integer 8 true, mode, rest)
    | 'L' | 'J' | 'T' => .ok (.integer 8 false, mode, rest)
    | 'f' => .ok (.single, mode, rest)
    | 'd' | 'n' => .ok (.double, mode, rest)
    | 'i' => sized 4 (.integer · true)
    | 'I' => sized 4 (.integer · false)
    | 's' => sized 8 .counted
    | 'c' =>
      match readNumber rest Option.none with
      | (some n, rest) => .ok (.fixed n, mode, rest)
      | (Option.none, _) => .error .missingSize
    | 'z' => .ok (.ended, mode, rest)
    | 'x' => .ok (.padding, mode, rest)
    | 'X' => .ok (.align, mode, rest)
    | ' ' => .ok (.none, mode, rest)
    | '<' | '=' => .ok (.none, { mode with little := true }, rest)
    | '>' => .ok (.none, { mode with little := false }, rest)
    | '!' => do
      let (n, rest) ← readSize 8 rest
      return (.none, { mode with alignment := n }, rest)
    | _ => .error (.unknownOption c)

/-- An item, the padding in front of it, and what follows. -/
structure Next where
  item : Item
  padding : Nat
  mode : Mode
  rest : List UInt8

/-- Padding in front of an item that starts at an offset. -/
def paddingFor (mode : Mode) (offset size : Nat) : Except LayoutError Nat :=
  let a := min size mode.alignment
  if size ≤ 1 then .ok 0
  else if a &&& (a - 1) != 0 then .error .oddAlignment
  else .ok ((a - offset % a) % a)

def Item.next (mode : Mode) (offset : Nat) (format : List UInt8) : Except LayoutError Next := do
  let (item, mode, rest) ← readOption mode format
  match item with
  | .fixed _ => return ⟨item, 0, mode, rest⟩
  | .align =>
    if rest.isEmpty then throw .nothingToAlign
    let (following, mode, rest) ← readOption mode rest
    match following with
    | .fixed _ => throw .nothingToAlign
    | _ =>
      if following.size = 0 then throw .nothingToAlign
      return ⟨.align, ← paddingFor mode offset following.size, mode, rest⟩
  | _ => return ⟨item, ← paddingFor mode offset item.size, mode, rest⟩

/-- A number in so many bytes, the least significant first. -/
def littleBytes (n : Nat) : Nat → List UInt8
  | 0 => []
  | count + 1 => UInt8.ofNat (n % 256) :: littleBytes (n / 256) count

def ordered (mode : Mode) (n size : Nat) : List UInt8 :=
  if mode.little then littleBytes n size else (littleBytes n size).reverse

/-- The number that bytes stand for in the order of the mode. -/
def number (mode : Mode) (codes : List UInt8) : Nat :=
  Ascii.value 256 ((if mode.little then codes.reverse else codes).map (·.toNat))

def singleBits (x : Double) : UInt32 := (Float.ofBits x.bits).toFloat32.toBits

def ofSingleBits (n : UInt32) : Double := ⟨(Float32.ofBits n).toFloat.toBits⟩

def packItem (mode : Mode) (item : Item) (args : List Value) (position : Nat) :
    Native (List UInt8) := do
  match item with
  | .integer size signed =>
    let n := (← integerArg args position).toInt
    let bound : Int := 2 ^ (8 * size)
    if signed then
      if size < 8 && !(-bound ≤ 2 * n && 2 * n < bound) then
        badArgumentText position "integer overflow"
      return ordered mode (n % bound).toNat size
    else
      let m := n % 2 ^ 64
      if size < 8 && bound ≤ m then badArgumentText position "unsigned overflow"
      return ordered mode m.toNat size
  | .single => return ordered mode (singleBits (← doubleArg args position)).toNat 4
  | .double => return ordered mode (← doubleArg args position).bits.toNat 8
  | .fixed size =>
    let s ← stringArg args position
    if size < s.size then badArgumentText position "string longer than given size"
    return codes s ++ List.replicate (size - s.size) 0
  | .counted size =>
    let s ← stringArg args position
    if size < 8 && 2 ^ (8 * size) ≤ s.size then
      badArgumentText position "string length does not fit in given size"
    return ordered mode s.size size ++ codes s
  | .ended =>
    let s ← stringArg args position
    if (codes s).contains 0 then badArgumentText position "string contains zeros"
    return codes s ++ [0]
  | .padding => return [0]
  | .align | .none => return []

def Item.holdsValue : Item → Bool
  | .padding | .align | .none => false
  | _ => true

def nextItem (mode : Mode) (offset : Nat) (format : List UInt8) : Native Next :=
  match Item.next mode offset format with
  | .ok n => pure n
  | .error e => e.raise

def packFrom (args : List Value) : Nat → Mode → List UInt8 → Nat → ByteArray → Native ByteArray
  | 0, _, _, _, text => return text
  | _ + 1, _, [], _, text => return text
  | budget + 1, mode, format, position, text => do
    let next ← nextItem mode text.size format
    let packed ← packItem next.mode next.item args position
    let position := if next.item.holdsValue then position + 1 else position
    packFrom args budget next.mode next.rest position
      (text ++ bytes (List.replicate next.padding 0 ++ packed))

def formatArg (args : List Value) : Native (List UInt8) := do
  return (codes (← stringArg args 1)).takeWhile (· != 0)

def pack (args : List Value) : Native (List Value) := do
  let format ← formatArg args
  return [.string (← packFrom args (format.length + 1) {} format 2 (bytes []))]

def measureFrom : Nat → Mode → List UInt8 → Nat → Native Nat
  | 0, _, _, size => return size
  | _ + 1, _, [], size => return size
  | budget + 1, mode, format, size => do
    let next ← nextItem mode size format
    match next.item with
    | .counted _ | .ended => badArgumentText 1 "variable-length format"
    | item =>
      let size := size + next.padding + item.size
      if Text.sizeLimit < size then badArgumentText 1 "format result too large"
      measureFrom budget next.mode next.rest size

def packsize (args : List Value) : Native (List Value) := do
  let format ← formatArg args
  return [.integer (Int64.ofNat (← measureFrom (format.length + 1) {} format 0))]

/-- The value of an item at an offset, and the offset after it. -/
def unpackItem (mode : Mode) (item : Item) (s : ByteArray) (offset : Nat) :
    Native (Option Value × Nat) := do
  let raw := codes (s.extract offset (offset + item.size))
  let after := offset + item.size
  match item with
  | .integer size signed =>
    let n := number mode raw
    let value : Int := if signed && 2 ^ (8 * size) ≤ 2 * n then (n : Int) - 2 ^ (8 * size) else n
    let fits := if signed then decide (-(2 ^ 63) ≤ value && value < 2 ^ 63) else decide (n < 2 ^ 64)
    if !fits then failText (toString size ++ "-byte integer does not fit into Lua Integer")
    return (some (.integer (Int64.ofInt value)), after)
  | .single => return (some (.double (ofSingleBits (UInt32.ofNat (number mode raw)))), after)
  | .double => return (some (.double ⟨UInt64.ofNat (number mode raw)⟩), after)
  | .fixed _ => return (some (.string (bytes raw)), after)
  | .counted _ =>
    let n := number mode raw
    if s.size - after < n then badArgumentText 2 "data string too short"
    return (some (.string (s.extract after (after + n))), after + n)
  | .ended =>
    let text := (codes (s.extract offset s.size)).takeWhile (· != 0)
    if offset + text.length = s.size then badArgumentText 2 "unfinished string for format 'z'"
    return (some (.string (bytes text)), offset + text.length + 1)
  | .padding | .align | .none => return (none, after)

def unpackFrom (s : ByteArray) : Nat → Mode → List UInt8 → Nat → List Value →
    Native (List Value × Nat)
  | 0, _, _, offset, values => return (values.reverse, offset)
  | _ + 1, _, [], offset, values => return (values.reverse, offset)
  | budget + 1, mode, format, offset, values => do
    let next ← nextItem mode offset format
    if s.size - offset < next.padding + next.item.size then
      badArgumentText 2 "data string too short"
    let (value, offset) ← unpackItem next.mode next.item s (offset + next.padding)
    unpackFrom s budget next.mode next.rest offset (value.toList ++ values)

def unpack (args : List Value) : Native (List Value) := do
  let format ← formatArg args
  let s ← stringArg args 2
  let start := Text.startPosition (← integerArgOr args 3 1) s.size - 1
  if s.size < start then badArgumentText 3 "initial position out of string"
  let (values, offset) ← unpackFrom s (format.length + 1) {} format start []
  return values ++ [.integer (Int64.ofNat (offset + 1))]

end SealedLua.Lua.Layout
