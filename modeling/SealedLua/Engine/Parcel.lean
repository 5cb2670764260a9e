import SealedLua.Engine.Error
import SealedLua.Text.Quoted

/-!
# Parcels

A value that crosses the boundary is a parcel: a number, a text, or code that
rebuilds a value when it is run.  In slots, a parcel is a tag, a number and a
buffer of bytes; a number needs no buffer, and the number beside a buffer is
its length.
-/

namespace SealedLua

inductive Parcel where
  | number (n : Int64)
  | text (s : String)
  | code (s : String)
deriving DecidableEq, Repr

namespace Parcel

def numberTag : UInt64 := 0
def textTag : UInt64 := 1
def codeTag : UInt64 := 2

def tag : Parcel → UInt64
  | .number _ => numberTag
  | .text _ => textTag
  | .code _ => codeTag

/-- The capacity of a buffer unless something else is agreed, in bytes. -/
def usualCapacity : Nat := 8192

/-- A parcel as it lies in slots. -/
structure Slots where
  tag : UInt64
  number : UInt64
  buffer : ByteArray
deriving DecidableEq

def readBuffer (buffer : ByteArray) (capacity : Nat) : Except EngineError String :=
  if capacity < buffer.size then .error (.capacity buffer.size capacity)
  else
    match String.fromUTF8? buffer with
    | some s => .ok s
    | none => .error .invalidText

/-- Reads a parcel; the number beside a buffer is not looked at. -/
def ofSlots (s : Slots) (capacity : Nat) : Except EngineError Parcel :=
  if s.tag = numberTag then .ok (.number s.number.toInt64)
  else if s.tag = textTag then (readBuffer s.buffer capacity).map .text
  else if s.tag = codeTag then (readBuffer s.buffer capacity).map .code
  else .error (.unknownTag s.tag)

def writeBuffer (tag : UInt64) (s : String) (capacity : Nat) : Except EngineError Slots :=
  let size := s.utf8ByteSize
  if capacity < size then .error (.capacity size capacity)
    else .ok ⟨tag, UInt64.ofNat size, s.toUTF8⟩

def toSlots (p : Parcel) (capacity : Nat) : Except EngineError Slots :=
  match p with
  | .number n => .ok ⟨numberTag, n.toUInt64, bytes []⟩
  | .text s => writeBuffer textTag s capacity
  | .code s => writeBuffer codeTag s capacity

def display : Parcel → String
  | .number n => "Number(" ++ toString n.toInt ++ ")"
  | .text s => "Text(" ++ Quoted.text s ++ ")"
  | .code s => "Code(" ++ Quoted.text s ++ ")"

end Parcel
end SealedLua
