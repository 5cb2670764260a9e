import SealedLua.Gateway.Error

/-!
# Slots

A call carries four slots.  A slot is unused, or it holds a buffer or a pair of
words, for input, for output or for both.
-/

namespace SealedLua

inductive Direction where
  | input | output | inout
deriving DecidableEq, Repr

namespace Direction

def name : Direction → String
  | .input => "Input"
  | .output => "Output"
  | .inout => "Inout"

def writable : Direction → Bool
  | .input => false
  | .output | .inout => true

end Direction

inductive SlotType where
  | none
  | buffer (direction : Direction)
  | value (direction : Direction)
deriving DecidableEq, Repr

namespace SlotType

def name : SlotType → String
  | .none => "None"
  | .buffer d => "Memref" ++ d.name
  | .value d => "Value" ++ d.name

def listed (types : List SlotType) : String := "[" ++ ", ".intercalate (types.map name) ++ "]"

end SlotType

/-- A pair of words. -/
structure Words where
  a : UInt64
  b : UInt64
deriving DecidableEq, Repr

inductive Slot where
  | none
  | buffer (direction : Direction) (data : ByteArray)
  | value (direction : Direction) (words : Words)
deriving DecidableEq

namespace Slot

def type : Slot → SlotType
  | .none => .none
  | .buffer d _ => .buffer d
  | .value d _ => .value d

def asBuffer : Slot → Except GatewayError ByteArray
  | .buffer _ data => .ok data
  | s => .error (.badParameters ("expected a memref slot, found " ++ s.type.name))

def asValue : Slot → Except GatewayError Words
  | .value _ words => .ok words
  | s => .error (.badParameters ("expected a value slot, found " ++ s.type.name))

def withBuffer (s : Slot) (data : ByteArray) : Except GatewayError Slot :=
  let refused :=
    Except.error (.badParameters ("slot " ++ s.type.name ++ " is not a writable memref"))
  match s with
  | .buffer d _ => if d.writable then .ok (.buffer d data) else refused
  | _ => refused

def withValue (s : Slot) (words : Words) : Except GatewayError Slot :=
  let refused :=
    Except.error (.badParameters ("slot " ++ s.type.name ++ " is not a writable value"))
  match s with
  | .value d _ => if d.writable then .ok (.value d words) else refused
  | _ => refused

end Slot

/-- The four slots of a call. -/
structure Slots where
  p : Slot := .none
  q : Slot := .none
  r : Slot := .none
  s : Slot := .none
deriving DecidableEq

namespace Slots

def types (x : Slots) : List SlotType := [x.p.type, x.q.type, x.r.type, x.s.type]

end Slots
end SealedLua
