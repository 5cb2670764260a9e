import SealedLua.Engine.Error
import SealedLua.Lua.Circumstances
import SealedLua.Program
import SealedLua.Storage.Object

/-!
# The platform

What a gateway asks of its surroundings: operations on storage, serial numbers
for objects that are not finished yet, and leave to make an interpreter, with the
circumstances that it is made in.  It passes on what scripts print.
-/

namespace SealedLua

inductive PlatformOp where
  | storage (op : StorageOp)
  /-- A number that no one else has drawn. -/
  | drawSerial
  | admitInterpreter
  | print (text : ByteArray)

namespace PlatformOp

def Answer : PlatformOp → Type
  | .storage op => op.Answer
  | .drawSerial => UInt64
  | .admitInterpreter => Except EngineError Lua.Circumstances
  | .print _ => Unit

end PlatformOp

def platformInterface : Interface := ⟨PlatformOp, PlatformOp.Answer⟩

/-- Programs that use the platform. -/
abbrev Platform (α : Type) : Type := Program platformInterface α

namespace Platform

def storage (op : StorageOp) : Platform op.Answer :=
  Program.ask (I := platformInterface) (.storage op)

def drawSerial : Platform UInt64 := Program.ask (I := platformInterface) .drawSerial

def admitInterpreter : Platform (Except EngineError Lua.Circumstances) :=
  Program.ask (I := platformInterface) .admitInterpreter

def print (text : ByteArray) : Platform Unit :=
  if text.isEmpty then pure () else Program.ask (I := platformInterface) (.print text)

end Platform
end SealedLua
