import SealedLua.Engine.Parcel
import SealedLua.Engine.Routine
import SealedLua.Program

/-!
# Driving an evaluation stack

An evaluation stack holds the values of scripts.  It is driven by operations,
and only numbers and texts come out of it; any other value is rendered as code
by a routine that runs on the stack itself.

`encode`, `decode` and `execute` are programs over these operations, so what
they ask of a stack does not depend on the stack.  A program for a function of
the host may in addition put questions to whatever is around the stack.
-/

namespace SealedLua

/-- What can be told of the value on top of a stack. -/
inductive ValueKind where
  /-- An integer, or a double of integral value. -/
  | integer
  /-- A string that is valid UTF-8. -/
  | text
  | other
deriving DecidableEq, Repr

inductive StackOp where
  /-- Reads a chunk and pushes its function. -/
  | load (source : ByteArray) (chunk : String)
  | pushInteger (n : Int64)
  | pushText (s : String)
  | duplicateTop
  /-- Pops a value and makes it the value of a global. -/
  | setGlobal (name : String)
  | swap
  /-- Pops arguments and then a function, calls it, and pushes exactly so many results. -/
  | call (args results : Nat)
  | peekKind
  | popInteger
  | popText
  /-- How many values are on the stack. -/
  | depth
deriving DecidableEq

namespace StackOp

def Result : StackOp → Type
  | .peekKind => ValueKind
  | .popInteger => Int64
  | .popText => String
  | .depth => Nat
  | .load _ _ | .pushInteger _ | .pushText _ | .duplicateTop | .setGlobal _ | .swap | .call _ _ =>
    Unit

/-- An operation fails or has its result. -/
abbrev Answer (op : StackOp) : Type := Except EngineError op.Result

end StackOp

/-- An operation on the stack, or a question, which is answered by a parcel or
by the reason why there is none. -/
inductive HostOp (Q : Type) where
  | stack (op : StackOp)
  | question (q : Q)

namespace HostOp

def Answer {Q : Type} : HostOp Q → Type
  | .stack op => op.Answer
  | .question _ => Except String Parcel

end HostOp

/-- The operations of programs that put questions of type `Q`. -/
def stackInterface (Q : Type) : Interface := ⟨HostOp Q, HostOp.Answer⟩

/-- Programs over a stack that end at the first operation that fails. -/
abbrev Evaluation (Q : Type) := ExceptT EngineError (Program (stackInterface Q))

namespace Evaluation

variable {Q : Type}

/-- Performs an operation on the stack. -/
def op (op : StackOp) : Evaluation Q op.Result :=
  ExceptT.mk (Program.ask (I := stackInterface Q) (.stack op))

def ask (q : Q) : Evaluation Q (Except String Parcel) :=
  ExceptT.lift (Program.ask (I := stackInterface Q) (.question q))

end Evaluation

/-- The name of the chunk of a script. -/
def scriptChunk : String := "lua_script"

def codeChunk : String := "marshalled_value"

/-- The name of the chunk of the routine that renders values. -/
def dumpChunk : String := "dump"

def argumentName : String := "arg"

open Evaluation

variable {Q : Type}

/-- Pops a value as a parcel. -/
def encode : Evaluation Q Parcel := do
  match ← op .peekKind with
  | ValueKind.integer => return .number (← op .popInteger)
  | ValueKind.text => return .text (← op .popText)
  | ValueKind.other =>
    op (.load Routine.dump.toUTF8 dumpChunk)
    op .swap
    op (.call 1 1)
    return .code (← op .popText)

/-- Pushes the value of a parcel. -/
def decode (p : Parcel) : Evaluation Q Unit :=
  match p with
  | .number n => op (.pushInteger n)
  | .text s => op (.pushText s)
  | .code s => do
    op (.load s.toUTF8 codeChunk)
    op (.call 0 1)

/-- Runs a script.  Its argument is both its extra argument and a global. -/
def execute (script : ByteArray) (argument : Parcel) : Evaluation Q Parcel := do
  op (.load script scriptChunk)
  decode argument
  op .duplicateTop
  op (.setGlobal argumentName)
  op (.call 1 1)
  encode

end SealedLua
