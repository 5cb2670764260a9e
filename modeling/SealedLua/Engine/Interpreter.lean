import SealedLua.Engine.Evaluation
import SealedLua.Lua.Machine
import SealedLua.Text.Lossy

/-!
# Interpreters

An interpreter is an evaluation stack over a heap of script values, and the
functions of the host that scripts can call.  A function of the host is a
program over a stack of its own, its frame, above the same heap: it starts on
exactly the declared number of arguments and returns all that it leaves.

What is around the interpreter answers the questions of host functions, with
effects in any monad, and is told with each question what scripts have printed
since the last.  Running scripts takes fuel, a bound on the moves of the machine
and on the calls of host functions around them; without enough of it there is no
result.
-/

namespace SealedLua

open Lua

/-- Values of scripts on a stack over a heap, the top one first. -/
structure Stack where
  heap : Heap
  values : List Value
deriving Inhabited

/-- A function of the host. -/
structure HostFunction (Q : Type) where
  arity : Nat
  body : Evaluation Q Unit

/-- What a machine comes to. -/
inductive Outcome where
  | finished (values : List Value) (heap : Heap)
  | raised (error : Value) (heap : Heap)

namespace EngineError

/-- Where the trace of calls begins in the text of an error. -/
def trace : String := "\nstack traceback:\n\t[C]: in ?"

/-- The failure for an error that a script raised and nothing caught. -/
def ofRaised : Value → EngineError
  | .failure f => .script f.message
  | .string s => .script ("runtime error: " ++ Lossy.text s ++ trace)
  | v => .script ("runtime error: " ++ v.typeName ++ trace)

/-- The failure for a chunk that cannot be read. -/
def ofChunk (name : ByteArray) (e : ChunkError) : EngineError :=
  .script ((if e = .tooDeep then "runtime error: " else "syntax error: ") ++
    Lossy.text (e.message name))

/-- The text of a failure that becomes a value of a script. -/
def asFailure (e : EngineError) : String := e.message ++ trace

end EngineError

namespace ValueKind

def ofValue : Value → ValueKind
  | .integer _ => .integer
  | .double x => if (Value.exactInteger? x).isSome then .integer else .other
  | .string s => if (String.fromUTF8? s).isSome then .text else .other
  | _ => .other

end ValueKind

namespace Stack

/-- The place of a zero byte in a text, which must not be in a chunk's name. -/
def zeroByte? (name : String) : Option Nat := (codes name.toUTF8).findIdx? (· == 0)

/-- Reads a chunk and pushes its function. -/
def load (s : Stack) (source : ByteArray) (chunk : String) : Except EngineError Unit × Stack :=
  match zeroByte? chunk with
  | some i =>
    (.error
      (.script ("runtime error: invalid name: nul byte found in provided data at position: " ++
      toString i)), s)
  | none =>
    let name := Chunk.shownName chunk.toUTF8
    if source.data[0]? == some 27 then (.error (.ofChunk name .binary), s)
    else
      match s.heap.loadChunk source name (.table Heap.globals) with
      | (.ok f, heap) => (.ok (), ⟨heap, f :: s.values⟩)
      | (.error e, heap) => (.error (.ofChunk name e), ⟨heap, s.values⟩)

def push (s : Stack) (v : Value) : Stack := { s with values := v :: s.values }

def popAs {α : Type} (s : Stack) (operation : String) (read : Value → Except EngineError α) :
    Except EngineError α × Stack :=
  match s.values with
  | [] => (.error (.underflow operation 1 0), s)
  | v :: rest => (read v, { s with values := rest })

def readInteger (v : Value) : Except EngineError Int64 :=
  match v.integer? with
  | some n => .ok n
  | none => .error (.wrongKind "an integral number")

def readText : Value → Except EngineError String
  | .string s =>
    match String.fromUTF8? s with
    | some t => .ok t
    | none => .error (.wrongKind "a UTF-8 string")
  | _ => .error (.wrongKind "a UTF-8 string")

variable {m : Type → Type} [Monad m]

/-- Goes on after a machine has run, on the stack `values`: its results are
pushed, `count` of them. -/
def afterwards (values : List Value) (count : Nat) : Outcome → Except EngineError Unit × Stack
  | .finished results heap => (.ok (), ⟨heap, (adjust count results).reverse ++ values⟩)
  | .raised e heap => (.error (.ofRaised e), ⟨heap, values⟩)

/-- Pushes a text.  That may be the moment when the collector ends a cycle, whose
finalizers have no effect on how the push ends. -/
def pushText (run : Machine → OptionT m Outcome) (outer : Depth) (text : String) (s : Stack) :
    OptionT m (Except EngineError Unit × Stack) :=
  let made := s.push (.ofText text)
  if s.heap.collectsNow then do
    match ← run (.ofAction outer (Collector.collect made.values) s.heap) with
    | .finished _ heap | .raised _ heap => return (.ok (), ⟨heap, made.values⟩)
  else pure (.ok (), made)

/-- Pops arguments and a function and calls it. -/
def call (run : Machine → OptionT m Outcome) (outer : Depth) (args results : Nat) (s : Stack) :
    OptionT m (Except EngineError Unit × Stack) :=
  if s.values.length < args + 1 then pure (.error (.underflow "call" (args + 1) s.values.length), s)
  else
    let (given, heap) := s.heap.passAll (s.values.take args).reverse
    match s.values.drop args with
    | [] => pure (.error (.underflow "call" 1 0), { s with values := [] })
    | f :: rest =>
      if f.isFunction then do
        let outcome ← run (.ofCall outer f given heap)
        return afterwards rest results outcome
      else pure (.error (.wrongKind "a function"), { s with values := rest })

/-- Pops a value and stores it in a global; a metatable of the globals has a say. -/
def setGlobal (run : Machine → OptionT m Outcome) (outer : Depth) (name : String) (s : Stack) :
    OptionT m (Except EngineError Unit × Stack) :=
  match s.values with
  | [] => pure (.error (.underflow "set_global" 1 0), s)
  | v :: rest =>
    let key := Value.ofText name
    let (v, heap) := s.heap.pass v
    if (heap.table Heap.globals).metatable.isNone then
      pure (.ok (), ⟨heap.set Heap.globals key v, rest⟩)
    else do
      let outcome ← run (.ofAction outer (setIndex none (.table Heap.globals) key v none) heap)
      return afterwards rest 0 outcome

/-- Performs an operation.  `run` runs machines, which start at the depth `outer`. -/
def perform (run : Machine → OptionT m Outcome) (outer : Depth) (s : Stack) :
    (op : StackOp) → OptionT m (op.Answer × Stack)
  | .load source chunk => pure (s.load source chunk)
  | .pushInteger n => pure (.ok (), s.push (.integer n))
  | .pushText t => s.pushText run outer t
  | .duplicateTop =>
    match s.values with
    | v :: _ => pure (.ok (), s.push v)
    | [] => pure (.error (.underflow "duplicate_top" 1 0), s)
  | .setGlobal name => s.setGlobal run outer name
  | .swap =>
    match s.values with
    | a :: b :: rest => pure (.ok (), { s with values := b :: a :: rest })
    | values => pure (.error (.underflow "swap" 2 values.length), s)
  | .call args results => s.call run outer args results
  | .peekKind =>
    match s.values with
    | v :: _ => pure (.ok (.ofValue v), s)
    | [] => pure (.error (.underflow "peek_kind" 1 0), s)
  | .popInteger => pure (s.popAs "pop_integer" readInteger)
  | .popText => pure (s.popAs "pop_text" readText)
  | .depth => pure (.ok s.values.length, s)

end Stack

/-- The functions of the host, and the answers to their questions, each put
after some text was printed. -/
structure Surroundings (Q : Type) (m : Type → Type) where
  functions : List (HostFunction Q)
  answer : ByteArray → Q → OptionT m (Except String Parcel)

namespace Surroundings

variable {Q α : Type} {m : Type → Type} [Monad m]

/-- Runs a program on a stack. -/
def evaluate (s : Surroundings Q m) (run : Machine → OptionT m Outcome)
    (outer : Depth) (p : Evaluation Q α) :
    StateT Stack (OptionT m) (Except EngineError α) :=
  Program.run (I := stackInterface Q) (fun
    | .stack op => fun stack => stack.perform run outer op
    | .question q => fun stack => do
      return (← s.answer stack.heap.output q, { stack with heap := stack.heap.flushed })) p.run

def frame (f : HostFunction Q) (c : HostCall) : Stack := ⟨c.heap, (adjust f.arity c.args).reverse⟩

/-- How a script goes on after a function of the host. -/
def resume (c : HostCall) : Except EngineError Unit → Stack → Machine
  | .ok (), stack =>
    let (values, heap) := stack.heap.passAll stack.values.reverse
    c.resume (.ok values) heap
  | .error e, stack =>
    let (failure, heap) := stack.heap.newFailure e.asFailure
    c.resume (.error failure) heap

/-- Runs a machine to its end. -/
def drive (s : Surroundings Q m) : Nat → Machine → OptionT m Outcome
  | 0, _ => failure
  | fuel + 1, machine =>
    match machine.next with
    | .more machine => s.drive fuel machine
    | .finished values heap => pure (.finished values heap)
    | .raised e heap => pure (.raised e heap)
    | .waits c =>
      match s.functions[c.host]? with
      | none => pure (.raised .nil c.heap)
      | some f => do
        let (ended, stack) ← s.evaluate (s.drive fuel) c.depth f.body (frame f c)
        s.drive fuel (resume c ended stack)

end Surroundings

/-- A stack together with the functions of the host that its scripts can call. -/
structure Interpreter (Q : Type) where
  stack : Stack
  functions : List (HostFunction Q)

namespace Interpreter

variable {Q α : Type} {m : Type → Type} [Monad m]

/-- How many moves the routine that prepares a heap may take. -/
def preparationFuel : Nat := 1000

/-- The heap in which scripts start, without what they must not have. -/
def preparedHeap : Heap :=
  let alone : Surroundings Empty Id := ⟨[], fun _ _ => failure⟩
  match (⟨Library.initialHeap, []⟩ : Stack).load Routine.sandbox.toUTF8 "sandbox" with
  | (.ok (), ⟨heap, f :: _⟩) =>
    match (alone.drive preparationFuel
      (.ofCall (.outermost heap.circumstances.callLimit) f [] heap)).run with
    | some (.finished _ heap) => heap
    | _ => heap
  | (_, ⟨heap, _⟩) => heap

/-- A new interpreter in some circumstances. -/
def create (circumstances : Circumstances := {}) : Interpreter Q :=
  ⟨⟨preparedHeap.under circumstances, []⟩, []⟩

/-- The depth at which programs run on the interpreter's stack. -/
def outermost (i : Interpreter Q) : Depth := .outermost i.stack.heap.circumstances.callLimit

/-- Runs a program on the interpreter's stack. -/
def evaluate (i : Interpreter Q) (fuel : Nat)
    (answer : ByteArray → Q → OptionT m (Except String Parcel))
    (p : Evaluation Q α) : OptionT m (Except EngineError α × Interpreter Q) := do
  let around : Surroundings Q m := ⟨i.functions, answer⟩
  let (result, stack) ← around.evaluate (around.drive fuel) i.outermost p i.stack
  return (result, { i with stack := stack })

/-- Runs a program where what is printed is told to no one. -/
def run (i : Interpreter Q) (fuel : Nat) (answer : Q → OptionT m (Except String Parcel))
    (p : Evaluation Q α) :
    OptionT m (Except EngineError α × Interpreter Q) :=
  i.evaluate fuel (fun _ => answer) p

/-- Ends the interpreter; the finalizers of all objects that are marked are called. -/
def finish (i : Interpreter Q) (fuel : Nat)
    (answer : ByteArray → Q → OptionT m (Except String Parcel)) :
    OptionT m (Interpreter Q) :=
  if i.stack.heap.collector.marked.isEmpty then pure i
  else do
    let around : Surroundings Q m := ⟨i.functions, answer⟩
    match ← around.drive fuel (.ofAction i.outermost Collector.finish i.stack.heap) with
    | .finished _ heap | .raised _ heap => return { i with stack := ⟨heap, i.stack.values⟩ }

/-- Makes a function of the host the value of a global. -/
def bind (i : Interpreter Q) (fuel : Nat) (answer : Q → OptionT m (Except String Parcel))
    (name : String) (f : HostFunction Q) : OptionT m (Except EngineError Unit × Interpreter Q) :=
  let id := i.functions.length
  let extended : Interpreter Q := ⟨i.stack.push (.host id), i.functions ++ [f]⟩
  extended.run fuel answer (Evaluation.op (.setGlobal name))

end Interpreter
end SealedLua
