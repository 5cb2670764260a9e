import SealedLua.Engine.Interpreter
import SealedLua.Gateway.Basic
import SealedLua.Gateway.Command

/-!
# Running and saving scripts

A gateway opens sealed scripts, saves scripts and runs them, each in an
interpreter of its own.  A running script can call saved scripts by name; how
deep such calls may nest is limited, and a script is run with the number of
levels that are left, so nesting ends by itself.
-/

namespace SealedLua

/-- Work of a gateway, which may fail, and which may run out of fuel. -/
abbrev Work (α : Type) : Type := ExceptT GatewayError (OptionT (Program platformInterface)) α

namespace Work

variable {α : Type}

def ofPlatform {ε : Type} (convert : ε → GatewayError) (p : Platform (Except ε α)) : Work α :=
  ExceptT.mk (OptionT.lift (do return (← p).mapError convert))

def ofExcept (x : Except GatewayError α) : Work α := ExceptT.mk (pure x)

def ofInterpreter {Q : Type}
    (x : OptionT (Program platformInterface) (Except EngineError α × Interpreter Q)) :
    Work (α × Interpreter Q) :=
  ExceptT.mk do
    match ← x with
    | (.ok a, i) => return .ok (a, i)
    | (.error e, _) => return .error (.ofEngine e)

/-- The last work of an interpreter.  Then its finalizers are called, and what
is still to be printed is printed. -/
def finishing {Q : Type} (fuel : Nat)
    (answer : ByteArray → Q → OptionT (Program platformInterface) (Except String Parcel))
    (x : OptionT (Program platformInterface) (Except EngineError α × Interpreter Q)) : Work α :=
  ExceptT.mk do
    let (result, i) ← x
    let i ← i.finish fuel answer
    OptionT.lift (Platform.print i.stack.heap.output)
    return result.mapError .ofEngine

end Work

/-- A call of a saved script that a script makes. -/
structure NestedCall where
  name : String
  argument : Parcel
deriving DecidableEq

namespace Gateway

/-- The global through which scripts call saved scripts. -/
def hostCallName : String := "internal_TA_call"

/-- The body of the function through which scripts call saved scripts. -/
def hostCall : Evaluation NestedCall Unit := do
  let argument ← encode
  let name ← Evaluation.op .popText
  match ← Evaluation.ask (⟨name, argument⟩ : NestedCall) with
  | .ok result => decode result
  | .error reason => throw (.hostCall hostCallName reason)

/-- Answers to the nested calls of a script, each after some text was printed. -/
abbrev Answers :=
  ByteArray → NestedCall → OptionT (Program platformInterface) (Except String Parcel)

/-- Runs a script in a new interpreter. -/
def runWith (fuel : Nat) (answers : Answers) (script : ByteArray) (argument : Parcel) :
    Work Parcel := do
  let circumstances ← Work.ofPlatform .ofEngine Platform.admitInterpreter
  let i := Interpreter.create circumstances
  let ((), i) ← Work.ofInterpreter (i.bind fuel (answers (bytes [])) hostCallName ⟨2, hostCall⟩)
  Work.finishing fuel answers (i.evaluate fuel answers (execute script argument))

/-- An answer to a nested call: first what the caller has printed is passed on,
and a failure is told in its words. -/
def answered (printed : ByteArray) (x : Work Parcel) :
    OptionT (Program platformInterface) (Except String Parcel) := do
  OptionT.lift (Platform.print printed)
  return (← x.run).mapError GatewayError.message

def loadScript (g : Gateway) (name : ByteArray) : Work ByteArray := do
  return (← Work.ofPlatform .ofStore (Scripts.load g.nameLimit name)).body

/-- Runs a script whose calls may nest so many levels more. -/
def run (g : Gateway) (fuel : Nat) : Nat → ByteArray → Parcel → Work Parcel
  | 0, script, argument =>
    runWith fuel (fun printed _ => answered printed (throw (.recursionLimit g.depthLimit)))
      script argument
  | levels + 1, script, argument =>
    runWith fuel (fun printed call => answered printed do
      let body ← g.loadScript call.name.toUTF8
      g.run fuel levels body call.argument) script argument

def unsealed (g : Gateway) (isSealed : Bool) (script : ByteArray) : Except GatewayError ByteArray :=
  if isSealed then (Payload.decrypt g.secret script).mapError .ofCrypto else .ok script

def runInline (g : Gateway) (fuel : Nat) (script : ByteArray) (isSealed : Bool)
    (argument : Parcel) : Work Parcel := do
  let script ← Work.ofExcept (g.unsealed isSealed script)
  g.run fuel g.depthLimit script argument

def runSaved (g : Gateway) (fuel : Nat) (name : ByteArray) (argument : Parcel) : Work Parcel := do
  let body ← g.loadScript name
  g.run fuel g.depthLimit body argument

/-- Saves a script; the name is looked at first. -/
def save (g : Gateway) (name script : ByteArray) (isSealed : Bool) : Work Unit := do
  let _ ← Work.ofExcept ((Scripts.checkName g.nameLimit name).mapError .ofStore)
  let script ← Work.ofExcept (g.unsealed isSealed script)
  Work.ofPlatform .ofStore (Scripts.save g.nameLimit name script)

/-- The argument of a run, in the second and the fourth slot. -/
def readArgument (g : Gateway) (slots : Slots) : Except GatewayError Parcel := do
  let words ← slots.q.asValue
  let buffer ← slots.s.asBuffer
  (Parcel.ofSlots ⟨words.a, words.b, buffer⟩ g.capacity).mapError .ofEngine

/-- Puts the result of a run into the second and then the fourth slot.  Both
are worked out before the first is changed. -/
def writeResult (g : Gateway) (slots : Slots) (result : Parcel) :
    Except GatewayError Unit × Slots :=
  match (result.toSlots g.capacity).mapError .ofEngine with
  | .error e => (.error e, slots)
  | .ok r =>
    match slots.q.withValue ⟨r.tag, r.number⟩ with
    | .error e => (.error e, slots)
    | .ok q =>
      match slots.s.withBuffer r.buffer with
      | .error e => (.error e, { slots with q := q })
      | .ok s => (.ok (), { slots with q := q, s := s })

def finish (g : Gateway) (slots : Slots) : Except GatewayError Parcel →
    Except GatewayError Unit × Slots
  | .ok result => g.writeResult slots result
  | .error e => (.error e, slots)

def runFromSlots (g : Gateway) (fuel : Nat) (slots : Slots) : Work Parcel := do
  let script ← Work.ofExcept slots.p.asBuffer
  let mode ← Work.ofExcept slots.r.asValue
  let argument ← Work.ofExcept (g.readArgument slots)
  g.runInline fuel script (mode.a != 0) argument

def runSavedFromSlots (g : Gateway) (fuel : Nat) (slots : Slots) : Work Parcel := do
  let name ← Work.ofExcept slots.p.asBuffer
  let argument ← Work.ofExcept (g.readArgument slots)
  g.runSaved fuel name argument

/-- Saves the script in the second slot under the name in the first. -/
def saveFromSlots (g : Gateway) (slots : Slots) : Work Unit := do
  let name ← Work.ofExcept slots.p.asBuffer
  let script ← Work.ofExcept slots.q.asBuffer
  let mode ← Work.ofExcept slots.r.asValue
  g.save name script (mode.a != 0)

/-- Carries out a command.  Slots are changed only after everything else. -/
def dispatch (g : Gateway) (fuel : Nat) (id : UInt32) (slots : Slots) :
    OptionT (Program platformInterface) (Except GatewayError Unit × Slots) :=
  match (do
      let c ← Command.ofId id
      c.checkSignature slots
      pure c : Except GatewayError Command) with
  | .error e => pure (.error e, slots)
  | .ok .save => do return (← (g.saveFromSlots slots).run, slots)
  | .ok .runInline => do return g.finish slots (← (g.runFromSlots fuel slots).run)
  | .ok .runSaved => do return g.finish slots (← (g.runSavedFromSlots fuel slots).run)

end Gateway
end SealedLua
