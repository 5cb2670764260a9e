import SealedLua.CommandLine.Failure
import SealedLua.Gateway.Session
import SealedLua.Platform.Process

/-!
# Carrying out requests

The program reads its line of arguments and its configuration, does one thing,
and ends with two texts and a code.  It asks for files and for bytes at random;
everything else, a gateway with a session of its own included, is inside of it.
A script need not come to an end, so a run takes fuel and may run out of it.
-/

namespace SealedLua.CommandLine

/-- What the program asks of the operating system. -/
inductive SystemOp where
  | file (op : FileOp)
  /-- So many bytes at random, if they can be had. -/
  | random (count : Nat)

namespace SystemOp

def Answer : SystemOp → Type
  | .file op => op.Answer
  | .random _ => Option (List UInt8)

end SystemOp

def systemInterface : Interface := ⟨SystemOp, SystemOp.Answer⟩

/-- How the program ends: its code, what scripts have printed, what the program
says after that, and what it says of failures. -/
structure Ending where
  code : Nat
  printed : ByteArray := bytes []
  said : String := ""
  errors : String := ""
deriving DecidableEq

namespace Ending

def written (e : Ending) : ByteArray := e.printed ++ e.said.toUTF8

def output (e : Ending) : String := Lossy.text e.written

end Ending

/-- Work for a request, which may fail, which may run out of fuel, and in which
scripts may print. -/
abbrev Job (α : Type) : Type :=
  ExceptT Failure (StateT ByteArray (OptionT (Program systemInterface))) α

namespace Job

variable {α : Type}

def ofExcept (x : Except Failure α) : Job α := ExceptT.mk (pure x)

/-- Work that cannot run out of fuel. -/
def ofProgram {ε : Type} (convert : ε → Failure)
    (p : Program systemInterface (Except ε α)) : Job α :=
  ExceptT.mk (StateT.lift (OptionT.lift (do return (← p).mapError convert)))

def askFile (op : FileOp) : Program systemInterface op.Answer :=
  Program.ask (I := systemInterface) (.file op)

def draw (count : Nat) : Program systemInterface (Option (List UInt8)) :=
  Program.ask (I := systemInterface) (.random count)

def readFile (path : String) : Job ByteArray := ofProgram (.read path) (askFile (.read path))

def writeFile (path : String) (data : ByteArray) : Job Unit := do
  ofProgram (.write path) (askFile (.create path))
  ofProgram (.write path) (askFile (.append path data))

/-- Reads the configuration. -/
def configuration (path : String) : Job Configuration := do
  let document ← ofProgram (fun e => .configuration path (.files e)) (askFile (.read path))
  match String.fromUTF8? document with
  | none => throw (.configuration path .notUtf8)
  | some text => ofExcept ((Configuration.ofJson text).mapError .gateway)

/-- Work of a process that ends with it; what it has printed stays. -/
def ofProcess (p : Process) (work : Platform (Option α)) : Job α :=
  ExceptT.lift fun printed => OptionT.mk do
    let (result, p) ← (work.run (I := platformInterface) (Process.answer askFile)).run p
    return result.map fun a => (a, printed ++ p.printed)

variable (circumstances : Nat → Lua.Circumstances) (c : Configuration) (fuel : Nat)

/-- Gives a command in a session of its own. -/
def command (command : Command) (slots : Slots) : Job Slots := do
  let process ← ofProgram (fun e => .gateway (.ofStore e)) (Process.start askFile circumstances c)
  match SessionManager.empty.openSession Gateway.uuid {} with
  | (.error code, _) => throw (.opening code)
  | (.ok id, manager) =>
    let work := (manager.invoke c.toGateway fuel id command.id slots).run
    let (outcome, slots) ← ofProcess process work
    ofExcept ((manager.closeSession id).1.mapError .closing)
    ofExcept (outcome.mapError (.command command))
    return slots

def commandWithResult (command : Command) (slots : Slots) : Job Parcel := do
  let slots ← Job.command circumstances c fuel command slots
  let words ← ofExcept (slots.q.asValue.mapError .gateway)
  let buffer ← ofExcept (slots.s.asBuffer.mapError .gateway)
  ofExcept ((Parcel.ofSlots ⟨words.a, words.b, buffer⟩ c.capacity).mapError .malformed)

def callSlots (script : ByteArray) (isSealed : Bool) (argument : Parcel) : Job Slots := do
  let s ← ofExcept ((argument.toSlots c.capacity).mapError .unfit)
  return {
    p := .buffer .input script
    q := .value .inout ⟨s.tag, s.number⟩
    r := .value .input ⟨Gateway.mode isSealed, 0⟩
    s := .buffer .inout s.buffer }

/-- Does what is asked for and says what was done. -/
def perform : Action → Job String
  | .sealFile input output => do
    let script ← readFile input
    let payload ← ofProgram .crypto (Payload.encryptFresh draw c.secret script)
    writeFile output payload
    return "sealed " ++ toString script.size ++ " bytes into " ++ toString payload.size ++
      " byte payload"
  | .run script isSealed argument => do
    let body ← readFile script
    let slots ← callSlots c body isSealed argument
    return (← commandWithResult circumstances c fuel .runInline slots).display
  | .save name script isSealed => do
    let body ← readFile script
    let slots : Slots := {
      p := .buffer .input name.toUTF8
      q := .buffer .input body
      r := .value .input ⟨Gateway.mode isSealed, 0⟩ }
    let _ ← Job.command circumstances c fuel .save slots
    return "saved " ++ Quoted.text name
  | .runSaved name argument => do
    let slots ← callSlots c name.toUTF8 false argument
    return (← commandWithResult circumstances c fuel .runSaved slots).display

/-- Carries out the request of a line. -/
def carryOut (line : Request.Line) : Job String := do
  let request ← ofExcept ((Request.ofLine line).mapError .argument)
  let c ← configuration request.configuration
  perform circumstances c fuel request.action

end Job

def usage : String := "Usage: " ++ programName ++ " --config <FILE> <COMMAND>"

def help : String :=
  let options := fun (g : Grammar) => UsageError.listed g.flags ++ "\n"
  usage ++ "\n" ++ options Request.grammar ++
    String.join (Request.Subcommand.all.map fun c => "\n" ++ c.name ++ options c.grammar)

/-- How the program ends with a line that it does not carry out. -/
def Ending.ofStop : Stop → Ending
  | .usage e =>
    { code := 2, errors := "error: " ++ e.message ++ "\n\n" ++ usage ++
      "\n\nFor more information, try '--help'.\n" }
  | .help => { code := 0, said := help }
  | .version => { code := 0, said := programName ++ " " ++ programVersion ++ "\n" }

/-- How the program ends with a request that it carried out or could not carry
out, after scripts have printed some text. -/
def Ending.ofResult (printed : ByteArray) : Except Failure String → Ending
  | .ok text => { code := 0, printed := printed, said := text ++ "\n" }
  | .error f => { code := 1, printed := printed, errors := f.report ++ "\n" }

/-- Runs the program with a line of arguments, in some circumstances of its interpreters. -/
def run (fuel : Nat) (arguments : List String)
    (circumstances : Nat → Lua.Circumstances := Lua.Circumstances.numbered) :
    OptionT (Program systemInterface) Ending :=
  match Request.readLine arguments with
  | .error stop => pure (.ofStop stop)
  | .ok line => do
    let (result, printed) ← (Job.carryOut circumstances fuel line).run.run (bytes [])
    return .ofResult printed result

end SealedLua.CommandLine
