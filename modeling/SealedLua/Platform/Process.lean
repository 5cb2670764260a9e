import SealedLua.Gateway.Configuration
import SealedLua.Platform
import SealedLua.Storage.Directory
import SealedLua.Storage.Memory

/-!
# The platform of one process

A process keeps objects in memory, where they end with it, or in a directory,
where they stay.  Serial numbers are counted within the process, and so are the
interpreters, each of which has circumstances of its own.
-/

namespace SealedLua

structure Process where
  /-- The directory of the objects, if they are not kept in memory. -/
  root : Option String
  memory : Memory := {}
  /-- The serial number that is drawn next. -/
  serial : UInt64 := 0
  /-- How many interpreters were made. -/
  made : Nat := 0
  /-- What scripts have printed. -/
  printed : ByteArray := bytes []
  /-- The circumstances of an interpreter, by its number. -/
  circumstances : Nat → Lua.Circumstances := Lua.Circumstances.numbered

namespace Process

variable {m : Type → Type} [Monad m]

/-- Starts a process that keeps objects where a configuration says. -/
def start (files : (op : FileOp) → m op.Answer) (circumstances : Nat → Lua.Circumstances)
    (c : Configuration) :
    m (Except StoreError Process) :=
  match c.storageRoot with
  | none => pure (.ok { root := none, circumstances := circumstances })
  | some root => do
    let opened ← (Directory.open root).run (I := fileInterface) files
    return opened.map fun () => { root := some root, circumstances := circumstances }

def answerStorage (files : (op : FileOp) → m op.Answer) (op : StorageOp) :
    StateT Process m op.Answer := fun p =>
  match p.root with
  | some root => do return (← (Directory.perform root op).run (I := fileInterface) files, p)
  | none =>
    let (answer, memory) := p.memory.perform op
    pure (answer, { p with memory := memory })

/-- Answers an operation of the platform.  Interpreters are not limited. -/
def answer (files : (op : FileOp) → m op.Answer) : (op : PlatformOp) → StateT Process m op.Answer
  | .storage op => answerStorage files op
  | .drawSerial => fun p => pure (p.serial, { p with serial := p.serial + 1 })
  | .admitInterpreter => fun p => pure (.ok (p.circumstances p.made), { p with made := p.made + 1 })
  | .print text => fun p => pure ((), { p with printed := p.printed ++ text })

end Process
end SealedLua
