import SealedLua.Platform.Process
import SealedLua.Storage.Observed

/-!
# A host under observation

A host runs a process over a file tree.  It notes the operations on storage and
can let them fail, and it counts interpreters and can refuse to admit more.
-/

namespace SealedLua

structure Host where
  process : Process
  files : FileTree := .directory []
  observation : Observation := {}
  /-- How many interpreters were admitted. -/
  interpreters : Nat := 0
  /-- How many may be admitted, if there is a limit. -/
  interpreterLimit : Option Nat := none

namespace Host

/-- Answers an operation on files. -/
def answerFile (op : FileOp) : StateM FileTree op.Answer := fun t => t.perform op

/-- Performs an operation on storage without noting it. -/
def perform (op : StorageOp) : StateM Host op.Answer := fun h =>
  let ((answer, process), files) :=
    ((Process.answerStorage answerFile op).run h.process).run h.files
  (answer, { h with process := process, files := files })

/-- Answers an operation of the platform. -/
def answer : (op : PlatformOp) → StateM Host op.Answer
  | .storage op => fun h =>
    match h.observation.intercept op with
    | (some answer, observation) => (answer, { h with observation := observation })
    | (none, observation) => (perform op).run { h with observation := observation }
  | .drawSerial => fun h =>
    let ((serial, process), files) :=
      ((Process.answer answerFile .drawSerial).run h.process).run h.files
    (serial, { h with process := process, files := files })
  | .admitInterpreter => fun h =>
    if h.interpreterLimit.any (· ≤ h.interpreters) then
      (.error (.creation "no more interpreters"), h)
    else (.ok (h.process.circumstances h.interpreters),
      { h with interpreters := h.interpreters + 1 })
  | .print text => fun h =>
    ((), { h with process := { h.process with printed := h.process.printed ++ text } })

/-- Runs a program on the platform. -/
def run {α : Type} (p : Platform α) : StateM Host α := Program.run (I := platformInterface) answer p

def restart (h : Host) (c : Configuration) : Except StoreError Host :=
  let (started, files) := (Process.start answerFile h.process.circumstances c).run h.files
  started.map fun p => { h with process := { p with serial := h.process.serial }, files := files }

/-- The objects with one of the ids that were noted, and their sizes. -/
def objects (h : Host) : List (ObjectId × Nat) :=
  h.observation.ids.filterMap fun id =>
    match ((perform (.openRead id)).run h).1 with
    | .ok (some data) => some (id, data.size)
    | _ => none

end Host
end SealedLua
