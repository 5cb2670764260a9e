import SealedLua.CommandLine.Run

/-!
# The program on a real system

Answers what the program asks of the operating system, and passes on what it
says.  Nothing is decided here.
-/

namespace SealedLua.Main

open CommandLine

/-- The number of a failure; a failure without one counts as one of input and output. -/
def failure : IO.Error → FileFailure
  | .alreadyExists _ code _ | .otherError code _ | .resourceBusy code _ | .resourceVanished code _
  | .unsupportedOperation code _ | .hardwareFault code _ | .unsatisfiedConstraints code _
  | .illegalOperation code _ | .protocolError code _ | .timeExpired code _ | .interrupted _ code _
  | .noFileOrDirectory _ code _ | .invalidArgument _ code _ | .permissionDenied _ code _
  | .resourceExhausted _ code _ | .inappropriateType _ code _ | .noSuchThing _ code _ =>
    .system code.toNat
  | .unexpectedEof | .userError _ => .system 5

def attempt {α : Type} (act : IO α) : IO (Except FileFailure α) := do
  try
    return .ok (← act)
  catch e =>
    return .error (failure e)

def present (path : String) : IO Bool := do
  try
    let _ ← IO.FS.Handle.mk path .read
    return true
  catch e =>
    if failure e = .notFound then return false else throw e

/-- Makes the directories of the paths, of which each is in the one after it,
from the first that can be made; one that is there is left as it is. -/
def makeDirectories : List String → IO Unit
  | [] => pure ()
  | path :: parents => do
    match ← attempt (IO.FS.createDir path) with
    | .ok () => return
    | .error e =>
      if e = .notFound && !parents.isEmpty then
        makeDirectories parents
        IO.FS.createDir path
      else if !(← attempt (IO.FS.Handle.mk (path ++ "/.") .read)).isOk then
        IO.FS.createDir path

/-- A path and the directories that it is in, the nearest first. -/
def withParents (path : String) : List String :=
  let parts := path.splitOn "/"
  (List.range parts.length).filterMap fun n =>
    let parent := "/".intercalate (parts.take (parts.length - n))
    if parent.isEmpty then none else some parent

def answerFile : (op : FileOp) → IO op.Result
  | .exists path => present path
  | .makeDirectories path => makeDirectories (withParents path)
  | .read path => IO.FS.readBinFile path
  | .create path => do let _ ← IO.FS.Handle.mk path .write
  | .append path data => do
    let _ ← IO.FS.Handle.mk path .read
    (← IO.FS.Handle.mk path .append).write data
  | .rename source target => IO.FS.rename source target
  | .remove path => IO.FS.removeFile path

def paths : FileOp → List String
  | .exists path | .makeDirectories path | .read path | .create path | .append
    path _ | .remove path => [path]
  | .rename source target => [source, target]

def answer : (op : SystemOp) → IO op.Answer
  | .file op =>
    if (paths op).any fun path => path.toList.contains '\x00' then pure (.error .zeroByteInPath)
    else attempt (answerFile op)
  | .random count => do
    match ← attempt (IO.getRandomBytes count.toUSize) with
    | .ok data => return some data.toList
    | .error _ => return none

/-- Circumstances that start from words at random. -/
def circumstances : IO (Nat → Lua.Circumstances) := do
  let first ← IO.rand 0 (UInt64.size - 1)
  let second ← IO.rand 0 (UInt64.size - 1)
  return fun n => { seed := fun k => (UInt64.ofNat (first + n), UInt64.ofNat (second + k)) }

/-- More steps than a machine can make. -/
def fuel : Nat := 1000000000000000000

end SealedLua.Main

def main (args : List String) : IO UInt32 := do
  let p := (SealedLua.CommandLine.run SealedLua.Main.fuel args (← SealedLua.Main.circumstances)).run
  match ← p.run (I := SealedLua.CommandLine.systemInterface) SealedLua.Main.answer with
  | none => return 1
  | some ending =>
    (← IO.getStdout).write ending.written
    (← IO.getStderr).putStr ending.errors
    return ending.code.toUInt32
