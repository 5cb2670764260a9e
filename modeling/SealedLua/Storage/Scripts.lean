import SealedLua.Platform

/-!
# Scripts in storage

Scripts are kept under names, each as one object.  A script is written to an
object of its own first and then moved to its place, so that what is under a
name is always a whole script.  If saving fails, the unfinished object is
deleted.
-/

namespace SealedLua.Scripts

/-- The most bytes that a name may have unless something else is agreed. -/
def usualNameLimit : Nat := 64

/-- A name as text, if it is fit for a script. -/
def checkName (limit : Nat) (name : ByteArray) : Except StoreError String :=
  if name.size = 0 || limit < name.size then
    .error (.invalidName ("name length " ++ toString name.size ++
      " outside 1..=" ++ toString limit))
  else
    match String.fromUTF8? name with
    | some s => .ok s
    | none => .error (.invalidName "name is not valid UTF-8")

/-- The id of the object that holds the script of a name. -/
def recordId (name : String) : ObjectId := bytes (ascii "script:") ++ name.toUTF8

def stagingId (serial : UInt64) (name : String) : ObjectId :=
  bytes (ascii "staging:" ++ Ascii.numeral 10 serial.toNat ++ ascii ":") ++ name.toUTF8

/-- Writes an object under an id and moves it to its place. -/
def stage (staging record : ObjectId) (body : ByteArray) :
    ExceptT StoreError (Program platformInterface) Unit := do
  ExceptT.mk (Platform.storage (.create staging))
  ExceptT.mk (Platform.storage (.write staging body))
  ExceptT.mk (Platform.storage (.rename staging record))

/-- Saves a script in the place of any other of that name. -/
def save (limit : Nat) (name body : ByteArray) : Platform (Except StoreError Unit) := do
  match checkName limit name with
  | .error e => return .error e
  | .ok name =>
    let serial ← Platform.drawSerial
    let staging := stagingId serial name
    match ← (stage staging (recordId name) body).run with
    | .ok () => return .ok ()
    | .error e =>
      let _ ← Platform.storage (.delete staging)
      return .error e

/-- A script with its name. -/
structure Record where
  name : String
  body : ByteArray
deriving DecidableEq

def load (limit : Nat) (name : ByteArray) : Platform (Except StoreError Record) := do
  match checkName limit name with
  | .error e => return .error e
  | .ok name =>
    match ← Platform.storage (.openRead (recordId name)) with
    | .error e => return .error e
    | .ok none => return .error (.notFound name)
    | .ok (some body) => return .ok ⟨name, body⟩

end SealedLua.Scripts
