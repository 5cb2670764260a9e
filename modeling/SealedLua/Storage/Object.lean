import SealedLua.Files.Failure

/-!
# Objects in storage

Storage keeps byte strings under ids, which are byte strings themselves.  Five
operations are asked of it.
-/

namespace SealedLua

inductive StoreError where
  | notFound (name : String)
  | invalidName (reason : String)
  | files (failure : FileFailure)
  | lock (object : String)
  /-- Any other failure of storage. -/
  | backend (reason : String)
deriving DecidableEq, Repr

namespace StoreError

def message : StoreError → String
  | .notFound name => "StoreError: no object named " ++ Quoted.text name ++ "."
  | .invalidName reason => "StoreError: invalid script name: " ++ reason ++ "."
  | .files failure => "StoreError: IO error: " ++ failure.detail ++ "."
  | .lock object => "StoreError: failed to obtain lock on " ++ object ++ "."
  | .backend reason => "StoreError: object storage failure: " ++ reason ++ "."

end StoreError

abbrev ObjectId := ByteArray

inductive StorageOp where
  /-- Makes an empty object, or empties the one that is there. -/
  | create (id : ObjectId)
  /-- Adds to the end of an object that is there. -/
  | write (id : ObjectId) (data : ByteArray)
  /-- Reads an object, if there is one. -/
  | openRead (id : ObjectId)
  /-- Moves an object in the place of any other. -/
  | rename (source target : ObjectId)
  /-- Takes an object away, if there is one. -/
  | delete (id : ObjectId)
deriving DecidableEq

namespace StorageOp

def Result : StorageOp → Type
  | .openRead _ => Option ByteArray
  | .create _ | .write _ _ | .rename _ _ | .delete _ => Unit

abbrev Answer (op : StorageOp) : Type := Except StoreError op.Result

end StorageOp

namespace StoreError

/-- The failure for an object that is missing; it is named by its id in hexadecimal digits. -/
def missing (id : ObjectId) : StoreError := .notFound (Hex.encode id)

end StoreError
end SealedLua
