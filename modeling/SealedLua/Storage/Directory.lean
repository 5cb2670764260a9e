import SealedLua.Files.Tree
import SealedLua.Storage.Object

/-!
# Storage in a directory

Each object is a file whose name is its id in hexadecimal digits.  Storage in a
directory is a program over file operations, so it runs on a `FileTree` as well
as on real files.
-/

namespace SealedLua

namespace Directory

/-- The path of an object below a root. -/
def path (root : String) (id : ObjectId) : String := FilePath.join root (Hex.encode id)

def «open» (root : String) : Program fileInterface (Except StoreError Unit) := do
  match ← Program.ask (I := fileInterface) (.exists root) with
  | .error e => return .error (.files e)
  | .ok true => return .ok ()
  | .ok false =>
    match ← Program.ask (I := fileInterface) (.makeDirectories root) with
    | .error e => return .error (.files e)
    | .ok () => return .ok ()

/-- The answer to an operation after a failure of files.  Only a file that is
missing has an answer of its own. -/
def onFailure {α : Type} (e : FileFailure) (missing : Except StoreError α) : Except StoreError α :=
  if e = .notFound then missing else .error (.files e)

def perform (root : String) : (op : StorageOp) → Program fileInterface op.Answer
  | .create id => do
    match ← Program.ask (I := fileInterface) (.create (path root id)) with
    | .ok () => return .ok ()
    | .error e => return .error (.files e)
  | .write id data => do
    match ← Program.ask (I := fileInterface) (.append (path root id) data) with
    | .ok () => return .ok ()
    | .error e => return onFailure e (.error (.missing id))
  | .openRead id => do
    match ← Program.ask (I := fileInterface) (.read (path root id)) with
    | .ok data => return .ok (some data)
    | .error e => return onFailure e (.ok none)
  | .rename source target => do
    match ← Program.ask (I := fileInterface) (.rename (path root source) (path root target)) with
    | .ok () => return .ok ()
    | .error e => return onFailure e (.error (.missing source))
  | .delete id => do
    match ← Program.ask (I := fileInterface) (.remove (path root id)) with
    | .ok () => return .ok ()
    | .error e => return onFailure e (.ok ())

end Directory
end SealedLua
