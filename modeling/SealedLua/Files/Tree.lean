import SealedLua.Files.Failure
import SealedLua.Program

/-!
# Files and directories

What is asked of files is a handful of operations on paths.  `FileTree` is a
directory with all that is below it, and answers those operations as a file
system does, failures included.  Paths are relative to it; nothing outside of
it can be reached.
-/

namespace SealedLua

inductive FileOp where
  /-- Whether there is anything at a path. -/
  | exists (path : String)
  /-- Makes a directory and those that it is in. -/
  | makeDirectories (path : String)
  | read (path : String)
  /-- Makes an empty file, or empties the one that is there. -/
  | create (path : String)
  /-- Adds to the end of a file that is there. -/
  | append (path : String) (data : ByteArray)
  /-- Replaces what is at the target. -/
  | rename (source target : String)
  | remove (path : String)

namespace FileOp

def Result : FileOp → Type
  | .exists _ => Bool
  | .read _ => ByteArray
  | .makeDirectories _ | .create _ | .append _ _ | .rename _ _ | .remove _ => Unit

abbrev Answer (op : FileOp) : Type := Except FileFailure op.Result

end FileOp

def fileInterface : Interface := ⟨FileOp, FileOp.Answer⟩

inductive FileTree where
  | file (data : ByteArray)
  | directory (entries : List (String × FileTree))
deriving Inhabited

/-- A path in parts.  A path that ends in a slash or a dot names a directory. -/
structure FilePath where
  parts : List String
  directory : Bool
deriving DecidableEq

namespace FilePath

/-- The parts of a path; a part `..` takes away the one before it. -/
def ofString (path : String) : Except FileFailure FilePath :=
  if path.toList.contains '\x00' then .error .zeroByteInPath
  else if path.isEmpty || path.startsWith "/" then .error .notFound
  else
    let pieces := path.splitOn "/"
    let parts := pieces.foldl (fun parts p =>
      if p == "" || p == "." then parts else if p == ".." then parts.drop 1 else p :: parts) []
    .ok ⟨parts.reverse, ["", ".", ".."].contains (pieces.getLastD "")⟩

def join (directory entry : String) : String :=
  if directory.isEmpty then entry else if directory.endsWith "/" then directory ++ entry
    else directory ++ "/" ++ entry

end FilePath

namespace FileTree

/-- The most bytes that a name may have. -/
def nameLimit : Nat := 255

def isDirectory : FileTree → Bool
  | .directory _ => true
  | .file _ => false

def child? (entries : List (String × FileTree)) (name : String) : Option FileTree :=
  (entries.find? (·.1 == name)).map (·.2)

def withEntry (entries : List (String × FileTree)) (name : String) (entry : Option FileTree) :
    List (String × FileTree) :=
  let others := entries.filter (·.1 != name)
  match entry with
  | some t => (name, t) :: others
  | none => others

/-- What is at a path: `none` if only its directory is there. -/
def find (t : FileTree) : List String → Except FileFailure (Option FileTree)
  | [] => .ok (some t)
  | name :: rest =>
    match t with
    | .file _ => .error .notADirectory
    | .directory entries =>
      if nameLimit < name.utf8ByteSize then .error .nameTooLong
      else
        match child? entries name, rest with
        | none, [] => .ok none
        | none, _ :: _ => .error .notFound
        | some t, rest => t.find rest

def alter (f : Option FileTree → Except FileFailure (Option FileTree)) (t : FileTree) :
    List String → Except FileFailure FileTree
  | [] => do return (← f (some t)).getD t
  | name :: rest =>
    match t with
    | .file _ => .error .notADirectory
    | .directory entries =>
      if nameLimit < name.utf8ByteSize then .error .nameTooLong
      else
        match rest with
        | [] => do return .directory (withEntry entries name (← f (child? entries name)))
        | _ :: _ =>
          match child? entries name with
          | none => .error .notFound
          | some child =>
            do return .directory (withEntry entries name (some (← child.alter f rest)))

/-- Changes what is at a path, and keeps the tree if that fails. -/
def change (t : FileTree) (path : String)
    (f : FilePath → Option FileTree → Except FileFailure (Option FileTree)) :
    Except FileFailure Unit × FileTree :=
  let changed := do
    let p ← FilePath.ofString path
    t.alter (f p) p.parts
  match changed with
  | .ok t => (.ok (), t)
  | .error e => (.error e, t)

def «exists» (t : FileTree) (path : String) : Except FileFailure Bool :=
  let found := do
    let p ← FilePath.ofString path
    match ← t.find p.parts with
    | none => .error .notFound
    | some (.file _) => if p.directory then .error .notADirectory else .ok true
    | some (.directory _) => .ok true
  match found with
  | .error e => if e = .notFound then .ok false else .error e
  | .ok b => .ok b

def read (t : FileTree) (path : String) : Except FileFailure ByteArray := do
  let p ← FilePath.ofString path
  match ← t.find p.parts with
  | none => .error .notFound
  | some (.file data) => if p.directory then .error .notADirectory else .ok data
  | some (.directory _) => .error .isADirectory

def withDirectories (t : FileTree) : List String → Except FileFailure FileTree
  | [] =>
    match t with
    | .directory _ => .ok t
    | .file _ => .error .alreadyExists
  | name :: rest =>
    match t with
    | .file _ => .error .notADirectory
    | .directory entries =>
      if nameLimit < name.utf8ByteSize then .error .nameTooLong
      else do
        let child := (child? entries name).getD (.directory [])
        return .directory (withEntry entries name (some (← child.withDirectories rest)))

def makeDirectories (t : FileTree) (path : String) : Except FileFailure Unit × FileTree :=
  if path.isEmpty then (.ok (), t)
  else
    match (do t.withDirectories (← FilePath.ofString path).parts) with
    | .ok t => (.ok (), t)
    | .error e => (.error e, t)

def create (t : FileTree) (path : String) : Except FileFailure Unit × FileTree :=
  t.change path fun p found =>
    match found with
    | some (.directory _) => .error .isADirectory
    | _ => if p.directory then .error .isADirectory else .ok (some (.file (bytes [])))

def append (t : FileTree) (path : String) (data : ByteArray) : Except FileFailure Unit × FileTree :=
  t.change path fun p found =>
    match found with
    | none => .error .notFound
    | some (.directory _) => .error .isADirectory
    | some (.file old) => if p.directory then .error .notADirectory
      else .ok (some (.file (old ++ data)))

def remove (t : FileTree) (path : String) : Except FileFailure Unit × FileTree :=
  t.change path fun p found =>
    match found with
    | none => .error .notFound
    | some (.directory _) => .error .isADirectory
    | some (.file _) => if p.directory then .error .notADirectory else .ok none

/-- Whether what is moved may take the place of what is at the target. -/
def mayReplace (moved : FileTree) : Option FileTree → Except FileFailure Unit
  | none => .ok ()
  | some target =>
    match moved, target with
    | .file _, .directory _ => .error .isADirectory
    | .directory _, .file _ => .error .notADirectory
    | .directory _, .directory (_ :: _) => .error .notEmpty
    | _, _ => .ok ()

/-- Reports a path whose directory cannot be reached. -/
def checkParent (t : FileTree) (p : FilePath) : Except FileFailure Unit :=
  match p.parts.reverse with
  | [] => .ok ()
  | _ :: parents => do
    match ← t.find parents.reverse with
    | some (.directory _) => .ok ()
    | some (.file _) => .error .notADirectory
    | none => .error .notFound

def renamed (t : FileTree) (source target : String) : Except FileFailure FileTree := do
  let p ← FilePath.ofString source
  let q ← FilePath.ofString target
  t.checkParent p
  t.checkParent q
  match ← t.find p.parts with
  | none => .error .notFound
  | some moved =>
    let replaced ← t.find q.parts
    if !moved.isDirectory && (p.directory || q.directory) then .error .notADirectory
    else if p.parts == q.parts then .ok t
    else if p.parts.isPrefixOf q.parts then .error .invalidArgument
    else if q.parts.isPrefixOf p.parts then .error .notEmpty
    else do
      mayReplace moved replaced
      let t ← t.alter (fun _ => .ok none) p.parts
      t.alter (fun _ => .ok (some moved)) q.parts

def rename (t : FileTree) (source target : String) : Except FileFailure Unit × FileTree :=
  match t.renamed source target with
  | .ok t => (.ok (), t)
  | .error e => (.error e, t)

def perform (t : FileTree) : (op : FileOp) → op.Answer × FileTree
  | .exists path => (t.exists path, t)
  | .makeDirectories path => t.makeDirectories path
  | .read path => (t.read path, t)
  | .create path => t.create path
  | .append path data => t.append path data
  | .rename source target => t.rename source target
  | .remove path => t.remove path

/-- The names in a directory; there are none in what is no directory. -/
def names (t : FileTree) (path : String) : List String :=
  match (do t.find (← FilePath.ofString path).parts) with
  | .ok (some (.directory entries)) => entries.map (·.1)
  | _ => []

def makeDirectory (t : FileTree) (path : String) : Except FileFailure Unit × FileTree :=
  t.change path fun _ found => if found.isSome then .error .alreadyExists
    else .ok (some (.directory []))

def removeDirectory (t : FileTree) (path : String) : Except FileFailure Unit × FileTree :=
  t.change path fun _ found =>
    match found with
    | none => .error .notFound
    | some (.file _) => .error .notADirectory
    | some (.directory _) => .ok none

end FileTree
end SealedLua
