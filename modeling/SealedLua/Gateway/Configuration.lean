import SealedLua.Gateway.Basic
import SealedLua.Gateway.Error
import SealedLua.Json.Token
import SealedLua.Text.Unicode

/-!
# Configuration documents

A configuration document is a JSON object with a member for the secret and, if
they are not as usual, for the bounds and for the directory in which scripts
are kept.  An array holds the same values in a fixed order, of which the last
ones may be missing.  Every value is a single token, so a document is read by
going through its tokens once; the first refusal is the one that is reported.
-/

namespace SealedLua

structure Configuration extends Gateway where
  /-- The directory in which scripts are kept; in memory if there is none. -/
  storageRoot : Option String := none

namespace Configuration

/-- The members of a document, in the order of the array form. -/
inductive Field where
  | masterKey | capacity | depthLimit | nameLimit | storageRoot
deriving DecidableEq, Repr

namespace Field

def name : Field → String
  | .masterKey => "master_key"
  | .capacity => "buffer_capacity"
  | .depthLimit => "max_call_depth"
  | .nameLimit => "max_name_len"
  | .storageRoot => "storage_root"

def optional : List Field := [.capacity, .depthLimit, .nameLimit, .storageRoot]

def all : List Field := .masterKey :: optional

def ofName? (s : String) : Option Field := all.find? fun f => f.name = s

end Field

/-- What has been read of a document. -/
structure Draft where
  secret : Option MasterSecret := none
  capacity : Option Nat := none
  depthLimit : Option Nat := none
  nameLimit : Option Nat := none
  storageRoot : Option (Option String) := none

namespace Draft

def has (d : Draft) : Field → Bool
  | .masterKey => d.secret.isSome
  | .capacity => d.capacity.isSome
  | .depthLimit => d.depthLimit.isSome
  | .nameLimit => d.nameLimit.isSome
  | .storageRoot => d.storageRoot.isSome

/-- The configuration, in which usual values stand for what is missing.  The
secret must be there. -/
def complete (d : Draft) (missing : Json.Refusal) : Except Json.Refusal Configuration :=
  match d.secret with
  | none => .error missing
  | some secret => .ok {
      secret := secret
      capacity := d.capacity.getD Parcel.usualCapacity
      depthLimit := d.depthLimit.getD usualDepthLimit
      nameLimit := d.nameLimit.getD Scripts.usualNameLimit
      storageRoot := d.storageRoot.getD none }

end Draft

open Json

def hexRefusal : Hex.DecodeError → String
  | .oddLength => "Odd number of digits"
  | .invalidByte code index =>
    "Invalid character " ++ Quoted.char (Char.ofNat code.toNat) ++ " at position " ++ toString index

/-- The secret of hexadecimal digits, which may have white space around them. -/
def readKey (text : String) : Except String MasterSecret :=
  match Hex.decode (String.ofList (Unicode.trim text.toList)) with
  | .error e => .error (hexRefusal e)
  | .ok key => (MasterSecret.ofBytes key).mapError CryptoError.message

def readSecret (t : Token) : Except Refusal MasterSecret :=
  match t.kind with
  | .text s => (readKey s).mapError fun reason => t.refuseWhole (.refused reason)
  | _ => .error (t.unexpected "a string")

def readBound (t : Token) : Except Refusal Nat :=
  match t.kind with
  | .number (.natural n) => .ok n
  | .number (.negative n) =>
    .error (t.refuseWhole (.wrongValue (Token.described (.number (.negative n))) "usize"))
  | _ => .error (t.unexpected "usize")

def readRoot (t : Token) : Except Refusal (Option String) :=
  match t.kind with
  | .null => .ok none
  | .text s => .ok (some s)
  | _ => .error (t.unexpected "path string")

def readValue (d : Draft) (t : Token) : Field → Except Refusal Draft
  | .masterKey => do return { d with secret := some (← readSecret t) }
  | .capacity => do return { d with capacity := some (← readBound t) }
  | .depthLimit => do return { d with depthLimit := some (← readBound t) }
  | .nameLimit => do return { d with nameLimit := some (← readBound t) }
  | .storageRoot => do return { d with storageRoot := some (← readRoot t) }

def readField (d : Draft) (t : Token) : Except Refusal Field :=
  match t.kind with
  | .text name =>
    match Field.ofName? name with
    | none => .error (t.refuseWhole (.unknownField name (Field.all.map Field.name)))
    | some f => if d.has f then .error (t.refuseWhole (.duplicateField f.name)) else .ok f
  | .brokenText fault => .error (t.refuseWhole fault)
  | .objectEnd => .error (t.refuse .trailingComma)
  | _ => .error (t.refuse .keyNotText)

def closeObject (d : Draft) (t : Token) : Except Refusal Configuration :=
  d.complete ⟨.missingField Field.masterKey.name, some t.start⟩

def closeList (d : Draft) (t : Token) : Except Refusal Configuration :=
  d.complete ⟨.wrongLength 0 "struct GatewayConfig with 5 elements", some t.start⟩

abbrev Document : Type := Except Refusal (Configuration × List Token)

def readMembers (d : Draft) : List Token → Document
  | [] => .error ⟨.endInValue, none⟩
  | key :: rest => do
    let f ← readField d key
    match rest with
    | [] => .error ⟨.endInObject, none⟩
    | colon :: rest =>
      if colon.kind ≠ .colon then .error (colon.refuse .colonExpected)
      else
        match rest with
        | [] => .error ⟨.endInValue, none⟩
        | [value] => do
          let _ ← readValue d value f
          .error ⟨.endInObject, none⟩
        | value :: next :: rest => do
          let d ← readValue d value f
          if next.kind = .objectEnd then return (← closeObject d next, rest)
          else if next.kind = .comma then readMembers d rest
          else .error (next.refuse .objectEndExpected)

def readObject : List Token → Document
  | [] => .error ⟨.endInObject, none⟩
  | t :: rest =>
    if t.kind = .objectEnd then do return (← closeObject {} t, rest) else readMembers {} (t :: rest)

/-- Reads the rest of an array into the fields that are left. -/
def readElements (d : Draft) : List Field → List Token → Document
  | _, [] => .error ⟨.endInList, none⟩
  | [], t :: rest =>
    match t.kind with
    | .listEnd => do return (← closeList d t, rest)
    | .comma =>
      match rest with
      | [] => .error ⟨.trailingText, none⟩
      | next :: _ =>
        .error (next.refuse (if next.kind = .listEnd then .trailingComma else .trailingText))
    | _ => .error (t.refuse .trailingText)
  | f :: fields, t :: rest =>
    match t.kind with
    | .listEnd => do return (← closeList d t, rest)
    | .comma =>
      match rest with
      | [] => .error ⟨.endInValue, none⟩
      | value :: rest => do
        if value.kind = .listEnd then .error (value.refuse .trailingComma)
        readElements (← readValue d value f) fields rest
    | _ => .error (t.refuse .listEndExpected)

def readList : List Token → Document
  | [] => .error ⟨.endInList, none⟩
  | t :: rest =>
    if t.kind = .listEnd then do return (← closeList {} t, rest)
    else do readElements (← readValue {} t .masterKey) Field.optional rest

def readDocument : List Token → Except Refusal Configuration
  | [] => .error ⟨.endInValue, none⟩
  | t :: rest => do
    let (c, rest) ← match t.kind with
      | .objectStart => readObject rest
      | .listStart => readList rest
      | _ => .error (t.unexpected "struct GatewayConfig")
    match rest with
    | [] => return c
    | t :: _ => .error (t.refuse .trailingText)

/-- Refuses bounds with which nothing could be done. -/
def check (c : Configuration) : Except String Unit :=
  if c.capacity = 0 then .error "buffer_capacity must be positive"
  else if c.nameLimit = 0 then .error "max_name_len must be positive"
  else .ok ()

/-- Reads a configuration document. -/
def ofJson (text : String) : Except GatewayError Configuration := do
  let c ← (readDocument (tokens text.toList)).mapError fun r =>
    .configuration (r.message text.toList)
  c.check.mapError .configuration
  return c

def detail (c : Configuration) : String :=
  let root := match c.storageRoot with
    | some path => "Some(" ++ Quoted.path path ++ ")"
    | none => "None"
  "GatewayConfig \x7b master_key: " ++ MasterSecret.shown ++ ", buffer_capacity: " ++
    toString c.capacity ++
    ", max_call_depth: " ++ toString c.depthLimit ++ ", max_name_len: " ++ toString c.nameLimit ++
    ", storage_root: " ++ root ++ " \x7d"

end Configuration
end SealedLua
