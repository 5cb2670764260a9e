import SealedLua.Gateway.Dispatcher

/-!
# Sessions

A caller opens a session and gives commands in it.  A session manager numbers
the sessions; its counter is a 32-bit word, and a new session takes the place of
one that has its number.
-/

namespace SealedLua

abbrev Uuid := BitVec 128

namespace Uuid

def groups : List Nat := [8, 4, 4, 4, 12]

/-- Splits off a part for each length. -/
def parts : List Nat → List UInt8 → List (List UInt8)
  | [], _ => []
  | n :: lengths, digits => digits.take n :: parts lengths (digits.drop n)

/-- Thirty-two digits in groups. -/
def text (u : Uuid) : String :=
  let digits := Ascii.numeral 16 u.toNat
  "-".intercalate ((parts groups (List.replicate (32 - digits.length) 48 ++ digits)).map Ascii.text)

end Uuid

namespace Gateway

/-- The name under which callers ask for the gateway. -/
def uuid : Uuid := 0xdebd5a03e1c14e1689a9c294e3d78cd5#128

/-- Modes of scripts in slots: in plain text, or sealed. -/
def plainMode : UInt64 := 0
def sealedMode : UInt64 := 1

def mode (isSealed : Bool) : UInt64 := if isSealed then sealedMode else plainMode

end Gateway

structure Session where
  isOpen : Bool
deriving DecidableEq

namespace Session

/-- Opens a session.  The call has no slots. -/
def start (slots : Slots) : Except ErrorCode Session :=
  if slots.types = [.none, .none, .none, .none] then .ok ⟨true⟩
  else
    let e : GatewayError :=
      .badParameters ("open session expects no parameters, found " ++ SlotType.listed slots.types)
    .error (e.withOrigin .trustedApp)

def closedCode : ErrorCode := (GatewayError.badState "session is closed").withOrigin .api

/-- Gives a command.  It works on slots of its own, so that the caller's slots
change only if it succeeds. -/
def invoke (s : Session) (g : Gateway) (fuel : Nat) (command : UInt32) (slots : Slots) :
    OptionT (Program platformInterface) (Except ErrorCode Unit × Slots) :=
  if s.isOpen then do
    match ← g.dispatch fuel command slots with
    | (.ok (), changed) => return (.ok (), changed)
    | (.error e, _) => return (.error (e.withOrigin .trustedApp), slots)
  else pure (.error closedCode, slots)

def close (_ : Session) : Session := ⟨false⟩

end Session

structure SessionManager where
  /-- The number of the next session. -/
  next : UInt32
  sessions : List (UInt32 × Session)
deriving DecidableEq

namespace SessionManager

def empty : SessionManager := ⟨1, []⟩

def find? (m : SessionManager) (id : UInt32) : Option Session :=
  (m.sessions.find? fun s => s.1 = id).map (·.2)

def others (m : SessionManager) (id : UInt32) : List (UInt32 × Session) :=
  m.sessions.filter fun s => s.1 ≠ id

/-- Opens a session on the application of a name.  Only a session that is
opened takes a number. -/
def openSession (m : SessionManager) (uuid : Uuid) (slots : Slots) :
    Except ErrorCode UInt32 × SessionManager :=
  if uuid ≠ Gateway.uuid then (.error ((GatewayError.notFound uuid.text).withOrigin .tee), m)
  else
    match Session.start slots with
    | .error e => (.error e, m)
    | .ok s => (.ok m.next, ⟨m.next + 1, (m.next, s) :: m.others m.next⟩)

def unavailable : ErrorCode := (GatewayError.badState "no such session").withOrigin .api

/-- Gives a command in a session. -/
def invoke (m : SessionManager) (g : Gateway) (fuel : Nat) (id command : UInt32) (slots : Slots) :
    OptionT (Program platformInterface) (Except ErrorCode Unit × Slots) :=
  match m.find? id with
  | some s => s.invoke g fuel command slots
  | none => pure (.error unavailable, slots)

def closeSession (m : SessionManager) (id : UInt32) : Except ErrorCode Unit × SessionManager :=
  match m.find? id with
  | some _ => (.ok (), { m with sessions := m.others id })
  | none => (.error unavailable, m)

end SessionManager
end SealedLua
