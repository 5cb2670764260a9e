import SealedLua.Gateway.Slot

/-!
# Commands

The commands that a caller can give, their numbers, and the slots that each
must come with.
-/

namespace SealedLua

inductive Command where
  /-- Runs a script that comes with the call. -/
  | runInline
  /-- Runs a script that was saved. -/
  | runSaved
  | save
deriving DecidableEq, Repr

namespace Command

def id : Command → UInt32
  | .runInline => 1
  | .runSaved => 2
  | .save => 3

def name : Command → String
  | .runInline => "RunInline"
  | .runSaved => "RunSaved"
  | .save => "Save"

/-- The types of the slots of a command. -/
def signature : Command → List SlotType
  | .runInline | .runSaved => [.buffer .input, .value .inout, .value .input, .buffer .inout]
  | .save => [.buffer .input, .buffer .input, .value .input, .none]

def ofId (id : UInt32) : Except GatewayError Command :=
  if id = 1 then .ok .runInline
  else if id = 2 then .ok .runSaved
  else if id = 3 then .ok .save
  else .error (.badParameters ("unknown command id " ++ toString id))

@[simp] theorem ofId_id (c : Command) : ofId c.id = .ok c := by
  cases c <;> rfl

def checkSignature (c : Command) (slots : Slots) : Except GatewayError Unit :=
  if slots.types = c.signature then .ok ()
  else
    .error (.badParameters
      (c.name ++ " expects slots " ++ SlotType.listed c.signature ++ ", found " ++
      SlotType.listed slots.types))

end Command
end SealedLua
