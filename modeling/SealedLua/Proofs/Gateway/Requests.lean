import SealedLua.Proofs.Gateway.CommandSlots

/-!
# Requests

A command is carried out only on slots of its own types.  Such slots hold a
`Request`, and from there on no slot is looked at: nothing that is read from
them or put into them can be refused.  Every other call is refused by a program
that performs no operation, whatever the slots hold.
-/

namespace SealedLua

namespace Slot

variable (s : Slot)

def HoldsBuffer : Prop := ∃ data, s.asBuffer = .ok data

def HoldsValue : Prop := ∃ words, s.asValue = .ok words

def TakesBuffer : Prop := ∀ data, ∃ t, s.withBuffer data = .ok t

def TakesValue : Prop := ∀ words, ∃ t, s.withValue words = .ok t

end Slot

/-- Every slot that a command reads can be read, and every slot that it puts a
result into takes any result. -/
def Command.Accessible (slots : Slots) : Command → Prop
  | .runInline =>
    (slots.p.HoldsBuffer ∧ slots.r.HoldsValue ∧ slots.q.HoldsValue ∧ slots.s.HoldsBuffer) ∧
      slots.q.TakesValue ∧ slots.s.TakesBuffer
  | .runSaved =>
    (slots.p.HoldsBuffer ∧ slots.q.HoldsValue ∧ slots.s.HoldsBuffer) ∧
      slots.q.TakesValue ∧ slots.s.TakesBuffer
  | .save => slots.p.HoldsBuffer ∧ slots.q.HoldsBuffer ∧ slots.r.HoldsValue

theorem RunSlots.accessible (x : RunSlots) :
    Command.runInline.Accessible x.slots ∧ Command.runSaved.Accessible x.slots := by
  have writes : x.slots.q.TakesValue ∧ x.slots.s.TakesBuffer :=
    ⟨fun words => ⟨.value .inout words, rfl⟩, fun data => ⟨.buffer .inout data, rfl⟩⟩
  exact ⟨⟨⟨⟨_, rfl⟩, ⟨_, rfl⟩, ⟨_, rfl⟩, ⟨_, rfl⟩⟩, writes⟩, ⟨⟨_, rfl⟩, ⟨_, rfl⟩, ⟨_, rfl⟩⟩, writes⟩

/-- The slots that the command that saves comes with. -/
structure SaveSlots where
  name : ByteArray
  script : ByteArray
  mode : Words

namespace SaveSlots

def slots (x : SaveSlots) : Slots :=
  ⟨.buffer .input x.name, .buffer .input x.script, .value .input x.mode, .none⟩

theorem accessible (x : SaveSlots) : Command.save.Accessible x.slots :=
  ⟨⟨_, rfl⟩, ⟨_, rfl⟩, ⟨_, rfl⟩⟩

theorem exists_eq_slots {slots : Slots} (h : slots.types = Command.save.signature) :
    ∃ x : SaveSlots, slots = x.slots := by
  obtain ⟨p, q, r, s⟩ := slots
  cases p <;> cases q <;> cases r <;> cases s <;>
    simp [Slots.types, Slot.type, Command.signature] at h
  case buffer.buffer.value.none _ name _ script _ mode =>
    obtain ⟨rfl, rfl, rfl⟩ := h
    exact ⟨⟨name, script, mode⟩, rfl⟩

end SaveSlots

/-- A command together with what its slots hold. -/
inductive Request where
  | runInline (x : RunSlots)
  | runSaved (x : RunSlots)
  | save (x : SaveSlots)

namespace Request

def command : Request → Command
  | .runInline _ => .runInline
  | .runSaved _ => .runSaved
  | .save _ => .save

def slots : Request → Slots
  | .runInline x | .runSaved x => x.slots
  | .save x => x.slots

theorem types_slots (r : Request) : r.slots.types = r.command.signature := by
  cases r <;> rfl

theorem accessible (r : Request) : r.command.Accessible r.slots := by
  cases r with
  | runInline x => exact x.accessible.1
  | runSaved x => exact x.accessible.2
  | save x => exact x.accessible

theorem exists_of_types {c : Command} {slots : Slots} (h : slots.types = c.signature) :
    ∃ r : Request, r.command = c ∧ r.slots = slots := by
  cases c with
  | runInline =>
    obtain ⟨x, rfl⟩ := RunSlots.exists_eq_slots h
    exact ⟨.runInline x, rfl, rfl⟩
  | runSaved =>
    obtain ⟨x, rfl⟩ := RunSlots.exists_eq_slots h
    exact ⟨.runSaved x, rfl, rfl⟩
  | save =>
    obtain ⟨x, rfl⟩ := SaveSlots.exists_eq_slots h
    exact ⟨.save x, rfl, rfl⟩

end Request

namespace Gateway

/-- The argument of a run. -/
def argument (g : Gateway) (x : RunSlots) : Except GatewayError Parcel :=
  (Parcel.ofSlots ⟨x.words.a, x.words.b, x.buffer⟩ g.capacity).mapError .ofEngine

/-- The end of a run: its result where a caller finds it, or the failure.  Only a
result that is too long is refused here. -/
def conclude (g : Gateway) (x : RunSlots) : Except GatewayError Parcel →
    Except GatewayError Unit × RunSlots
  | .error e => (.error e, x)
  | .ok result =>
    match result.toSlots g.capacity with
    | .error e => (.error (.ofEngine e), x)
    | .ok y => (.ok (), { x with words := ⟨y.tag, y.number⟩, buffer := y.buffer })

def runRequest (g : Gateway) (fuel : Nat) (x : RunSlots) (isSaved : Bool) : Work Parcel := do
  let argument ← Work.ofExcept (g.argument x)
  if isSaved then g.runSaved fuel x.script argument
  else g.runInline fuel x.script (x.mode.a != 0) argument

/-- Carries out a request.  No slot is read any more. -/
def carryOut (g : Gateway) (fuel : Nat) :
    Request → OptionT (Program platformInterface) (Except GatewayError Unit × Slots)
  | .runInline x => do
    let ended ← (g.runRequest fuel x false).run
    return ((g.conclude x ended).1, (g.conclude x ended).2.slots)
  | .runSaved x => do
    let ended ← (g.runRequest fuel x true).run
    return ((g.conclude x ended).1, (g.conclude x ended).2.slots)
  | .save x => do
    let ended ← (g.save x.name x.script (x.mode.a != 0)).run
    return (ended, x.slots)

theorem finish_slots (g : Gateway) (x : RunSlots) (ended : Except GatewayError Parcel) :
    g.finish x.slots ended = ((g.conclude x ended).1, (g.conclude x ended).2.slots) := by
  cases ended with
  | error e => rfl
  | ok result =>
    unfold finish conclude writeResult
    cases h : result.toSlots g.capacity <;> simp only [h] <;> rfl

/-- A command on slots that hold a request carries out the request. -/
theorem dispatch_request (g : Gateway) (fuel : Nat) (r : Request) :
    g.dispatch fuel r.command.id r.slots = g.carryOut fuel r := by
  have checked : (do let c ← Command.ofId r.command.id; c.checkSignature r.slots; pure c :
      Except GatewayError Command) = .ok r.command := by
    rw [Command.ofId_id]
    simp only [bind, Except.bind, Command.checkSignature, if_pos r.types_slots]
    rfl
  unfold dispatch
  rw [checked]
  cases r with
  | runInline x =>
    simp only [Request.command, Request.slots, finish_slots]
    rfl
  | runSaved x =>
    simp only [Request.command, Request.slots, finish_slots]
    rfl
  | save x => rfl

/-- A call that comes to an end with what its slots then hold. -/
def concluded (g : Gateway) (x : RunSlots) (ended : Except GatewayError Parcel) :
    Except GatewayError Unit × Slots :=
  ((g.conclude x ended).1, (g.conclude x ended).2.slots)

/-- The request to run a script that comes with the call, or that was saved. -/
def runOf (x : RunSlots) (isSaved : Bool) : Request := if isSaved then .runSaved x else .runInline x

theorem carryOut_runOf (g : Gateway) (fuel : Nat) (x : RunSlots) (isSaved : Bool) :
    (g.carryOut fuel (runOf x isSaved)).run =
      (g.runRequest fuel x isSaved).run.run.bind fun ended =>
        .done (ended.map (g.concluded x)) := by
  cases isSaved with
  | false => exact Program.map_run _ (g.concluded x)
  | true => exact Program.map_run _ (g.concluded x)

theorem dispatch_unknown (g : Gateway) (fuel : Nat) {id : UInt32} (slots : Slots)
    (h : ∀ c : Command, id ≠ c.id) :
    g.dispatch fuel id slots =
      pure (.error (.badParameters ("unknown command id " ++ toString id)), slots) := by
  have first : id ≠ 1 := h .runInline
  have second : id ≠ 2 := h .runSaved
  have third : id ≠ 3 := h .save
  unfold dispatch Command.ofId
  rw [if_neg first, if_neg second, if_neg third]
  rfl

theorem dispatch_mismatch (g : Gateway) (fuel : Nat) (c : Command) {slots : Slots}
    (h : slots.types ≠ c.signature) :
    g.dispatch fuel c.id slots = pure (.error (.badParameters (c.name ++ " expects slots " ++
      SlotType.listed c.signature ++ ", found " ++ SlotType.listed slots.types)), slots) := by
  unfold dispatch
  rw [Command.ofId_id]
  simp only [bind, Except.bind, Command.checkSignature, if_neg h]

/-- A call is checked before anything else.  If its number is no command's, or
its slots are not of the command's types, the call is refused by a program that
performs no operation and leaves the slots.  Otherwise no access to a slot
fails, neither a read nor a write: the slots hold a request, and what is done
with it does not go through slots. -/
theorem calls_are_checked_first (g : Gateway) (fuel : Nat) (id : UInt32) (slots : Slots) :
    ((∀ c : Command, id = c.id → slots.types ≠ c.signature) →
        ∃ reason, g.dispatch fuel id slots = pure (.error (.badParameters reason), slots)) ∧
      ∀ c : Command, id = c.id → slots.types = c.signature →
        c.Accessible slots ∧
          ∃ r : Request, r.command = c ∧ r.slots = slots ∧
            g.dispatch fuel id slots = g.carryOut fuel r := by
  refine ⟨fun h => ?_, ?_⟩
  · by_cases known : ∃ c : Command, id = c.id
    · obtain ⟨c, rfl⟩ := known
      exact ⟨_, g.dispatch_mismatch fuel c (h c rfl)⟩
    · exact ⟨_, g.dispatch_unknown fuel slots fun c heq => known ⟨c, heq⟩⟩
  · rintro c rfl htypes
    obtain ⟨r, rfl, rfl⟩ := Request.exists_of_types htypes
    exact ⟨r.accessible, r, rfl, rfl, g.dispatch_request fuel r⟩

end Gateway
end SealedLua
