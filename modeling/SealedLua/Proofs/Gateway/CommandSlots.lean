import SealedLua.Gateway.Session
import SealedLua.Proofs.Engine.Slots
import SealedLua.Proofs.Program

/-!
# What commands do to slots

A command that fails leaves the slots as they were, and so does a command that
saves; a command that runs a script puts the value that was computed where a
reader finds it, and changes nothing else.  The check of a command's types
settles everything about the slots in advance: after it, both changes of a
result are possible.  The platform is arbitrary, and so is the state in which
the command finds it.
-/

namespace SealedLua

open Program (ComesTo comesTo_pure comesTo_bind comesTo_map)

/-- The slots that a command that runs a script comes with. -/
structure RunSlots where
  script : ByteArray
  words : Words
  mode : Words
  buffer : ByteArray

namespace RunSlots

def slots (x : RunSlots) : Slots :=
  ⟨.buffer .input x.script, .value .inout x.words, .value .input x.mode, .buffer .inout x.buffer⟩

@[simp] theorem asBuffer_p (x : RunSlots) : x.slots.p.asBuffer = .ok x.script := rfl

@[simp] theorem asValue_r (x : RunSlots) : x.slots.r.asValue = .ok x.mode := rfl

theorem exists_eq_slots {slots : Slots}
    (h : slots.types = [.buffer .input, .value .inout, .value .input, .buffer .inout]) :
    ∃ x : RunSlots, slots = x.slots := by
  obtain ⟨p, q, r, s⟩ := slots
  cases p <;> cases q <;> cases r <;> cases s <;> simp [Slots.types, Slot.type] at h
  case buffer.value.value.buffer _ script _ words _ mode _ buffer =>
    obtain ⟨rfl, rfl, rfl, rfl⟩ := h
    exact ⟨⟨script, words, mode, buffer⟩, rfl⟩

def withResult (x : RunSlots) (p : Parcel) : RunSlots :=
  { x with words := ⟨p.tag, p.word⟩, buffer := p.content.toUTF8 }

theorem readArgument_slots (g : Gateway) (x : RunSlots) :
    g.readArgument x.slots =
      (Parcel.ofSlots ⟨x.words.a, x.words.b, x.buffer⟩ g.capacity).mapError .ofEngine :=
  rfl

end RunSlots

/-- What the words and the buffer of a parcel are like. -/
structure Parcel.LaidOut (p : Parcel) (capacity : Nat) (words : Words) (buffer : ByteArray) :
    Prop where
  tag : words.a = 0 ∨ words.a = 1 ∨ words.a = 2
  size : buffer.size ≤ capacity
  number : ∀ n, p = .number n → buffer.size = 0
  length : (∀ n, p ≠ .number n) → words.b = UInt64.ofNat buffer.size
  wholeLength : (∀ n, p ≠ .number n) → capacity < 2 ^ 64 → words.b.toNat = buffer.size

theorem Parcel.laidOut {p : Parcel} {capacity : Nat} (h : p.content.toUTF8.size ≤ capacity) :
    p.LaidOut capacity ⟨p.tag, p.word⟩ p.content.toUTF8 := by
  have hlength : (∀ n, p ≠ .number n) → p.word = UInt64.ofNat p.content.toUTF8.size := by
    intro hp
    cases p with
    | number n => exact absurd rfl (hp n)
    | text s => rfl
    | code s => rfl
  refine ⟨p.tag_cases, h, ?_, hlength, ?_⟩
  · rintro n rfl
    rfl
  · intro hp hcapacity
    rw [hlength hp, UInt64.toNat_ofNat_of_lt' (by simp only [UInt64.size]; omega)]

namespace Gateway

/-- The slots `changed` differ from `slots` in a result, which lies in the second
and the fourth and is there to be read. -/
structure Holds (g : Gateway) (slots changed : Slots) (result : Parcel) : Prop where
  script : changed.p = slots.p
  mode : changed.r = slots.r
  types : changed.types = slots.types
  readBack : g.readArgument changed = .ok result
  layout : ∃ words buffer, changed.q.asValue = .ok words ∧ changed.s.asBuffer = .ok buffer ∧
    result.LaidOut g.capacity words buffer

theorem holds_withResult (g : Gateway) (x : RunSlots) {result : Parcel}
    (h : result.content.toUTF8.size ≤ g.capacity) :
    g.Holds x.slots (x.withResult result).slots result := by
  refine ⟨rfl, rfl, rfl, ?_, ⟨_, _, rfl, rfl, Parcel.laidOut h⟩⟩
  rw [RunSlots.readArgument_slots]
  simp only [RunSlots.withResult, Parcel.ofSlots_layout h]
  rfl

theorem writeResult_slots (g : Gateway) (x : RunSlots) (result : Parcel) :
    (∃ e, g.writeResult x.slots result = (.error e, x.slots)) ∨
      (g.writeResult x.slots result = (.ok (), (x.withResult result).slots) ∧
        result.content.toUTF8.size ≤ g.capacity) := by
  unfold writeResult
  cases h : result.toSlots g.capacity with
  | error e => exact .inl ⟨.ofEngine e, rfl⟩
  | ok y =>
    obtain ⟨rfl, hsize⟩ := Parcel.toSlots_eq_ok h
    exact .inr ⟨rfl, hsize⟩

variable {σ : Type} {answer : (op : PlatformOp) → StateM σ op.Answer} {before after : σ}

/-- With these answers, the run that a command asks for gives `result`. -/
inductive Computes (g : Gateway) (fuel : Nat) (slots : Slots)
    (answer : (op : PlatformOp) → StateM σ op.Answer) (before : σ) (result : Parcel) (after : σ) :
    UInt32 → Prop where
  | runInline {script : ByteArray} {mode : Words} {argument : Parcel}
      (script_eq : slots.p.asBuffer = .ok script) (mode_eq : slots.r.asValue = .ok mode)
      (argument_eq : g.readArgument slots = .ok argument)
      (run : ComesTo (I := platformInterface) answer
        (g.runInline fuel script (mode.a != 0) argument).run before (.ok result) after) :
      Computes g fuel slots answer before result after 1
  | runSaved {name : ByteArray} {argument : Parcel} (name_eq : slots.p.asBuffer = .ok name)
      (argument_eq : g.readArgument slots = .ok argument)
      (run : ComesTo (I := platformInterface) answer (g.runSaved fuel name argument).run before
        (.ok result) after) :
      Computes g fuel slots answer before result after 2

def Settles {ε : Type} (g : Gateway) (fuel : Nat) (id : UInt32) (slots : Slots)
    (answer : (op : PlatformOp) → StateM σ op.Answer) (before after : σ) :
    Except ε Unit × Slots → Prop
  | (.error _, changed) => changed = slots
  | (.ok (), changed) =>
    (id = 3 ∧ changed = slots) ∨
      ∃ result, g.Computes fuel slots answer before result after id ∧ g.Holds slots changed result

/-- A run that ended leaves the slots as they were or with its result. -/
theorem settles_finish {g : Gateway} {fuel : Nat} {id : UInt32} {x : RunSlots}
    {ended : Except GatewayError Parcel}
    (h : ∀ result, ended = .ok result → g.Computes fuel x.slots answer before result after id) :
    g.Settles fuel id x.slots answer before after (g.finish x.slots ended) := by
  cases ended with
  | error e => exact rfl
  | ok result =>
    simp only [finish]
    rcases writeResult_slots g x result with ⟨e, hwrite⟩ | ⟨hwrite, hsize⟩
    · rw [hwrite]
      exact rfl
    · rw [hwrite]
      exact .inr ⟨result, h result rfl, holds_withResult g x hsize⟩

/-- With the slots of a run, reading them fails only on the argument. -/
theorem runFromSlots_eq (g : Gateway) (fuel : Nat) (x : RunSlots) :
    g.runFromSlots fuel x.slots =
      (do
        let argument ← Work.ofExcept (g.readArgument x.slots)
        g.runInline fuel x.script (x.mode.a != 0) argument) :=
  rfl

theorem runSavedFromSlots_eq (g : Gateway) (fuel : Nat) (x : RunSlots) :
    g.runSavedFromSlots fuel x.slots =
      (do
        let argument ← Work.ofExcept (g.readArgument x.slots)
        g.runSaved fuel x.script argument) :=
  rfl

theorem comesTo_ofExcept_bind {α β : Type} {a : Except GatewayError α} {f : α → Work β}
    {b : β}
    (h : ComesTo (I := platformInterface) answer (Work.ofExcept a >>= f).run before (.ok b) after) :
    ∃ x, a = .ok x ∧ ComesTo (I := platformInterface) answer (f x).run before (.ok b) after := by
  cases a with
  | error e => cases h
  | ok x => exact ⟨x, rfl, h⟩

/-- The command that is carried out is the one of the number, and has its slots. -/
theorem checked_eq_ok {id : UInt32} {slots : Slots} {c : Command}
    (h : (do
      let c ← Command.ofId id
      c.checkSignature slots
      pure c : Except GatewayError Command) = .ok c) : id = c.id ∧ slots.types = c.signature := by
  cases hid : Command.ofId id with
  | error e =>
    rw [hid] at h
    cases h
  | ok d =>
    rw [hid] at h
    have hd : id = d.id := by
      unfold Command.ofId at hid
      split_ifs at hid with h₁ h₂ h₃ <;> cases hid <;> assumption
    by_cases htypes : slots.types = d.signature
    · simp only [bind, Except.bind, Command.checkSignature, if_pos htypes, pure, Except.pure] at h
      cases h
      exact ⟨hd, htypes⟩
    · simp only [bind, Except.bind, Command.checkSignature, if_neg htypes] at h
      cases h

/-- Dispatching changes slots only by a result that was computed and laid out. -/
theorem dispatch_settles {g : Gateway} {fuel : Nat} {id : UInt32} {slots : Slots}
    {ended : Except GatewayError Unit × Slots}
    (h : ComesTo (I := platformInterface) answer (g.dispatch fuel id slots) before ended after) :
    g.Settles fuel id slots answer before after ended := by
  unfold dispatch at h
  split at h
  case h_1 e _ =>
    obtain ⟨rfl, -⟩ := comesTo_pure.1 h
    exact rfl
  case h_2 hchecked =>
    obtain ⟨hid, -⟩ := checked_eq_ok hchecked
    obtain ⟨saved, -, rfl⟩ := comesTo_map.1 h
    cases saved with
    | error e => exact rfl
    | ok u => exact .inl ⟨hid, rfl⟩
  case h_3 hchecked =>
    obtain ⟨rfl, htypes⟩ := checked_eq_ok hchecked
    obtain ⟨x, rfl⟩ := RunSlots.exists_eq_slots htypes
    obtain ⟨ended, hrun, rfl⟩ := comesTo_map.1 h
    refine settles_finish fun result hresult => ?_
    rw [hresult, runFromSlots_eq] at hrun
    obtain ⟨argument, hargument, hinline⟩ := comesTo_ofExcept_bind hrun
    exact .runInline (x.asBuffer_p) (x.asValue_r) hargument hinline
  case h_4 hchecked =>
    obtain ⟨rfl, htypes⟩ := checked_eq_ok hchecked
    obtain ⟨x, rfl⟩ := RunSlots.exists_eq_slots htypes
    obtain ⟨ended, hrun, rfl⟩ := comesTo_map.1 h
    refine settles_finish fun result hresult => ?_
    rw [hresult, runSavedFromSlots_eq] at hrun
    obtain ⟨argument, hargument, hsaved⟩ := comesTo_ofExcept_bind hrun
    exact .runSaved (x.asBuffer_p) hargument hsaved

/-- A session hands on the slots of a command that succeeds, and its caller's otherwise. -/
theorem invoke_settles {g : Gateway} {fuel : Nat} {id : UInt32} {slots : Slots}
    {ended : Except ErrorCode Unit × Slots}
    (h : ComesTo (I := platformInterface) answer
      (Session.invoke ⟨true⟩ g fuel id slots) before ended
      after) : g.Settles fuel id slots answer before after ended := by
  simp only [Session.invoke, if_true] at h
  obtain ⟨⟨outcome, changed⟩, t, hdispatch, hrest⟩ := comesTo_bind.1 h
  cases outcome with
  | error e =>
    obtain ⟨rfl, -⟩ := comesTo_pure.1 hrest
    exact rfl
  | ok u =>
    obtain ⟨rfl, rfl⟩ := comesTo_pure.1 hrest
    exact dispatch_settles hdispatch

/-- Every command, in an open session or dispatched directly, changes the slots
in one step or not at all: a failure leaves all four as they were, and so does
saving; a run leaves the first, the third and all types, and what is read back
from the others is the value that was computed. -/
theorem commands_settle_slots (g : Gateway) (fuel : Nat) (id : UInt32) (slots : Slots)
    (answer : (op : PlatformOp) → StateM σ op.Answer) (before after : σ) :
    (∀ ended, ComesTo (I := platformInterface) answer (Session.invoke ⟨true⟩ g fuel id slots) before
        ended after → g.Settles fuel id slots answer before after ended) ∧
      ∀ ended,
        ComesTo (I := platformInterface) answer (g.dispatch fuel id slots) before ended after →
        g.Settles fuel id slots answer before after ended :=
  ⟨fun _ h => invoke_settles h, fun _ h => dispatch_settles h⟩

end Gateway
end SealedLua
