import SealedLua.Proofs.Gateway.Nesting
import SealedLua.Proofs.Gateway.Routes

/-!
# The capacity only refuses

The capacity of buffers is looked at twice: when the argument of a run is read
from the slots, and when its result is put there.  With a smaller capacity each
of the two comes out the same or is refused (`Narrows`).  What lies between them
does not depend on the capacity, and so nothing that scripts hand to each other
is held against it.
-/

namespace SealedLua

open Program (Only)

/-- The first result is a refusal for the capacity, or it is the second. -/
inductive Narrows {α ε : Type} (refusal : Nat → ε) (capacity : Nat) :
    Except ε α → Except ε α → Prop where
  | exceeds {size : Nat} (h : capacity < size) (large : Except ε α) : Narrows refusal capacity
    (.error (refusal size)) large
  | same (x : Except ε α) : Narrows refusal capacity x x

theorem Narrows.map {α β ε : Type} {refusal : Nat → ε} {capacity : Nat} {x y : Except ε α}
    (h : Narrows refusal capacity x y) (f : α → β) :
    Narrows refusal capacity (x.map f) (y.map f) := by
  cases h with
  | exceeds h large => exact .exceeds h _
  | same x => exact .same _

theorem Narrows.mapError {α ε ε' : Type} {refusal : Nat → ε} {capacity : Nat} {x y : Except ε α}
    (h : Narrows refusal capacity x y) (f : ε → ε') :
    Narrows (fun size => f (refusal size)) capacity (x.mapError f) (y.mapError f) := by
  cases h with
  | exceeds h large => exact .exceeds h _
  | same x => exact .same _

namespace Parcel

variable {capacity larger : Nat}

theorem readBuffer_narrows (h : capacity ≤ larger) (buffer : ByteArray) :
    Narrows (EngineError.capacity · capacity) capacity (readBuffer buffer capacity)
      (readBuffer buffer larger) := by
  unfold readBuffer
  by_cases hsize : capacity < buffer.size
  · rw [if_pos hsize]
    exact .exceeds hsize _
  · rw [if_neg hsize, if_neg fun hlarger => hsize (Nat.lt_of_le_of_lt h hlarger)]
    exact .same _

/-- The tag is looked at before the size, and the encoding after it. -/
theorem ofSlots_narrows (h : capacity ≤ larger) (s : Slots) :
    Narrows (EngineError.capacity · capacity) capacity (ofSlots s capacity) (ofSlots s larger) := by
  unfold ofSlots
  split
  · exact .same _
  · split
    · exact (readBuffer_narrows h s.buffer).map Parcel.text
    · split
      · exact (readBuffer_narrows h s.buffer).map Parcel.code
      · exact .same _

theorem writeBuffer_narrows (h : capacity ≤ larger) (tag : UInt64) (s : String) :
    Narrows (EngineError.capacity · capacity) capacity (writeBuffer tag s capacity)
      (writeBuffer tag s larger) := by
  unfold writeBuffer
  by_cases hsize : capacity < s.utf8ByteSize
  · simp only [if_pos hsize]
    exact .exceeds hsize _
  · simp only [if_neg hsize, if_neg fun hlarger => hsize (Nat.lt_of_le_of_lt h hlarger)]
    exact .same _

theorem toSlots_narrows (h : capacity ≤ larger) (p : Parcel) :
    Narrows (EngineError.capacity · capacity) capacity (p.toSlots capacity) (p.toSlots larger) := by
  cases p with
  | number n => exact .same _
  | text s => exact writeBuffer_narrows h textTag s
  | code s => exact writeBuffer_narrows h codeTag s

end Parcel

namespace Gateway

variable (g : Gateway)

/-- The gateway with another capacity. -/
def withCapacity (capacity : Nat) : Gateway := { g with capacity := capacity }

theorem loadScript_withCapacity (capacity : Nat) (name : ByteArray) :
    (g.withCapacity capacity).loadScript name = g.loadScript name := rfl

theorem requestedScript_withCapacity (capacity : Nat) (x : RunSlots) (isSaved : Bool) :
    (g.withCapacity capacity).requestedScript x isSaved = g.requestedScript x isSaved := rfl

theorem run_withCapacity (capacity fuel levels : Nat) (script : ByteArray) (argument : Parcel) :
    (g.withCapacity capacity).run fuel levels script argument =
      g.run fuel levels script argument := by
  induction levels generalizing script argument with
  | zero => rfl
  | succ levels ih =>
    simp only [run, loadScript_withCapacity]
    congr 1
    funext printed call
    congr 2
    funext body
    exact ih body call.argument

theorem callAt_withCapacity (capacity fuel depth : Nat) (call : NestedCall) :
    (g.withCapacity capacity).callAt fuel depth call = g.callAt fuel depth call := by
  simp only [callAt, loadScript_withCapacity, run_withCapacity]
  rfl

theorem save_withCapacity (capacity : Nat) (name script : ByteArray) (isSealed : Bool) :
    (g.withCapacity capacity).save name script isSealed = g.save name script isSealed := rfl

variable {capacity larger : Nat}

theorem argument_narrows (h : capacity ≤ larger) (x : RunSlots) :
    Narrows (GatewayError.capacity · capacity) capacity ((g.withCapacity capacity).argument x)
      ((g.withCapacity larger).argument x) :=
  (Parcel.ofSlots_narrows h ⟨x.words.a, x.words.b, x.buffer⟩).mapError GatewayError.ofEngine

/-- An end of a run is put down the same, or it is refused for its length. -/
theorem concluded_narrows (h : capacity ≤ larger) (x : RunSlots)
    (ended : Except GatewayError Parcel) :
    (∃ size, capacity < size ∧
        (g.withCapacity capacity).concluded x ended = (.error (.capacity size capacity), x.slots)) ∨
      (g.withCapacity capacity).concluded x ended = (g.withCapacity larger).concluded x ended := by
  cases ended with
  | error e => exact .inr rfl
  | ok result =>
    have laid := Parcel.toSlots_narrows h result
    simp only [concluded, conclude, withCapacity]
    generalize result.toSlots capacity = small at laid
    generalize result.toSlots larger = large at laid
    cases laid with
    | exceeds hsize large => exact .inl ⟨_, hsize, rfl⟩
    | same laid => exact .inr rfl

/-- A request to run is refused at once for its argument, or it is the same run. -/
theorem runRequest_narrows (h : capacity ≤ larger) (fuel : Nat) (x : RunSlots) (isSaved : Bool) :
    (∃ size, capacity < size ∧
        (g.withCapacity capacity).runRequest fuel x isSaved = throw (.capacity size capacity)) ∨
      (g.withCapacity capacity).runRequest fuel x isSaved =
        (g.withCapacity larger).runRequest fuel x isSaved := by
  have read := g.argument_narrows h x
  simp only [runRequest_eq, requestedScript_withCapacity, run_withCapacity]
  generalize (g.withCapacity capacity).argument x = small at read
  generalize (g.withCapacity larger).argument x = large at read
  cases read with
  | exceeds hsize large => exact .inl ⟨_, hsize, rfl⟩
  | same argument => exact .inr rfl

variable {σ : Type} (answer : (op : PlatformOp) → StateM σ op.Answer)

/-- The end of a command, with its slots, and the platform after it. -/
abbrev outcome (fuel : Nat) (id : UInt32) (slots : Slots) (s : σ) :
    Option (Except GatewayError Unit × Slots) × σ :=
  Platform.ran answer (g.dispatch fuel id slots).run s

/-- How a command that runs a script comes out under two capacities. -/
theorem outcome_run_narrows (h : capacity ≤ larger) (fuel : Nat) (x : RunSlots)
    (isSaved : Bool) (s : σ) :
    let r := runOf x isSaved
    let small := (g.withCapacity capacity).outcome answer fuel r.command.id r.slots s
    (∃ size, capacity < size ∧ small.1 = some (.error (.capacity size capacity), r.slots)) ∨
      small = (g.withCapacity larger).outcome answer fuel r.command.id r.slots s := by
  intro r small
  have slots_eq : r.slots = x.slots := by cases isSaved <;> rfl
  have ended : ∀ capacity, (g.withCapacity capacity).outcome answer fuel r.command.id r.slots s =
      ((Platform.ran answer ((g.withCapacity capacity).runRequest fuel x isSaved).run.run s).1.map
          ((g.withCapacity capacity).concluded x),
        (Platform.ran answer
          ((g.withCapacity capacity).runRequest fuel x isSaved).run.run s).2) := by
    intro capacity
    rw [outcome, dispatch_request, carryOut_runOf, Platform.ran_map]
  simp only [small, ended]
  rw [slots_eq]
  rcases g.runRequest_narrows h fuel x isSaved with ⟨size, hsize, refused⟩ | same
  · rw [refused]
    exact .inl ⟨size, hsize, rfl⟩
  · rw [same]
    cases (Platform.ran answer ((g.withCapacity larger).runRequest fuel x isSaved).run.run s).1 with
    | none => exact .inr rfl
    | some ended =>
      rcases g.concluded_narrows h x ended with ⟨size, hsize, refused⟩ | same
      · exact .inl ⟨size, hsize, congrArg some refused⟩
      · exact .inr (by rw [Option.map_some, Option.map_some, same])

/-- How any call comes out under two capacities.  Only a command that runs a
script is refused for one. -/
theorem outcome_narrows (h : capacity ≤ larger) (fuel : Nat) (id : UInt32) (slots : Slots) (s : σ) :
    (id ≠ Command.save.id ∧ ∃ size, capacity < size ∧
        ((g.withCapacity capacity).outcome answer fuel id slots s).1 =
          some (.error (.capacity size capacity), slots)) ∨
      (g.withCapacity capacity).outcome answer fuel id slots s = (g.withCapacity larger).outcome
        answer fuel id slots s := by
  by_cases known : ∃ c : Command, id = c.id
  · obtain ⟨c, rfl⟩ := known
    by_cases types : slots.types = c.signature
    · obtain ⟨r, rfl, rfl⟩ := Request.exists_of_types types
      have runs : Command.runInline.id ≠ Command.save.id ∧ Command.runSaved.id ≠
        Command.save.id := by decide
      cases r with
      | runInline x => exact (g.outcome_run_narrows answer h fuel x false s).imp_left fun refused =>
        ⟨runs.1, refused⟩
      | runSaved x => exact (g.outcome_run_narrows answer h fuel x true s).imp_left fun refused =>
        ⟨runs.2, refused⟩
      | save x =>
        right
        rw [outcome, outcome, dispatch_request, dispatch_request, carryOut, carryOut,
          save_withCapacity, save_withCapacity]
    · right
      rw [outcome, outcome, dispatch_mismatch _ fuel c types, dispatch_mismatch _ fuel c types]
  · right
    have unknown : ∀ c : Command, id ≠ c.id := fun c heq => known ⟨c, heq⟩
    rw [outcome, outcome, dispatch_unknown _ fuel slots unknown,
      dispatch_unknown _ fuel slots unknown]

/-- The capacity does nothing but refuse.  With a smaller capacity a command
either is refused for a size that exceeds it, and then the slots are as they
were, nothing but reads has been asked of the platform, and storage that works
holds the objects that it held; or it has the outcome that it has with the larger
one: its result, its slots, and the platform with all records.  The work for a
nested call, and the run of a script at any depth, is the same under any two
capacities, so whatever scripts hand to each other is never held against it. -/
theorem capacity_only_refuses (g : Gateway) {capacity larger : Nat} (h : capacity ≤ larger)
    (answer : (op : PlatformOp) → StateM σ op.Answer) (fuel : Nat) (id : UInt32)
    (slots : Slots) (s : σ) :
    let small := (g.withCapacity capacity).outcome answer fuel id slots s
    let large := (g.withCapacity larger).outcome answer fuel id slots s
    ((∃ size, capacity < size ∧ small.1 = some (.error (.capacity size capacity), slots) ∧
          Only Reads ((g.withCapacity capacity).dispatch fuel id slots).run ∧
          ∀ storage : ReliableStorage answer, storage.works s →
            storage.object small.2 = storage.object s) ∨
        small = large) ∧
      ∀ any fuel,
        (∀ depth call, (g.withCapacity any).callAt fuel depth call = g.callAt fuel depth call) ∧
          ∀ levels script argument, (g.withCapacity any).run fuel levels script argument =
            g.run fuel levels script argument := by
  intro small large
  constructor
  · refine (g.outcome_narrows answer h fuel id slots s).imp_left ?_
    rintro ⟨runs, size, exceeds, refused⟩
    have reads := (g.withCapacity capacity).dispatch_only fuel slots runs
    exact ⟨size, exceeds, refused, reads, fun storage works =>
      (reads_keep_objects storage reads works).2⟩
  · intro any fuel
    exact ⟨g.callAt_withCapacity any fuel, g.run_withCapacity any fuel⟩

/-- A text of three bytes is refused under the capacity two, on a host that
keeps its objects in memory. -/
theorem long_argument_is_refused :
    let g : Gateway := { secret := ⟨bytes (List.replicate 32 0), size_bytes _⟩ }
    let host : Host := { process := { root := none } }
    let x : RunSlots := ⟨bytes (ascii "f"), ⟨1, 3⟩, ⟨0, 0⟩, bytes (ascii "abc")⟩
    let small := (g.withCapacity 2).outcome Host.answer 9 2 x.slots host
    2 ≤ 4 ∧ small ≠ (g.withCapacity 4).outcome Host.answer 9 2 x.slots host ∧
      (∃ size, 2 < size ∧ small.1 = some (.error (.capacity size 2), x.slots)) ∧
      Host.reliableStorage.object small.2 = Host.reliableStorage.object host := by
  intro g host x small
  have ordered : 2 ≤ 4 := by decide
  have apart : small ≠ (g.withCapacity 4).outcome Host.answer 9 2 x.slots host := by
    intro same
    have shorter : small.1.map Prod.fst = some (.error (.capacity 3 2)) := rfl
    have longer : ((g.withCapacity 4).outcome Host.answer 9 2 x.slots host).1.map Prod.fst =
        some (.error (.notFound "f")) := by
      decide +kernel
    rw [same, longer] at shorter
    cases shorter
  obtain ⟨narrowed, -⟩ := g.capacity_only_refuses ordered Host.answer 9 2 x.slots host
  obtain ⟨size, exceeds, refused, -, kept⟩ := narrowed.resolve_right apart
  exact ⟨ordered, apart, ⟨size, exceeds, refused⟩, kept Host.reliableStorage ⟨rfl, rfl⟩⟩

end Gateway
end SealedLua
