import SealedLua.Engine.Interpreter
import SealedLua.Proofs.Program

/-!
# Where failures of an interpreter come from

A program over a stack that raises nothing itself fails only as its operations
do, and these fail in three ways: a script failed, a value was missing, or it was
of another kind.  The first that fails ends the program (`Stops`).  So whatever
an observer knows as long as nothing has failed, the observer knows when the
program ends with a result.
-/

namespace SealedLua

open Lua
open Program (Tracks Event tracks_any)

/-- The ways in which operations on a stack fail. -/
inductive EngineError.OfStack : EngineError → Prop
  | script (reason : String) : OfStack (.script reason)
  | underflow (operation : String) (needed found : Nat) :
    OfStack (.underflow operation needed found)
  | wrongKind (expected : String) : OfStack (.wrongKind expected)

/-- What nothing catches is a failure of the script, whatever the error was. -/
theorem EngineError.OfStack.ofRaised (error : Value) : (EngineError.ofRaised error).OfStack := by
  cases error <;> exact .script _

theorem EngineError.OfStack.ofChunk (name : ByteArray) (e : ChunkError) :
    (EngineError.ofChunk name e).OfStack := .script _

variable {Q α β : Type}

/-- Programs that ask nothing, end at the first operation that fails, and fail in no other way. -/
inductive Stops : Program (stackInterface Q) (Except EngineError α) → Prop
  | done (a : α) : Stops (.done (.ok a))
  | perform {op : StackOp} {k : op.Answer → Program (stackInterface Q) (Except EngineError α)}
      (failing : ∀ e, k (.error e) = .done (.error e)) (rest : ∀ x, Stops (k (.ok x))) :
      Stops (Program.perform (I := stackInterface Q) (.stack op) k)

theorem Stops.bind {p : Evaluation Q α} {f : α → Evaluation Q β} (first : Stops p.run)
    (second : ∀ a, Stops (f a).run) :
    Stops (p >>= f).run := by
  have bound : (p >>= f).run = p.run.bind (ExceptT.bindCont f) := rfl
  rw [bound]
  generalize p.run = program at first
  induction first with
  | done a => exact second a
  | perform failing rest ih =>
    refine .perform (fun e => ?_) ih
    rw [failing e]
    rfl

theorem stops_op (op : StackOp) : Stops (Evaluation.op (Q := Q) op).run :=
  .perform (fun _ => rfl) fun x => .done x

theorem stops_encode : Stops (encode (Q := Q)).run := by
  apply (stops_op .peekKind).bind
  intro kind
  cases kind with
  | integer => exact (stops_op .popInteger).bind fun n => .done _
  | text => exact (stops_op .popText).bind fun s => .done _
  | other =>
    apply (stops_op (.load _ _)).bind
    intro _
    apply (stops_op .swap).bind
    intro _
    apply (stops_op (.call 1 1)).bind
    intro _
    exact (stops_op .popText).bind fun s => .done _

theorem stops_decode (p : Parcel) : Stops (decode (Q := Q) p).run := by
  cases p with
  | number n => exact stops_op _
  | text s => exact stops_op _
  | code s => exact (stops_op (.load _ _)).bind fun _ => stops_op _

theorem stops_execute (script : ByteArray) (argument : Parcel) :
    Stops (execute (Q := Q) script argument).run := by
  apply (stops_op (.load script scriptChunk)).bind
  intro _
  apply (stops_decode argument).bind
  intro _
  apply (stops_op .duplicateTop).bind
  intro _
  apply (stops_op (.setGlobal argumentName)).bind
  intro _
  apply (stops_op (.call 1 1)).bind
  intro _
  exact stops_encode

/-- A result together with what is known then, or a failure as of an operation on a stack. -/
inductive Sound (known : Prop) : Except EngineError α → Prop
  | ok (a : α) (h : known) : Sound known (.ok a)
  | error {e : EngineError} (h : e.OfStack) : Sound known (.error e)

namespace Sound

variable {known : Prop} (h : known) (s : Stack)
include h

theorem load (source : ByteArray) (chunk : String) : Sound known (s.load source chunk).1 := by
  unfold Stack.load
  split
  · exact .error (.script _)
  · dsimp only
    split
    · exact .error (.ofChunk _ _)
    · split
      · exact .ok _ h
      · exact .error (.ofChunk _ _)

theorem popInteger : Sound known (s.popAs "pop_integer" Stack.readInteger).1 := by
  unfold Stack.popAs
  split
  · exact .error (.underflow _ _ _)
  · unfold Stack.readInteger
    split
    · exact .ok _ h
    · exact .error (.wrongKind _)

theorem popText : Sound known (s.popAs "pop_text" Stack.readText).1 := by
  unfold Stack.popAs
  split
  · exact .error (.underflow _ _ _)
  · unfold Stack.readText
    split
    · split
      · exact .ok _ h
      · exact .error (.wrongKind _)
    · exact .error (.wrongKind _)

end Sound

section Observed

variable {I : Interface} {ω : Type} {see : ω → Event I → ω} {good : ω → Prop} {w : ω}

/-- The observer of work that ends with a result finds `good` then. -/
def Ended (good : ω → Prop) (ended : Option (Except EngineError α × β)) (w : ω) : Prop :=
  ∀ result ∈ ended, Sound (good w) result.1

/-- The observer of a machine that finishes finds `good` then. -/
def Outcome.Ended (good : ω → Prop) (ended : Option Outcome) (w : ω) : Prop :=
  ∀ values heap, ended = some (.finished values heap) → good w

theorem ended_pure {x : Except EngineError α × β} (h : Sound (good w) x.1) :
    Tracks see (fun _ => True) (Ended good) (pure x : OptionT (Program I) _).run w := by
  refine .done trivial fun result there => ?_
  cases there
  exact h

theorem ended_map {γ : Type} {x : OptionT (Program I) (Except EngineError α × β)} (f : β → γ)
    (h : Tracks see (fun _ => True) (Ended good) x.run w) :
    Tracks see (fun _ => True) (Ended good)
      (do let (result, b) ← x; return (result, f b)).run w := by
  apply Tracks.bindOption h
  · exact fun _ _ _ => nofun
  · intro ended w _ known
    exact ended_pure (known ended rfl)

theorem ended_afterwards {values : List Value} {count : Nat} {x : OptionT (Program I) Outcome}
    (h : Tracks see (fun _ => True) (Outcome.Ended good) x.run w) :
    Tracks see (fun _ => True) (Ended good)
      (do return Stack.afterwards values count (← x)).run w := by
  apply Tracks.bindOption h
  · exact fun _ _ _ => nofun
  · intro outcome w _ known
    cases outcome with
    | finished results heap => exact ended_pure (.ok _ (known results heap rfl))
    | raised error heap => exact ended_pure (.error (.ofRaised error))

variable {run : Machine → OptionT (Program I) Outcome}

/-- An observer of machines keeps what it knew if they finish, and whatever
comes of finalizers. -/
structure Watches (see : ω → Event I → ω) (good : ω → Prop)
    (run : Machine → OptionT (Program I) Outcome) : Prop where
  ended : ∀ machine w, good w → Tracks see (fun _ => True) (Outcome.Ended good) (run machine).run w
  collected : ∀ outer held heap w, good w →
    Tracks see (fun _ => True) (fun _ => good)
    (run (.ofAction outer (Collector.collect held) heap)).run w

theorem ended_pushText (watches : Watches see good run) (outer : Depth) (s : Stack)
    (t : String) (known : good w) :
    Tracks see (fun _ => True) (Ended good) (s.pushText run outer t).run w := by
  unfold Stack.pushText
  split
  · apply Tracks.bindOption (watches.collected _ _ _ _ known)
    · exact fun _ _ _ => nofun
    · intro outcome w _ known
      cases outcome <;> exact ended_pure (.ok _ known)
  · exact ended_pure (.ok _ known)

/-- An operation that succeeds keeps what the observer knew, if the machines that it runs do. -/
theorem ended_perform (watches : Watches see good run) (outer : Depth) (s : Stack)
    (op : StackOp) (known : good w) :
    Tracks see (fun _ => True) (Ended good) (s.perform run outer op).run w := by
  cases op with
  | load source chunk => exact ended_pure (.load known s source chunk)
  | popInteger => exact ended_pure (.popInteger known s)
  | popText => exact ended_pure (.popText known s)
  | pushInteger | depth => exact ended_pure (.ok _ known)
  | pushText t => exact ended_pushText watches outer s t known
  | duplicateTop | peekKind =>
    simp only [Stack.perform]
    split
    · exact ended_pure (.ok _ known)
    · exact ended_pure (.error (.underflow _ _ _))
  | swap =>
    simp only [Stack.perform]
    split
    · exact ended_pure (.ok _ known)
    · exact ended_pure (.error (.underflow _ _ _))
  | setGlobal name =>
    simp only [Stack.perform, Stack.setGlobal]
    split
    · exact ended_pure (.error (.underflow _ _ _))
    · split
      · exact ended_pure (.ok _ known)
      · exact ended_afterwards (watches.ended _ _ known)
  | call args results =>
    simp only [Stack.perform, Stack.call]
    split
    · exact ended_pure (.error (.underflow _ _ _))
    · split
      · exact ended_pure (.error (.underflow _ _ _))
      · split
        · exact ended_afterwards (watches.ended _ _ known)
        · exact ended_pure (.error (.wrongKind _))

theorem Stops.ended {around : Surroundings Q (Program I)} {p : Evaluation Q α} (stops : Stops p.run)
    (watches : Watches see good run) (outer : Depth) (s : Stack) (known : good w) :
    Tracks see (fun _ => True) (Ended good) ((around.evaluate run outer p).run s).run w := by
  unfold Surroundings.evaluate
  generalize p.run = program at stops
  induction stops generalizing s w with
  | done a => exact ended_pure (.ok a known)
  | @perform op k failing rest ih =>
    apply Tracks.bindOption (ended_perform watches outer s op known)
    · exact fun _ _ _ => nofun
    · rintro ⟨x, t⟩ w _ ended
      cases ended _ rfl with
      | ok x known => exact ih x t known
      | error h =>
        rename_i e
        have stopped : k (.error e) = .done (.error e) := failing e
        simp only [stopped]
        exact ended_pure (.error h)

theorem watches_any : Watches see (fun _ => True) run where
  ended machine w _ := (tracks_any see (run machine).run w).mono fun _ _ _ _ _ _ => trivial
  collected outer held heap w _ :=
    (tracks_any see (run (.ofAction outer (Collector.collect held) heap)).run w).mono
    fun _ _ _ => trivial

section Interpreters

variable {i : Interpreter Q} {fuel : Nat}
  {answer : ByteArray → Q → OptionT (Program I) (Except String Parcel)}

theorem Stops.ended_run {p : Evaluation Q α} (stops : Stops p.run)
    (watches : ∀ functions, Watches see good ((Surroundings.mk functions answer).drive fuel))
    (known : good w) :
    Tracks see (fun _ => True) (Ended good) (i.evaluate fuel answer p).run w :=
  ended_map (fun stack => { i with stack := stack })
    (stops.ended (watches i.functions) i.outermost i.stack known)

theorem ended_bind {answer : Q → OptionT (Program I) (Except String Parcel)}
    (name : String) (f : HostFunction Q)
    (watches : ∀ functions,
      Watches see good ((Surroundings.mk functions fun _ => answer).drive fuel)) (known : good w) :
    Tracks see (fun _ => True) (Ended good) (i.bind fuel answer name f).run w := by
  unfold Interpreter.bind
  exact (stops_op (.setGlobal name)).ended_run watches known

end Interpreters
end Observed
end SealedLua
