import SealedLua.Engine.Interpreter
import SealedLua.Proofs.Always
import SealedLua.Proofs.Confinement.Machines

/-!
# Interpreters under a confinement

Functions of the host see values of scripts on stacks of their own.  They are
started with values that scripts may hold, and whatever they do with them, they
leave such values: they can load chunks, call functions and store globals, and
none of that gets at what is kept.  So machines keep to a confinement for all
functions of the host and all answers to their questions.
-/

namespace SealedLua

open Lua

namespace Lua.Confinement

variable (C : Confinement)

/-- A stack of values that scripts may hold. -/
structure SafeStack (s : Stack) : Prop where
  holds : C.Holds s.heap
  values : C.Frees s.values

def SafeOutcome : Outcome → Prop
  | .finished vs h => C.Frees vs ∧ C.Holds h
  | .raised e h => C.free e ∧ C.Holds h

variable {C} {Q α : Type}

theorem SafeStack.load {s : Stack} (safe : C.SafeStack s) (source : ByteArray) (chunk : String) :
    C.SafeStack (s.load source chunk).2 := by
  obtain ⟨made, holds⟩ := safe.holds.loadChunk source (Chunk.shownName chunk.toUTF8)
    (C.free_table Heap.globals)
  unfold Stack.load
  split
  · exact safe
  · dsimp only
    split
    · exact safe
    · split
      · next f h loaded =>
        rw [loaded] at made holds
        exact ⟨holds, frees_cons.2 ⟨made f rfl, safe.values⟩⟩
      · next e h loaded =>
        rw [loaded] at holds
        exact ⟨holds, safe.values⟩

theorem SafeStack.popAs {s : Stack} (safe : C.SafeStack s) (operation : String)
    (read : Value → Except EngineError α) :
    C.SafeStack (s.popAs operation read).2 := by
  obtain ⟨h, values⟩ := s
  cases values with
  | nil => exact safe
  | cons v rest => exact ⟨safe.holds, (frees_cons.1 safe.values).2⟩

theorem SafeOutcome.afterwards {x : Outcome} (safe : C.SafeOutcome x)
    {below : List Value} (frees : C.Frees below)
    (count : Nat) : C.SafeStack (Stack.afterwards below count x).2 := by
  cases x with
  | finished vs h => exact ⟨safe.2, frees_append (frees_reverse (frees_adjust safe.1 count)) frees⟩
  | raised e h => exact ⟨safe.2, frees⟩

section Running

variable {m : Type → Type} [Monad m] [LawfulMonad m] {run : Machine → OptionT m Outcome}
  (hrun : ∀ machine, C.SafeMachine machine → Always C.SafeOutcome (run machine))

include hrun

section Operations

variable {s : Stack} (safe : C.SafeStack s) (outer : Depth)

include safe

theorem SafeStack.call (args results : Nat) :
    Always (fun r => C.SafeStack r.2) (s.call run outer args results) := by
  unfold Stack.call
  split
  · exact always_pure safe
  · have below := frees_drop safe.values args
    dsimp only
    split
    · exact always_pure ⟨safe.holds, frees_nil⟩
    · next f rest found =>
      rw [found] at below
      obtain ⟨callee, others⟩ := frees_cons.1 below
      split
      · obtain ⟨given, holds⟩ := safe.holds.passAll (frees_reverse (frees_take safe.values args))
        exact (hrun _ (.ofCall outer (.inl callee) given holds)).map fun _ ended =>
          ended.afterwards others results
      · exact always_pure ⟨safe.holds, others⟩

theorem SafeStack.setGlobal (name : String) :
    Always (fun r => C.SafeStack r.2) (s.setGlobal run outer name) := by
  obtain ⟨h, values⟩ := s
  obtain ⟨holds, frees⟩ := safe
  cases values with
  | nil => exact always_pure ⟨holds, frees⟩
  | cons v rest =>
    obtain ⟨free, others⟩ := frees_cons.1 frees
    obtain ⟨free, holds⟩ := holds.pass free
    rw [Stack.setGlobal]
    dsimp only
    split
    · exact always_pure ⟨holds.set _ (C.free_ofText name) free, others⟩
    · have action := SafeAction.setIndex (C := C) none none (C.free_table Heap.globals)
        (C.free_ofText name) free
      exact (hrun _ (.ofAction outer action holds)).map fun _ ended => ended.afterwards others 0

theorem SafeStack.pushText (t : String) :
    Always (fun r => C.SafeStack r.2) (s.pushText run outer t) := by
  have values : C.Frees (.ofText t :: s.values) := frees_cons.2 ⟨C.free_ofText t, safe.values⟩
  unfold Stack.pushText
  split
  · refine (hrun _ (.ofAction outer (SafeAction.collect _) safe.holds)).bind fun o ended => ?_
    cases o with
    | finished vs h => exact always_pure ⟨ended.2, values⟩
    | raised e h => exact always_pure ⟨ended.2, values⟩
  · exact always_pure ⟨safe.holds, values⟩

theorem SafeStack.perform (op : StackOp) :
    Always (fun r => C.SafeStack r.2) (s.perform run outer op) := by
  cases op with
  | load source chunk => exact always_pure (safe.load source chunk)
  | pushInteger n => exact always_pure ⟨safe.holds, frees_cons.2 ⟨C.free_integer n, safe.values⟩⟩
  | pushText text => exact safe.pushText hrun outer text
  | setGlobal name => exact safe.setGlobal hrun outer name
  | call args results => exact safe.call hrun outer args results
  | popInteger => exact always_pure (safe.popAs _ _)
  | popText => exact always_pure (safe.popAs _ _)
  | depth => exact always_pure safe
  | duplicateTop =>
    obtain ⟨h, values⟩ := s
    cases values with
    | nil => exact always_pure safe
    | cons v rest =>
      exact always_pure ⟨safe.holds, frees_cons.2 ⟨(frees_cons.1 safe.values).1, safe.values⟩⟩
  | swap =>
    obtain ⟨h, values⟩ := s
    match values with
    | [] | [_] => exact always_pure safe
    | a :: b :: rest =>
      obtain ⟨ha, others⟩ := frees_cons.1 safe.values
      obtain ⟨hb, hrest⟩ := frees_cons.1 others
      exact always_pure ⟨safe.holds, frees_cons.2 ⟨hb, frees_cons.2 ⟨ha, hrest⟩⟩⟩
  | peekKind =>
    obtain ⟨h, values⟩ := s
    cases values with
    | nil => exact always_pure safe
    | cons v rest => exact always_pure safe

end Operations

theorem SafeStack.evaluate {s : Stack} (safe : C.SafeStack s) (around : Surroundings Q m)
    (outer : Depth) (p : Evaluation Q α) :
    Always (fun r => C.SafeStack r.2) ((around.evaluate run outer p).run s) := by
  unfold Surroundings.evaluate
  generalize p.run = program
  induction program generalizing s with
  | done a => exact always_pure safe
  | perform op k ih =>
    cases op with
    | stack op => exact (safe.perform hrun outer op).bind fun r safe => ih r.1 safe
    | question q =>
      have asked :=
        (always_true (around.answer s.heap.output q)).map (Q := fun r => C.SafeStack r.2)
        (f := fun x => (x, { s with heap := s.heap.flushed })) fun _ _ =>
          ⟨safe.holds.flushed, safe.values⟩
      exact asked.bind fun r safe => ih r.1 safe

end Running

theorem SafeHostCall.goesOn {c : HostCall} (safe : C.SafeHostCall c)
    (ended : Except EngineError Unit) {s : Stack}
    (left : C.SafeStack s) : C.SafeMachine (Surroundings.resume c ended s) := by
  cases ended with
  | ok _ =>
    obtain ⟨given, holds⟩ := left.holds.passAll (frees_reverse left.values)
    exact safe.resume (x := .ok _) given holds
  | error e =>
    exact safe.resume (x := .error _) (C.free_failure _) (left.holds.newFailure e.asFailure)

/-- Whatever the functions of the host do, a machine that keeps to the confinement comes
to results that scripts may hold, on a heap for which it still holds. -/
theorem SafeMachine.drive {m : Type → Type} [Monad m] [LawfulMonad m] (guarded : C.Guarded)
    (around : Surroundings Q m) (fuel : Nat) {machine : Machine} (safe : C.SafeMachine machine) :
    Always C.SafeOutcome (around.drive fuel machine) := by
  induction fuel generalizing machine with
  | zero => exact always_failure
  | succ fuel ih =>
    have moved := safe.next guarded
    rw [Surroundings.drive]
    generalize machine.next = progress at moved ⊢
    cases moved with
    | more safe => exact ih safe
    | finished frees holds => exact always_pure ⟨frees, holds⟩
    | raised free holds => exact always_pure ⟨free, holds⟩
    | waits safe =>
      rename_i c
      dsimp only
      split
      · exact always_pure ⟨C.free_nil, safe.holds⟩
      · next f _ =>
        have frame : C.SafeStack (Surroundings.frame f c) :=
          ⟨safe.holds, frees_reverse (frees_adjust safe.args f.arity)⟩
        exact (frame.evaluate (fun _ safe => ih safe) around c.depth f.body).bind fun r left =>
          ih (safe.goesOn r.1 left)

end Lua.Confinement
end SealedLua
