import SealedLua.Engine.Interpreter

/-!
# Interpreters look at no effect

An interpreter runs in any monad, and all that it does with the effects around
it is to put the answers of host functions one after the other.  So whatever
relation between the work of two monads respects results, running out of fuel
and sequences, an interpreter in the one is related to the same interpreter in
the other as soon as the answers are.
-/

namespace SealedLua

open Lua

/-- A relation between the work of two monads that respects how work is put together. -/
structure Correspondence (m n : Type → Type) [Monad m] [Monad n] where
  Rel : {α : Type} → OptionT m α → OptionT n α → Prop
  pure : ∀ {α : Type} (a : α), Rel (pure a) (pure a)
  failure : ∀ {α : Type}, Rel (failure : OptionT m α) failure
  bind : ∀ {α β : Type} {p : OptionT m α} {q : OptionT n α} {f : α → OptionT m β}
    {g : α → OptionT n β},
    Rel p q → (∀ a, Rel (f a) (g a)) → Rel (p >>= f) (q >>= g)

namespace Correspondence

variable {m n : Type → Type} [Monad m] [Monad n] (c : Correspondence m n) {Q α : Type}

section Operations

variable {run : Machine → OptionT m Outcome} {run' : Machine → OptionT n Outcome}

theorem call (hrun : ∀ machine, c.Rel (run machine) (run' machine))
    (outer : Depth) (args results : Nat) (s : Stack) :
    c.Rel (s.call run outer args results) (s.call run' outer args results) := by
  unfold Stack.call
  split
  · exact c.pure _
  · dsimp only
    split
    · exact c.pure _
    · split
      · exact c.bind (hrun _) fun _ => c.pure _
      · exact c.pure _

theorem setGlobal (hrun : ∀ machine, c.Rel (run machine) (run' machine)) (outer : Depth)
    (name : String) (s : Stack) :
    c.Rel (s.setGlobal run outer name) (s.setGlobal run' outer name) := by
  unfold Stack.setGlobal
  split
  · exact c.pure _
  · dsimp only
    split
    · exact c.pure _
    · exact c.bind (hrun _) fun _ => c.pure _

theorem pushText (hrun : ∀ machine, c.Rel (run machine) (run' machine)) (outer : Depth)
    (t : String) (s : Stack) :
    c.Rel (s.pushText run outer t) (s.pushText run' outer t) := by
  unfold Stack.pushText
  dsimp only
  split
  · refine c.bind (hrun _) fun outcome => ?_
    cases outcome <;> exact c.pure _
  · exact c.pure _

theorem perform (hrun : ∀ machine, c.Rel (run machine) (run' machine)) (outer : Depth)
    (s : Stack) (op : StackOp) :
    c.Rel (s.perform run outer op) (s.perform run' outer op) := by
  cases op with
  | setGlobal name => exact c.setGlobal hrun outer name s
  | call args results => exact c.call hrun outer args results s
  | duplicateTop =>
    simp only [Stack.perform]
    split <;> exact c.pure _
  | swap =>
    simp only [Stack.perform]
    split <;> exact c.pure _
  | peekKind =>
    simp only [Stack.perform]
    split <;> exact c.pure _
  | pushText t => exact c.pushText hrun outer t s
  | load | pushInteger | popInteger | popText | depth => exact c.pure _

end Operations

section Surroundings

variable {functions : List (HostFunction Q)}
  {answer : ByteArray → Q → OptionT m (Except String Parcel)}
  {answer' : ByteArray → Q → OptionT n (Except String Parcel)}

/-- Programs on a stack correspond if the machines and the answers do. -/
theorem evaluate (hanswer : ∀ text q, c.Rel (answer text q) (answer' text q))
    {run : Machine → OptionT m Outcome} {run' : Machine → OptionT n Outcome}
    (hrun : ∀ machine, c.Rel (run machine) (run' machine)) (outer : Depth)
    (p : Evaluation Q α) (s : Stack) :
    c.Rel (((Surroundings.mk functions answer).evaluate run outer p).run s)
      (((Surroundings.mk functions answer').evaluate run' outer p).run s) := by
  unfold Surroundings.evaluate
  generalize p.run = program
  induction program generalizing s with
  | done a => exact c.pure _
  | perform op k ih =>
    cases op with
    | stack op => exact c.bind (c.perform hrun outer s op) fun ⟨x, t⟩ => ih x t
    | question q =>
      exact c.bind (c.bind (hanswer s.heap.output q) fun _ => c.pure _) fun ⟨x, t⟩ => ih x t

theorem drive (hanswer : ∀ text q, c.Rel (answer text q) (answer' text q))
    (fuel : Nat) (machine : Machine) :
    c.Rel ((Surroundings.mk functions answer).drive fuel machine)
      ((Surroundings.mk functions answer').drive fuel machine) := by
  induction fuel generalizing machine with
  | zero => exact c.failure
  | succ fuel ih =>
    rw [Surroundings.drive, Surroundings.drive]
    cases machine.next with
    | more machine => exact ih machine
    | finished values heap => exact c.pure _
    | raised e heap => exact c.pure _
    | waits call =>
      cases hfunction : functions[call.host]? with
      | none =>
        simp only [hfunction]
        exact c.pure _
      | some f =>
        simp only [hfunction]
        exact c.bind (c.evaluate hanswer ih _ _ _) fun ended => ih _

theorem interpret (hanswer : ∀ text q, c.Rel (answer text q) (answer' text q)) (i : Interpreter Q)
    (fuel : Nat) (p : Evaluation Q α) :
    c.Rel (i.evaluate fuel answer p) (i.evaluate fuel answer' p) :=
  c.bind (c.evaluate hanswer (c.drive hanswer fuel) i.outermost p i.stack) fun _ => c.pure _

theorem finish (hanswer : ∀ text q, c.Rel (answer text q) (answer' text q))
    (i : Interpreter Q) (fuel : Nat) :
    c.Rel (i.finish fuel answer) (i.finish fuel answer') := by
  unfold Interpreter.finish
  split
  · exact c.pure _
  · refine c.bind (c.drive hanswer fuel _) fun outcome => ?_
    cases outcome <;> exact c.pure _

end Surroundings
end Correspondence
end SealedLua
