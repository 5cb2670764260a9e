import SealedLua.Proofs.Confinement.Interpreters
import SealedLua.Proofs.Engine.Evaluations

/-!
# Interpreters stay in their circumstances

Nothing that runs in an interpreter changes the circumstances it was made in, so
what is done after a program starts at the same depth as the program did.
-/

namespace SealedLua

open Lua

def Lua.Confinement.within (circumstances : Circumstances) : Confinement where
  free _ := True
  cells _ := none
  closures _ := none
  admits := (· = circumstances)
  data _ := trivial
  matcher _ := trivial
  made _ := trivial
  next := trivial
  ipairsNext := trivial
  codesNext _ := trivial
  firstCell := rfl

theorem Lua.Confinement.holds_within {h : Heap} (there : Heap.globals < h.tables.size) :
    (within h.circumstances).Holds h where
  kept := nofun
  cells _ _ := trivial
  keptClosures := nofun
  closures _ _ := fun _ _ => rfl
  tables _ := fun _ _ => ⟨trivial, trivial⟩
  globals := there
  circumstances := rfl

variable {Q α β : Type} {m : Type → Type} [Monad m] [LawfulMonad m]

namespace Interpreter

variable (i : Interpreter Q) (fuel : Nat)
  (answer : ByteArray → Q → OptionT m (Except String Parcel))

theorem evaluate_stays (there : Heap.globals < i.stack.heap.tables.size) (p : Evaluation Q α) :
    Always (fun r => r.2.heap.circumstances = i.stack.heap.circumstances ∧
      Heap.globals < r.2.heap.tables.size)
      (((Surroundings.mk i.functions answer).evaluate
        ((Surroundings.mk i.functions answer).drive fuel) i.outermost p).run
        i.stack) := by
  have guarded : (Confinement.within i.stack.heap.circumstances).Guarded := fun _ _ => nofun
  have safe : (Confinement.within i.stack.heap.circumstances).SafeStack i.stack :=
    ⟨Confinement.holds_within there, fun _ _ => trivial⟩
  have run :=
    safe.evaluate (fun _ => Confinement.SafeMachine.drive guarded ⟨i.functions, answer⟩ fuel)
    ⟨i.functions, answer⟩ i.outermost p
  exact run.mono fun r left => ⟨left.holds.circumstances, left.holds.globals⟩

theorem evaluate_bind (there : Heap.globals < i.stack.heap.tables.size) (p : Evaluation Q α)
    (f : α → Evaluation Q β) :
    i.evaluate fuel answer (p >>= f) = (do
      let (result, j) ← i.evaluate fuel answer p
      match result with
      | .error e => return (.error e, j)
      | .ok a => j.evaluate fuel answer (f a)) := by
  have parts :=
    (Surroundings.mk i.functions answer).evaluate_bind
    ((Surroundings.mk i.functions answer).drive fuel) i.outermost p f i.stack
  have first := i.evaluate_stays fuel answer there p
  simp only [StateT.run] at parts first
  simp only [Interpreter.evaluate, parts, bind_assoc, pure_bind]
  refine first.bind_eq fun ended left => ?_
  obtain ⟨result, stack⟩ := ended
  cases result with
  | error e => simp only [pure_bind]
  | ok a =>
    have depth : (Interpreter.mk stack i.functions).outermost = i.outermost :=
      congrArg (fun c : Circumstances => Depth.outermost c.callLimit) left.1
    rw [depth]

end Interpreter
end SealedLua
