import SealedLua.Lua.Library.Math
import SealedLua.Proofs.Confinement.BasicFunctions

/-!
# The mathematical functions under a confinement

They give numbers, or the best of their arguments; the random numbers change the
state of the generator, which holds no values.
-/

namespace SealedLua.Lua.Confinement

variable {C : Confinement}

theorem free_ofWhole (x : Double) : C.free (Math.ofWhole x) := by
  unfold Math.ofWhole
  split
  · exact C.free_integer _
  · exact C.free_double _

namespace SafeNative

theorem best {better : Value → Value → Action Bool}
    (fair : ∀ v w, C.free v → C.free w → C.SafeAction (fun _ => True) (better v w))
    {ws : List Value} {v : Value}
    (hws : C.Frees ws) (hv : C.free v) : C.SafeNative C.free (Math.best better ws v) := by
  induction ws generalizing v with
  | nil => exact pure hv
  | cons w ws ih =>
    have both := frees_cons.1 hws
    exact (lift (fair v w hv both.1)).bind fun _ _ =>
      ite (fun _ => ih both.2 both.1) fun _ => ih both.2 hv

theorem freshSeed : C.SafeNative (fun _ => True) Math.freshSeed :=
  lift (.modifyGet fun _ holds => ⟨trivial, { holds with }⟩)

theorem plant (a b : UInt64) : C.SafeNative (fun _ => True) (Math.plant a b) :=
  lift (.modify fun _ holds => { holds with })

theorem drawn : C.SafeNative (fun _ => True) Math.drawn := by
  refine (lift (.gets (P := fun _ => True) fun _ _ => trivial)).bind fun unset _ =>
    guarded ?_ fun _ => ?_
  · exact freshSeed.bind fun words _ => plant _ _
  · exact lift (.modifyGet fun _ holds => ⟨trivial, { holds with }⟩)

theorem project (limit : UInt64) (n : Nat) (r : UInt64) :
    C.SafeNative (fun _ => True) (Math.project limit n r) := by
  induction n generalizing r with
  | zero => exact pure trivial
  | succ n ih => exact ite (fun _ => pure trivial) fun _ => drawn.bind fun r _ => ih r

end SafeNative

namespace SafeFunction

open SafeNative hiding pure bind forM mapM call ite

theorem mathAbs : C.SafeFunction Math.abs := by
  intro args h
  unfold Math.abs
  split
  · exact .pure (by simp)
  · exact (doubleArg 1).bind fun _ _ => .pure (by simp)

theorem mathRounded (f : Double → Double) : C.SafeFunction (Math.rounded f) := by
  intro args h
  unfold Math.rounded
  split
  · exact .pure (by simp)
  · exact (doubleArg 1).bind fun _ _ => .pure (by simp [free_ofWhole])

theorem mathUnary (f : Double → Double) : C.SafeFunction (Math.unary f) := fun _ _ =>
  (doubleArg 1).bind fun _ _ => .pure (by simp)

theorem mathAtan : C.SafeFunction Math.atan := fun _ _ =>
  (doubleArg 1).bind fun _ _ => (doubleArgOr 2 _).bind fun _ _ => .pure (by simp)

theorem mathFmod : C.SafeFunction Math.fmod := by
  intro args h
  unfold Math.fmod
  split
  · exact .ite (fun _ => badArgumentText _ _) fun _ => .pure (by simp)
  · exact (doubleArg 1).bind fun _ _ => (doubleArg 2).bind fun _ _ => .pure (by simp)

theorem mathModf : C.SafeFunction Math.modf := by
  intro args h
  unfold Math.modf
  split
  · exact .pure (by simp)
  · exact (doubleArg 1).bind fun _ _ => .pure (by simp)

theorem mathLog : C.SafeFunction Math.log := fun _ _ =>
  (doubleArg 1).bind fun _ _ => .ite (fun _ => .pure (by simp)) fun _ =>
    (doubleArg 2).bind fun _ _ => .pure (by simp)

theorem mathPow : C.SafeFunction Math.pow := fun _ _ =>
  (doubleArg 1).bind fun _ _ => (doubleArg 2).bind fun _ _ => .pure (by simp)

theorem mathFrexp : C.SafeFunction Math.frexp := fun _ _ =>
  (doubleArg 1).bind fun _ _ => .ite (fun _ => .pure (by simp)) fun _ => .pure (by simp)

theorem mathLdexp : C.SafeFunction Math.ldexp := fun _ _ =>
  (doubleArg 1).bind fun _ _ => (integerArg 2).bind fun _ _ =>
    .ite (fun _ => .pure (by simp)) fun _ => .pure (by simp)

theorem mathTointeger : C.SafeFunction Math.tointeger := by
  intro args h
  unfold Math.tointeger
  split
  · exact .pure (by simp)
  · exact (anyArg 1 h).bind fun _ _ => .pure (by simp)

theorem mathType : C.SafeFunction Math.type := by
  intro args h
  refine (anyArg 1 h).bind fun v _ => ?_
  split
  · exact .pure (by simp)
  · exact .pure (by simp)
  · exact .pure (by simp)

theorem mathUlt : C.SafeFunction Math.ult := fun _ _ =>
  (integerArg 1).bind fun _ _ => (integerArg 2).bind fun _ _ => .pure (by simp)

theorem mathExtremum {better : Value → Value → Action Bool}
    (fair : ∀ v w, C.free v → C.free w → C.SafeAction (fun _ => True) (better v w)) :
    C.SafeFunction (Math.extremum better) := by
  intro args h
  refine (SafeNative.forM fun i _ => (numberArg (i + 1)).bind fun _ _ =>
    .pure trivial).bind fun _ _ => ?_
  cases args with
  | nil => exact badArgumentText _ _
  | cons v rest =>
    have both := frees_cons.1 h
    exact one (best fair both.2 both.1)

theorem mathRandom : C.SafeFunction Math.random := by
  intro args h
  refine drawn.bind fun r _ => ?_
  have within : ∀ (low high : Int64) (number : Nat), C.SafeNative C.Frees (do
      if high < low then Native.badArgumentText number "interval is empty"
      else
        let above ← Math.project (high.toUInt64 - low.toUInt64) Math.drawLimit r
        return [.integer (low.toUInt64 + above).toInt64]) := fun low high number =>
    .ite (fun _ => badArgumentText _ _) fun _ => (project _ _ _).bind fun _ _ => .pure (by simp)
  dsimp only
  split
  · exact .pure (by simp)
  · exact (integerArg 1).bind fun high _ => .ite (fun _ => .pure (by simp)) fun _ => within _ _ _
  · exact (integerArg 1).bind fun _ _ => (integerArg 2).bind fun _ _ => within _ _ _
  · exact failText _

theorem mathRandomseed : C.SafeFunction Math.randomseed := by
  intro args h
  have planted : ∀ words : UInt64 × UInt64, C.SafeNative C.Frees (do
      Math.plant words.1 words.2
      return [.integer words.1.toInt64, .integer words.2.toInt64]) := fun words =>
    (plant _ _).bind fun _ _ => .pure (by simp)
  have given : ∀ a : Int64, C.SafeNative C.Frees (do
      let b ← Native.integerArgOr args 2 0
      Math.plant a.toUInt64 b.toUInt64
      return [.integer a.toUInt64.toInt64, .integer b.toUInt64.toInt64]) := fun a =>
    (integerArgOr 2 0).bind fun b _ => planted (a.toUInt64, b.toUInt64)
  refine .ite (fun _ => freshSeed.bind fun words _ => planted words) fun _ =>
    (numberArg 1).bind fun n _ => ?_
  cases n with
  | integer n => exact given _
  | double x => exact given _

end SafeFunction
end SealedLua.Lua.Confinement
