import SealedLua.Lua.Library.Math
import SealedLua.Proofs.Renaming.Natives

/-!
# The mathematical functions on corresponding heaps

They read numbers and give numbers; only the choice of an extremum compares
values, and only the random numbers depend on the heap, which holds the same
state of the generator as the corresponding one.
-/

namespace SealedLua.Lua.Renaming

variable {ρ : Renaming}

@[simp] theorem value_ofWhole (x : Double) : ρ.value (Math.ofWhole x) = Math.ofWhole x := by
  unfold Math.ofWhole
  split <;> rfl

namespace SameNative

theorem best {better : Value → Value → Action Bool}
    (fair : ∀ v w, ρ.SameAction Eq (better v w) (better (ρ.value v) (ρ.value w)))
    (ws : List Value) (v : Value) :
    ρ.SameNative (Along ρ.value) (Math.best better ws v)
      (Math.best better (ρ.values ws) (ρ.value v)) := by
  induction ws generalizing v with
  | nil => exact pure rfl
  | cons w ws ih => exact (lift (fair v w)).bindEq fun _ => .ite (fun _ => ih w) fun _ => ih v

theorem freshSeed : ρ.SameNative Eq Math.freshSeed Math.freshSeed := by
  refine lift (.modifyGet fun g h s => ⟨?_, { s with seeds := congrArg (· + 1) s.seeds }⟩)
  dsimp only
  rw [s.circumstances, s.seeds]

theorem plant (a b : UInt64) : ρ.SameNative Eq (Math.plant a b) (Math.plant a b) :=
  lift (.modify fun _ _ s => { s with random := rfl })

theorem drawn : ρ.SameNative Eq Math.drawn Math.drawn := by
  have empty : ρ.SameNative Eq (Action.gets (·.randomState.isEmpty) : Native Bool)
      (Action.gets (·.randomState.isEmpty)) :=
    lift (.gets fun g h s => by rw [s.random])
  have draws : ρ.SameNative Eq
      (Action.modifyGet fun h =>
        let drawn := Math.nextRandom h.randomState
        (drawn.1, { h with randomState := drawn.2 }) : Native UInt64)
      (Action.modifyGet fun h =>
        let drawn := Math.nextRandom h.randomState
        (drawn.1, { h with randomState := drawn.2 })) := by
    refine lift (.modifyGet fun g h s => ?_)
    dsimp only
    rw [s.random]
    exact ⟨rfl, { s with random := rfl }⟩
  refine empty.bindEq fun fresh => ?_
  split
  · exact freshSeed.bindEq fun seed => (plant seed.1 seed.2).bindEq fun _ => draws
  · exact draws

theorem project (limit : UInt64) (budget : Nat) (r : UInt64) :
    ρ.SameNative Eq (Math.project limit budget r) (Math.project limit budget r) := by
  induction budget generalizing r with
  | zero => exact pure rfl
  | succ budget ih => exact .ite (fun _ => pure rfl) fun _ => drawn.bindEq ih

end SameNative

namespace SameFunction

open SameNative hiding pure bind forM mapM call

/-- A function of the first argument, with another course for integers. -/
theorem byInteger (args : List Value) {f f' : Int64 → Native (List Value)}
    {x x' : Native (List Value)} (integers : ∀ n, ρ.SameNative (Along ρ.values) (f n) (f' n))
    (others : ρ.SameNative (Along ρ.values) x x') :
    ρ.SameNative (Along ρ.values) (match Native.arg args 1 with
      | .integer n => f n
      | _ => x) (match Native.arg (ρ.values args) 1 with
      | .integer n => f' n
      | _ => x') := by
  rw [arg_values]
  cases Native.arg args 1 with
  | integer n => exact integers n
  | _ => exact others

theorem mathAbs : ρ.SameFunction Math.abs := fun args =>
  byInteger args (fun _ => .pure rfl) ((doubleArg args 1).bindEq fun _ => .pure rfl)

theorem mathRounded (f : Double → Double) : ρ.SameFunction (Math.rounded f) := fun args =>
  byInteger args (fun _ => .pure rfl) ((doubleArg args 1).bindEq fun x =>
    .pure (congrArg (fun v => [v]) (value_ofWhole (f x)).symm))

theorem mathUnary (f : Double → Double) : ρ.SameFunction (Math.unary f) := fun args =>
  (doubleArg args 1).bindEq fun _ => .pure rfl

theorem mathAtan : ρ.SameFunction Math.atan := fun args =>
  (doubleArg args 1).bindEq fun _ => (doubleArgOr args 2 _).bindEq fun _ => .pure rfl

theorem mathFmod : ρ.SameFunction Math.fmod := by
  intro args
  have doubles : ρ.SameNative (Along ρ.values) (do
      let x ← Native.doubleArg args 1
      let y ← Native.doubleArg args 2
      return [.double (x.remainder y)]) (do
      let x ← Native.doubleArg (ρ.values args) 1
      let y ← Native.doubleArg (ρ.values args) 2
      return [.double (x.remainder y)]) :=
    (doubleArg args 1).bindEq fun _ => (doubleArg args 2).bindEq fun _ => .pure rfl
  unfold Math.fmod
  rw [arg_values, arg_values]
  cases Native.arg args 1 with
  | integer a =>
    cases Native.arg args 2 with
    | integer b => exact .ite (fun _ => badArgumentText _ _) fun _ => .pure rfl
    | _ => exact doubles
  | _ => exact doubles

theorem mathModf : ρ.SameFunction Math.modf := fun args =>
  byInteger args (fun _ => .pure rfl) ((doubleArg args 1).bindEq fun _ => .pure rfl)

theorem mathLog : ρ.SameFunction Math.log := by
  intro args
  apply (doubleArg args 1).bindEq
  intro x
  rw [absent_values]
  exact .ite (fun _ => .pure rfl) fun _ => (doubleArg args 2).bindEq fun _ => .pure rfl

theorem mathPow : ρ.SameFunction Math.pow := fun args =>
  (doubleArg args 1).bindEq fun _ => (doubleArg args 2).bindEq fun _ => .pure rfl

theorem mathFrexp : ρ.SameFunction Math.frexp := fun args =>
  (doubleArg args 1).bindEq fun _ => .ite (fun _ => .pure rfl) fun _ => .pure rfl

theorem mathLdexp : ρ.SameFunction Math.ldexp := fun args =>
  (doubleArg args 1).bindEq fun _ => (integerArg args 2).bindEq fun _ =>
    .ite (fun _ => .pure rfl) fun _ => .pure rfl

theorem mathTointeger : ρ.SameFunction Math.tointeger := by
  intro args
  unfold Math.tointeger
  rw [arg_values, coercedInteger?_value]
  split
  · exact .pure rfl
  · exact (anyArg args 1).bindAlong fun _ => .pure rfl

theorem mathType : ρ.SameFunction Math.type := by
  intro args
  apply (anyArg args 1).bindAlong
  intro v
  cases v <;> exact .pure rfl

theorem mathUlt : ρ.SameFunction Math.ult := fun args =>
  (integerArg args 1).bindEq fun _ => (integerArg args 2).bindEq fun _ => .pure rfl

theorem mathExtremum {better : Value → Value → Action Bool}
    (fair : ∀ v w, ρ.SameAction Eq (better v w) (better (ρ.value v) (ρ.value w))) :
    ρ.SameFunction (Math.extremum better) := by
  intro args
  unfold Math.extremum
  rw [List.length_map]
  have numbers : ∀ i, ρ.SameNative Eq (do
      let _ ← Native.numberArg args (i + 1)) (do
      let _ ← Native.numberArg (ρ.values args) (i + 1)) := fun i =>
        (numberArg args (i + 1)).bindEq fun _ => .pure rfl
  apply (SameNative.forM numbers).bindEq
  intro _
  cases args with
  | nil => exact badArgumentText _ _
  | cons v rest => exact (best fair rest v).bindAlong fun _ => .pure rfl

theorem mathRandom : ρ.SameFunction Math.random := by
  intro args
  apply drawn.bindEq
  intro r
  have within : ∀ (low high : Int64) (number : Nat), ρ.SameNative (Along ρ.values)
      (if high < low then Native.badArgumentText number "interval is empty"
      else do
        let above ← Math.project (high.toUInt64 - low.toUInt64) Math.drawLimit r
        return [.integer (low.toUInt64 + above).toInt64])
      (if high < low then Native.badArgumentText number "interval is empty"
      else do
        let above ← Math.project (high.toUInt64 - low.toUInt64) Math.drawLimit r
        return [.integer (low.toUInt64 + above).toInt64]) := fun low high number =>
    .ite (fun _ => badArgumentText _ _) fun _ => (project _ _ r).bindEq fun _ => .pure rfl
  dsimp only
  rw [List.length_map]
  split
  · exact .pure rfl
  · apply (integerArg args 1).bindEq
    intro high
    exact .ite (fun _ => .pure rfl) fun _ => within _ _ _
  · exact (integerArg args 1).bindEq fun _ => (integerArg args 2).bindEq fun _ => within _ _ _
  · exact failText _

theorem mathRandomseed : ρ.SameFunction Math.randomseed := by
  intro args
  have planted : ∀ seed : UInt64 × UInt64, ρ.SameNative (Along ρ.values) (do
      Math.plant seed.1 seed.2
      return [.integer seed.1.toInt64, .integer seed.2.toInt64]) (do
      Math.plant seed.1 seed.2
      return [.integer seed.1.toInt64, .integer seed.2.toInt64]) := fun seed =>
    (plant seed.1 seed.2).bindEq fun _ => .pure rfl
  have given : ∀ a : Int64, ρ.SameNative (Along ρ.values) (do
      let b ← Native.integerArgOr args 2 0
      Math.plant a.toUInt64 b.toUInt64
      return [.integer a.toUInt64.toInt64, .integer b.toUInt64.toInt64]) (do
      let b ← Native.integerArgOr (ρ.values args) 2 0
      Math.plant a.toUInt64 b.toUInt64
      return [.integer a.toUInt64.toInt64, .integer b.toUInt64.toInt64]) := fun a =>
    (integerArgOr args 2 0).bindEq fun b => planted (a.toUInt64, b.toUInt64)
  unfold Math.randomseed
  dsimp only
  rw [List.isEmpty_map]
  apply SameNative.ite
  · exact fun _ => freshSeed.bindEq planted
  · intro _
    apply (numberArg args 1).bindEq
    intro n
    cases n with
    | integer n => exact given _
    | double x => exact given _

end SameFunction
end SealedLua.Lua.Renaming
