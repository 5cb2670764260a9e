import SealedLua.Proofs.Confinement.Operations

/-!
# Built-in functions under a confinement

A built-in function gets hold of values through its arguments, the heap and the
functions it calls.  It reads numbers and texts off its arguments; these are data,
and so are the messages with which it fails.
-/

namespace SealedLua.Lua.Confinement

variable (C : Confinement) {α β γ : Type}

namespace SafeAction

variable {C}

theorem finalize (id : TableId) : C.SafeAction (fun _ => True) (Collector.finalize id) := by
  refine (modify fun _ holds => holds.withCollector _).bind fun _ _ =>
    (metamethod _ _).bind fun f callee => ?_
  split
  · exact pure trivial
  · exact (protect callee (by simp) _ (by simp)).bind fun _ _ => pure trivial

theorem finalizeAll (ids : List TableId) :
    C.SafeAction (fun _ => True) (Collector.finalizeAll ids) := by
  induction ids with
  | nil => exact pure trivial
  | cons id ids ih => exact (finalize id).bind fun _ _ => ih

theorem collect (held : List Value) : C.SafeAction (fun _ => True) (Collector.collect held) :=
  (gets (P := fun _ => True) fun _ _ => trivial).bind fun _ _ =>
    (modify fun _ holds => holds.withCollector _).bind fun _ _ =>
      (finalizeAll _).bind fun _ _ => modify fun _ holds => holds.withCollector _

theorem finish : C.SafeAction (fun _ => True) Collector.finish :=
  (gets (P := fun _ => True) fun _ _ => trivial).bind fun _ _ =>
    (modify fun _ holds => holds.withCollector _).bind fun _ _ => finalizeAll _

end SafeAction

/-- A built-in function that keeps to the confinement whatever it can tell about its call. -/
def SafeNative (P : α → Prop) (x : Native α) : Prop := ∀ c, C.SafeAction P (x c)

/-- A built-in function that gives values that scripts may hold for such arguments. -/
def SafeFunction (f : List Value → Native (List Value)) : Prop :=
  ∀ args, C.Frees args → C.SafeNative C.Frees (f args)

variable {C} {P : α → Prop} {Q : β → Prop}

section Arguments

open Native

variable {args : List Value} (h : C.Frees args) (number : Nat)

include h

theorem free_of_given {v : Value} (there : given args number = some v) : C.free v :=
  h v (List.mem_of_getElem? there)

theorem free_arg : C.free (arg args number) := by
  rw [arg]
  cases there : given args number with
  | none => exact C.free_nil
  | some v => exact free_of_given h number there

end Arguments

namespace SafeNative

theorem pure {a : α} (h : P a) : C.SafeNative P (Pure.pure a) := fun _ => .pure h

theorem bind {x : Native α} {f : α → Native β} (hx : C.SafeNative P x)
    (hf : ∀ a, P a → C.SafeNative Q (f a)) :
    C.SafeNative Q (x >>= f) :=
  fun c => (hx c).bind fun a h => hf a h c

theorem bindGet {f : Heap → Native β} (hf : ∀ h, C.Holds h → C.SafeNative Q (f h)) :
    C.SafeNative Q ((Action.get : Native Heap) >>= f) :=
  fun c h holds => hf h holds c h holds

theorem bindRead {f : CallContext → Native β} (hf : ∀ c, C.SafeNative Q (f c)) :
    C.SafeNative Q ((read : Native CallContext) >>= f) :=
  fun c => hf c c

theorem lift {x : Action α} (h : C.SafeAction P x) : C.SafeNative P (x : Native α) := fun _ => h

theorem guarded {p : Prop} [Decidable p] {x : Native Unit} {k : Unit → Native β}
    (hx : C.SafeNative (fun _ => True) x) (hk : ∀ u, C.SafeNative Q (k u)) :
    C.SafeNative Q (if p then x >>= k else k ()) := by
  split
  · exact hx.bind fun u _ => hk u
  · exact hk ()

theorem ite {p : Prop} [Decidable p] {x y : Native α} (yes : p → C.SafeNative P x)
    (no : ¬p → C.SafeNative P y) :
    C.SafeNative P (if p then x else y) := by
  split
  · next h => exact yes h
  · next h => exact no h

theorem forM {l : List γ} {f : γ → Native Unit}
    (each : ∀ c ∈ l, C.SafeNative (fun _ => True) (f c)) :
    C.SafeNative (fun _ => True) (l.forM f) := by
  induction l with
  | nil => exact pure trivial
  | cons c l ih => exact (each c (.head _)).bind fun _ _ => ih fun d mem => each d (.tail _ mem)

theorem mapM {l : List γ} {f : γ → Native α} (each : ∀ c ∈ l, C.SafeNative P (f c)) :
    C.SafeNative (fun as => ∀ a ∈ as, P a) (l.mapM f) := by
  induction l with
  | nil => exact pure fun _ => nofun
  | cons c l ih =>
    rw [List.mapM_cons]
    refine (each c (.head _)).bind fun a first =>
      (ih fun d mem => each d (.tail _ mem)).bind fun as rest => ?_
    exact pure (List.forall_mem_cons.2 ⟨first, rest⟩)

theorem raise {e : Value} (free : C.free e) : C.SafeNative P (Action.raise e : Native α) :=
  lift (.raise free)

theorem place (level : Nat) : C.SafeNative (fun _ => True) (Native.place level) :=
  fun _ => .pure trivial

theorem fail (message : ByteArray) : C.SafeNative P (Native.fail message : Native α) :=
  (place 1).bind fun _ _ => raise (C.free_string _)

theorem failText (message : String) : C.SafeNative P (Native.failText message : Native α) := fail _

theorem badArgument (number : Nat) (reason : ByteArray) :
    C.SafeNative P (Native.badArgument number reason : Native α) := by
  refine bindRead fun c => bindGet fun h _ => ?_
  dsimp only
  split
  · split
    · exact fail _
    · exact fail _
  · exact fail _
  · exact fail _

theorem badArgumentText (number : Nat) (reason : String) :
    C.SafeNative P (Native.badArgumentText number reason : Native α) := badArgument _ _

section Arguments

variable {args : List Value} (number : Nat)

theorem wrongType (expected : String) :
    C.SafeNative P (Native.wrongType args number expected : Native α) :=
  bindGet fun _ _ => badArgument _ _

theorem anyArg (h : C.Frees args) : C.SafeNative C.free (Native.anyArg args number) := by
  unfold Native.anyArg
  split
  · next there => exact pure (free_of_given h number there)
  · exact badArgumentText _ _

theorem tableArg : C.SafeNative (fun _ => True) (Native.tableArg args number) := by
  unfold Native.tableArg
  split
  · exact pure trivial
  · exact wrongType _ _

theorem integerArg : C.SafeNative (fun _ => True) (Native.integerArg args number) := by
  unfold Native.integerArg
  dsimp only
  split
  · exact pure trivial
  · split
    · exact badArgumentText _ _
    · exact wrongType _ _

theorem integerArgOr (default : Int64) :
    C.SafeNative (fun _ => True) (Native.integerArgOr args number default) :=
  ite (fun _ => pure trivial) fun _ => integerArg _

theorem numberArg : C.SafeNative (fun _ => True) (Native.numberArg args number) := by
  unfold Native.numberArg
  split
  · exact pure trivial
  · exact wrongType _ _

theorem doubleArg : C.SafeNative (fun _ => True) (Native.doubleArg args number) := by
  refine (numberArg number).bind fun n _ => ?_
  cases n with
  | integer n => exact pure trivial
  | double x => exact pure trivial

theorem doubleArgOr (default : Double) :
    C.SafeNative (fun _ => True) (Native.doubleArgOr args number default) :=
  ite (fun _ => pure trivial) fun _ => doubleArg _

theorem stringArg : C.SafeNative (fun _ => True) (Native.stringArg args number) := by
  unfold Native.stringArg
  split
  · exact pure trivial
  · exact wrongType _ _

theorem stringArgOr (default : ByteArray) :
    C.SafeNative (fun _ => True) (Native.stringArgOr args number default) :=
  ite (fun _ => pure trivial) fun _ => stringArg _

end Arguments

theorem call {f : Value} {args : List Value} (callee : C.free f) (h : C.Frees args) :
    C.SafeNative C.Frees (Native.call f args) := lift (.call callee h _)

theorem call₁ {f : Value} {args : List Value} (callee : C.free f) (h : C.Frees args) :
    C.SafeNative C.free (Native.call₁ f args) := lift (.call₁ callee h _)

theorem lookup {object key : Value} (ho : C.free object) (hk : C.free key) :
    C.SafeNative C.free (Native.lookup object key) := lift (.index none none ho hk)

theorem assign {object key value : Value} (ho : C.free object)
    (hk : C.free key) (hv : C.free value) :
    C.SafeNative (fun _ => True) (Native.assign object key value) :=
  lift (.setIndex none none ho hk hv)

theorem display {v : Value} (free : C.free v) :
    C.SafeNative (fun _ => True) (Native.display v) := by
  refine (lift (.metamethod v (eventKey "tostring"))).bind fun f callee =>
    ite (fun _ => ?_) fun _ => ?_
  · refine (call₁ callee (by simp [free])).bind fun r _ => ?_
    split
    · exact pure trivial
    · exact failText _
  · split
    · exact pure trivial
    · exact pure trivial
    · exact pure trivial
    · split
      · exact pure trivial
      · exact bindGet fun _ _ => pure trivial

end SafeNative
end SealedLua.Lua.Confinement
