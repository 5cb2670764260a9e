import SealedLua.Proofs.Confinement.Heaps

/-!
# Steps that keep to a confinement

A computation keeps to a confinement if, from a heap for which it holds, it calls
only what may be called, on values that scripts may hold, ends with or raises such
values, and leaves a heap for which it holds whenever it hands over; and goes on so
from whatever such values and heap it is answered with.  That is stated once for
each way in which computations are put together.
-/

namespace SealedLua.Lua

namespace Confinement

variable (C : Confinement)

/-- What scripts may hold may be called, and so may all basic functions, which keep to
the confinement whoever calls them. -/
def Callable (v : Value) : Prop := C.free v ∨ ∃ b, v = .builtin b

structure SafeCall (r : Call) : Prop where
  callee : C.Callable r.callee
  args : C.Frees r.args

structure SafeEnv (env : Env) : Prop where
  scope : C.Open env.scope
  varargs : C.Frees env.varargs

def SafeTask : Task → Prop
  | .whileLoop _ _ env | .repeatLoop _ env | .countLoop _ _ _ _ env | .scaleLoop _ _ _ _ env
  | .labelled _ _ env => C.SafeEnv env
  | .eachLoop iterator state control _ _ _ env => C.Frees [iterator, state, control] ∧ C.SafeEnv env
  | .closing v _ _ env => C.free v ∧ C.SafeEnv env
  | .closingLoop v iterator state control _ _ _ env =>
    C.Frees [v, iterator, state, control] ∧ C.SafeEnv env

def SafeFlow : Flow → Prop
  | .next env | .goto _ env => C.SafeEnv env
  | .leave => True
  | .ret vs => C.Frees vs
  | .tail r => C.SafeCall r
  | .again t => C.SafeTask t

def SafeEnded : Except Value (List Value) → Prop
  | .ok vs => C.Frees vs
  | .error e => C.free e

variable {α β : Type}

/-- A step that keeps to the confinement, with a result of which `P` holds. -/
inductive SafeStep (P : α → Prop) : Step α → Prop
  | done {a : α} {h : Heap} (result : P a) (holds : C.Holds h) : SafeStep P (.done a h)
  | raise {e : Value} {h : Heap} (free : C.free e) (holds : C.Holds h) : SafeStep P (.raise e h)
  | call {r : Call} {h : Heap} {k : List Value → Heap → Step α}
      (safe : C.SafeCall r) (holds : C.Holds h)
      (rest : ∀ vs h, C.Frees vs → C.Holds h → SafeStep P (k vs h)) : SafeStep P (.call r h k)
  | protect {r : Call} {handler : Option Value} {h : Heap}
      {k : Except Value (List Value) → Heap → Step α}
      (safe : C.SafeCall r) (handles : ∀ f ∈ handler, C.Callable f) (holds : C.Holds h)
      (rest : ∀ x h, C.SafeEnded x → C.Holds h → SafeStep P (k x h)) :
      SafeStep P (.protect r handler h k)
  | run {t : Task} {h : Heap} {k : Flow → Heap → Step α} (safe : C.SafeTask t) (holds : C.Holds h)
      (rest : ∀ flow h, C.SafeFlow flow → C.Holds h → SafeStep P (k flow h)) :
      SafeStep P (.run t h k)

/-- An action that keeps to the confinement on all heaps for which it holds. -/
def SafeAction (P : α → Prop) (x : Action α) : Prop := ∀ h, C.Holds h → C.SafeStep P (x h)

variable {C} {P : α → Prop} {Q : β → Prop}

theorem SafeStep.bind {x : Step α} {f : α → Heap → Step β} (hx : C.SafeStep P x)
    (hf : ∀ a h, P a → C.Holds h → C.SafeStep Q (f a h)) : C.SafeStep Q (x.bind f) := by
  induction hx with
  | done result holds => exact hf _ _ result holds
  | raise free holds => exact .raise free holds
  | call safe holds _ ih => exact .call safe holds ih
  | protect safe handles holds _ ih => exact .protect safe handles holds ih
  | run safe holds _ ih => exact .run safe holds ih

namespace SafeAction

theorem pure {a : α} (h : P a) : C.SafeAction P (Pure.pure a) := fun _ holds => .done h holds

theorem bind {x : Action α} {f : α → Action β} (hx : C.SafeAction P x)
    (hf : ∀ a, P a → C.SafeAction Q (f a)) :
    C.SafeAction Q (x >>= f) :=
  fun h holds => (hx h holds).bind fun a h result holds => hf a result h holds

theorem bindGet {f : Heap → Action β} (hf : ∀ h, C.Holds h → C.SafeAction Q (f h)) :
    C.SafeAction Q (Action.get >>= f) :=
  fun h holds => hf h holds h holds

theorem gets {f : Heap → α} (hf : ∀ h, C.Holds h → P (f h)) : C.SafeAction P (Action.gets f) :=
  fun h holds => .done (hf h holds) holds

theorem modifyGet {f : Heap → α × Heap} (hf : ∀ h, C.Holds h → P (f h).1 ∧ C.Holds (f h).2) :
    C.SafeAction P (Action.modifyGet f) :=
  fun h holds => .done (hf h holds).1 (hf h holds).2

theorem modify {f : Heap → Heap} (hf : ∀ h, C.Holds h → C.Holds (f h)) :
    C.SafeAction (fun _ => True) (Action.modify f) :=
  fun h holds => .done trivial (hf h holds)

theorem raise {e : Value} (free : C.free e) : C.SafeAction P (Action.raise e) :=
  fun _ holds => .raise free holds

theorem fail (here : Option Position) (message : ByteArray) :
    C.SafeAction P (Action.fail here message) :=
  raise (C.free_string _)

theorem call {f : Value} {args : List Value} (callee : C.free f)
    (frees : C.Frees args) (site : Site) :
    C.SafeAction C.Frees (Action.call f args site) :=
  fun _ holds => .call ⟨.inl callee, frees⟩ holds fun _ _ results holds => .done results holds

theorem call₁ {f : Value} {args : List Value} (callee : C.free f)
    (frees : C.Frees args) (site : Site) :
    C.SafeAction C.free (Action.call₁ f args site) :=
  fun _ holds => .call ⟨.inl callee, frees⟩ holds fun _ _ results holds =>
    .done (free_headD results) holds

theorem protect {f : Value} {args : List Value} (callee : C.free f)
    (frees : C.Frees args) (site : Site)
    {handler : Option Value} (handles : ∀ f ∈ handler, C.free f) :
    C.SafeAction C.SafeEnded (Action.protect f args site handler) :=
  fun _ holds => .protect ⟨.inl callee, frees⟩ (fun f mem => .inl (handles f mem)) holds
    fun _ _ ended holds => .done ended holds

theorem run {t : Task} (safe : C.SafeTask t) : C.SafeAction C.SafeFlow (Action.run t) :=
  fun _ holds => .run safe holds fun _ _ flow holds => .done flow holds

theorem newCell {v : Value} (free : C.free v) :
    C.SafeAction (fun id => C.cells id = none) (Action.newCell v) :=
  modifyGet fun _ holds => ⟨holds.newCell_open, holds.newCell free⟩

theorem newTable {t : Table} (safe : C.SafeTable t) : C.SafeAction C.free (Action.newTable t) :=
  modifyGet fun _ holds => ⟨C.free_table _, holds.newTable safe⟩

theorem metamethod (v : Value) (event : ByteArray) :
    C.SafeAction C.free (Action.gets (·.metamethod v event)) :=
  gets fun _ holds => holds.metamethod v event

theorem forM {γ : Type} {l : List γ} {f : γ → Action Unit}
    (each : ∀ c ∈ l, C.SafeAction (fun _ => True) (f c)) :
    C.SafeAction (fun _ => True) (l.forM f) := by
  induction l with
  | nil => exact pure trivial
  | cons c l ih =>
    exact (each c (.head _)).bind fun _ _ => ih fun d mem => each d (.tail _ mem)

end SafeAction
end Confinement
end SealedLua.Lua
