import SealedLua.Lua.Heap

/-!
# Computations that call

A running function is a `Step`: it is finished, has raised an error, or waits
for a call, a protected call, or a task, and says how it goes on from the
answer.  Steps never call a function themselves, so each is a finite tree; what
may run for ever (recursion, loops) happens between steps, in the machine that
answers them.

An `Action` is a step that depends on the heap.  Actions are a monad, and its
laws hold as equations.
-/

namespace SealedLua.Lua

/-- A line of a chunk. -/
structure Position where
  chunk : ByteArray
  line : Nat
deriving DecidableEq

/-- Where a call is made: in a chunk, or by a built-in function. -/
structure Site where
  position : Option Position
  /-- How the place names the function that is called. -/
  naming : Option Naming
deriving DecidableEq

namespace Site

/-- A call made by a built-in function. -/
def native : Site := ⟨none, none⟩

end Site

structure Call where
  callee : Value
  args : List Value
  site : Site
deriving DecidableEq

/-- What a function body can see: the variables in scope, the extra arguments
of the function, and the name of its chunk. -/
structure Env where
  scope : List CellId
  varargs : List Value
  chunk : ByteArray

namespace Env

def push (env : Env) (cell : CellId) : Env := { env with scope := cell :: env.scope }

/-- Ends the scope of all variables but the `depth` outermost. -/
def restore (env : Env) (depth : Nat) : Env :=
  { env with scope := env.scope.drop (env.scope.length - depth) }

def position (env : Env) (line : Nat) : Position := ⟨env.chunk, line⟩

def cell (env : Env) (v : Variable) : CellId := env.scope[v.index]?.getD 0

end Env

/-- Work that a function body hands to the machine because it may take any
number of rounds or has to be cleaned up after. -/
inductive Task where
  | whileLoop (condition : Expr) (body : List Stmt) (env : Env)
  | repeatLoop (body : List Stmt) (env : Env)
  /-- A loop over integers with `more` rounds to come after the next. -/
  | countLoop (next : Int64) (more : Nat) (step : Int64) (body : List Stmt) (env : Env)
  | scaleLoop (next limit step : Double) (body : List Stmt) (env : Env)
  | eachLoop (iterator state control : Value) (count : Nat) (body : List Stmt)
    (line : Nat) (env : Env)
  /-- The statements `rest` of a block with labels whose statements are `all`. -/
  | labelled (all rest : List Stmt) (env : Env)
  /-- Statements after which a value is closed. -/
  | closing (value : Value) (line : Nat) (rest : List Stmt) (env : Env)
  /-- A generic loop after which its closing value is closed. -/
  | closingLoop (value iterator state control : Value) (count : Nat) (body : List Stmt)
    (line : Nat) (env : Env)

/-- How a statement ends. -/
inductive Flow where
  | next (env : Env)
  | leave
  | goto (label : ByteArray) (env : Env)
  | ret (values : List Value)
  /-- The function returns what this call returns. -/
  | tail (call : Call)
  /-- The task is not finished and goes on as this one. -/
  | again (task : Task)

inductive Step (α : Type) where
  | done (value : α) (heap : Heap)
  | raise (error : Value) (heap : Heap)
  | call (request : Call) (heap : Heap) (k : List Value → Heap → Step α)
  /-- A call whose error comes back as an answer.  A handler sees the error
  first and answers in its place. -/
  | protect (request : Call) (handler : Option Value) (heap : Heap)
    (k : Except Value (List Value) → Heap → Step α)
  | run (task : Task) (heap : Heap) (k : Flow → Heap → Step α)

namespace Step

variable {α β γ : Type}

def bind : Step α → (α → Heap → Step β) → Step β
  | .done a h, f => f a h
  | .raise e h, _ => .raise e h
  | .call r h k, f => .call r h fun vs h => (k vs h).bind f
  | .protect r handler h k, f => .protect r handler h fun vs h => (k vs h).bind f
  | .run t h k, f => .run t h fun flow h => (k flow h).bind f

@[simp] theorem bind_done (x : Step α) : x.bind .done = x := by
  induction x with
  | done => rfl
  | raise => rfl
  | call r h k ih => simp [bind, ih]
  | protect r handler h k ih => simp [bind, ih]
  | run t h k ih => simp [bind, ih]

theorem bind_assoc (x : Step α) (f : α → Heap → Step β) (g : β → Heap → Step γ) :
    (x.bind f).bind g = x.bind fun a h => (f a h).bind g := by
  induction x with
  | done => rfl
  | raise => rfl
  | call r h k ih => simp [bind, ih]
  | protect r handler h k ih => simp [bind, ih]
  | run t h k ih => simp [bind, ih]

end Step

def Action (α : Type) : Type := Heap → Step α

namespace Action

variable {α β γ : Type}

instance : Monad Action where
  pure a := fun h => .done a h
  bind x f := fun h => (x h).bind fun a h => f a h

instance : Inhabited (Action α) := ⟨fun h => .raise .nil h⟩

theorem bind_eq (x : Action α) (f : α → Action β) (h : Heap) :
    (x >>= f) h = (x h).bind fun a h => f a h := rfl

@[simp] theorem pure_apply (a : α) (h : Heap) : (Pure.pure a : Action α) h = .done a h := rfl

instance : LawfulMonad Action :=
  LawfulMonad.mk' Action (fun x => funext fun h => Step.bind_done (x h)) (fun _ _ => rfl)
    (fun x f g => funext fun h => Step.bind_assoc (x h) (fun a h => f a h) (fun b h => g b h))

def raise (error : Value) : Action α := fun h => .raise error h

def get : Action Heap := fun h => .done h h

def gets (f : Heap → α) : Action α := fun h => .done (f h) h

def modifyGet (f : Heap → α × Heap) : Action α := fun h => let (a, h) := f h; .done a h

def modify (f : Heap → Heap) : Action Unit := fun h => .done () (f h)

/-- Calls a function and gives all its results. -/
def call (callee : Value) (args : List Value) (site : Site) : Action (List Value) :=
  fun h => .call ⟨callee, args, site⟩ h .done

def call₁ (callee : Value) (args : List Value) (site : Site) : Action Value :=
  fun h => .call ⟨callee, args, site⟩ h fun vs h => .done (vs.headD .nil) h

def protect (callee : Value) (args : List Value) (site : Site) (handler : Option Value) :
    Action (Except Value (List Value)) :=
  fun h => .protect ⟨callee, args, site⟩ handler h .done

def run (task : Task) : Action Flow := fun h => .run task h .done

def newCell (v : Value) : Action CellId := modifyGet (·.newCell v)

def newTable (t : Table) : Action Value := modifyGet fun h =>
  let (id, h) := h.newTable t; (.table id, h)

/-- Raises a message, with the place where the error happened in front of it if
that is in a chunk. -/
def fail (here : Option Position) (message : ByteArray) : Action α :=
  raise (.string (place here ++ message))
where
  /-- A place as it stands in front of messages. -/
  place : Option Position → ByteArray
    | some p => p.chunk ++ bytes (ascii ":" ++ Ascii.numeral 10 p.line ++ ascii ": ")
    | none => bytes []

end Action
end SealedLua.Lua
