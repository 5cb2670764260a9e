import SealedLua.Lua.Library.Base
import SealedLua.Proofs.Renaming.Values

/-!
# Steps on corresponding heaps

A computation does the same on two corresponding heaps: it asks for the same
calls with corresponding arguments, goes on alike from corresponding answers,
and ends alike.  That is stated once for each way in which computations are put
together.
-/

namespace SealedLua.Lua

namespace Renaming

variable (ρ : Renaming)

def closureOf (c : Closure) : Closure := { c with scope := c.scope.map ρ.cell }

/-- A heap that holds what another one holds, and perhaps more.  What was printed may
differ, and how the collector is set, as long as it has nothing to finalize. -/
structure SameHeap (g h : Heap) : Prop where
  cells : Carried ρ.cell (fun v w => w = ρ.value v) g.cells h.cells
  tables : Carried ρ.table ρ.SameTable g.tables h.tables
  closures : Carried ρ.closure (fun c d => d = ρ.closureOf c) g.closures h.closures
  matchers : Carried ρ.matcher (fun m n => n = m) g.matchers h.matchers
  failures (k : Nat) : ρ.failure (g.failures + k) = h.failures + k
  random : h.randomState = g.randomState
  seeds : h.seeds = g.seeds
  circumstances : h.circumstances = g.circumstances
  unmarked : g.collector.marked = []
  unmarked' : h.collector.marked = []

namespace SameHeap

variable {ρ} {g h : Heap} (s : ρ.SameHeap g h)

include s

theorem cell (id : CellId) : h.cell (ρ.cell id) = ρ.value (g.cell id) :=
  s.cells.getD ρ.value_nil.symm id

theorem table (id : TableId) : ρ.SameTable (g.table id) (h.table (ρ.table id)) :=
  s.tables.getD .empty id

theorem closure (id : ClosureId) : h.closure (ρ.closure id) = ρ.closureOf (g.closure id) :=
  s.closures.getD (x := default) (y := default) rfl id

theorem matcher (id : MatcherId) : h.matcher (ρ.matcher id) = g.matcher id := s.matchers.getD rfl id

theorem library {id : TableId} (fixed : id ≤ Heap.stringMetatable) :
    ρ.SameTable (g.table id) (h.table id) := by
  have same := s.table id
  rwa [ρ.library id fixed] at same

theorem get (id : TableId) (key : Value) :
    h.get (ρ.table id) (ρ.value key) = ρ.value (g.get id key) :=
  (s.table id).get key

theorem modifyTable {f f' : Table → Table} (id : TableId)
    (same : ∀ t u, ρ.SameTable t u → ρ.SameTable (f t) (f' u)) :
    ρ.SameHeap { g with tables := g.tables.modify id f }
      { h with tables := h.tables.modify (ρ.table id) f' } :=
  { s with tables := s.tables.modify ρ.table_injective id same }

theorem set (id : TableId) (key v : Value) :
    ρ.SameHeap (g.set id key v) (h.set (ρ.table id) (ρ.value key) (ρ.value v)) :=
  s.modifyTable id fun _ _ same => same.set key v

theorem setCell (id : CellId) (v : Value) :
    ρ.SameHeap (g.setCell id v) (h.setCell (ρ.cell id) (ρ.value v)) :=
  { s with cells := s.cells.set ρ.cell_injective id rfl }

theorem setMatcher (id : MatcherId) (m : Matcher) :
    ρ.SameHeap (g.setMatcher id m) (h.setMatcher (ρ.matcher id) m) :=
  { s with matchers := s.matchers.set ρ.matcher_injective id rfl }

theorem newCell (v : Value) : (h.newCell (ρ.value v)).1 = ρ.cell (g.newCell v).1 ∧
    ρ.SameHeap (g.newCell v).2 (h.newCell (ρ.value v)).2 :=
  ⟨s.cells.place_size.symm, { s with cells := s.cells.push rfl }⟩

theorem newTable {t u : Table} (same : ρ.SameTable t u) :
    (h.newTable u).1 = ρ.table (g.newTable t).1 ∧
    ρ.SameHeap (g.newTable t).2 (h.newTable u).2 :=
  ⟨s.tables.place_size.symm, { s with tables := s.tables.push same }⟩

theorem newClosure (c : Closure) : (h.newClosure (ρ.closureOf c)).1 = ρ.closure (g.newClosure c).1 ∧
    ρ.SameHeap (g.newClosure c).2 (h.newClosure (ρ.closureOf c)).2 :=
  ⟨s.closures.place_size.symm, { s with closures := s.closures.push rfl }⟩

theorem newMatcher (m : Matcher) : (h.newMatcher m).1 = ρ.matcher (g.newMatcher m).1 ∧
    ρ.SameHeap (g.newMatcher m).2 (h.newMatcher m).2 :=
  ⟨s.matchers.place_size.symm, { s with matchers := s.matchers.push rfl }⟩

theorem newFailure (message : String) :
    (h.newFailure message).1 = ρ.value (g.newFailure message).1 ∧
    ρ.SameHeap (g.newFailure message).2 (h.newFailure message).2 := by
  have place : ρ.failure g.failures = h.failures := s.failures 0
  refine ⟨congrArg (fun serial => Value.failure ⟨serial, message⟩) place.symm,
    { s with failures := fun k => ?_ }⟩
  have later := s.failures (1 + k)
  simpa only [Heap.newFailure, Nat.add_assoc] using later

theorem pass (v : Value) : (h.pass (ρ.value v)).1 = ρ.value (g.pass v).1 ∧
    ρ.SameHeap (g.pass v).2 (h.pass (ρ.value v)).2 := by
  cases v with
  | failure e => exact s.newFailure e.message
  | _ => exact ⟨rfl, s⟩

theorem passAll (vs : List Value) : (h.passAll (ρ.values vs)).1 = ρ.values (g.passAll vs).1 ∧
    ρ.SameHeap (g.passAll vs).2 (h.passAll (ρ.values vs)).2 := by
  induction vs generalizing g h with
  | nil => exact ⟨rfl, s⟩
  | cons v rest ih =>
    obtain ⟨first, s'⟩ := s.pass v
    obtain ⟨others, s''⟩ := ih s'
    exact ⟨congrArg₂ List.cons first others, s''⟩

theorem flushed : ρ.SameHeap g.flushed h.flushed :=
  ⟨s.cells, s.tables, s.closures, s.matchers, s.failures, s.random, s.seeds, s.circumstances,
    s.unmarked, s.unmarked'⟩

theorem metatableOf (v : Value) : h.metatableOf (ρ.value v) = (g.metatableOf v).map ρ.table := by
  cases v with
  | table id => exact (s.table id).metatable
  | string b => exact congrArg some (ρ.library _ (Nat.le_refl _)).symm
  | _ => rfl

@[simp] theorem metamethod (v : Value) (event : ByteArray) :
    h.metamethod (ρ.value v) event = ρ.value (g.metamethod v event) := by
  unfold Heap.metamethod
  rw [s.metatableOf]
  cases g.metatableOf v with
  | none => rfl
  | some id => exact s.get id (.string event)

theorem typeName (v : Value) : h.typeName (ρ.value v) = g.typeName v := by
  cases v with
  | table id =>
    have named := s.metamethod (.table id) (bytes (ascii "__name"))
    rw [value_table] at named
    simp only [value_table, Heap.typeName, named]
    cases g.metamethod (.table id) (bytes (ascii "__name")) <;> rfl
  | _ => rfl

theorem loadChunk (source name : ByteArray) (environment : Value) :
    (h.loadChunk source name (ρ.value environment)).1 =
      (g.loadChunk source name environment).1.map ρ.value ∧
      ρ.SameHeap (g.loadChunk source name environment).2
        (h.loadChunk source name (ρ.value environment)).2 := by
  unfold Heap.loadChunk
  cases Chunk.read source with
  | error e => exact ⟨rfl, s⟩
  | ok f =>
    obtain ⟨hcell, s'⟩ := s.newCell environment
    obtain ⟨hclosure, s''⟩ := s'.newClosure ⟨f, [(g.newCell environment).1], name⟩
    have hscope : (⟨f, [(h.newCell (ρ.value environment)).1], name⟩ : Closure) =
        ρ.closureOf ⟨f, [(g.newCell environment).1], name⟩ := by
      rw [hcell]
      rfl
    simp only [hscope]
    exact ⟨congrArg (fun id => Except.ok (Value.closure id)) hclosure, s''⟩

end SameHeap

def call (r : Call) : Call := ⟨ρ.value r.callee, ρ.values r.args, r.site⟩

def env (e : Env) : Env := ⟨e.scope.map ρ.cell, ρ.values e.varargs, e.chunk⟩

@[simp] theorem env_scope (e : Env) : (ρ.env e).scope = e.scope.map ρ.cell := rfl

def task : Task → Task
  | .whileLoop condition body e => .whileLoop condition body (ρ.env e)
  | .repeatLoop body e => .repeatLoop body (ρ.env e)
  | .countLoop next more step body e => .countLoop next more step body (ρ.env e)
  | .scaleLoop next limit step body e => .scaleLoop next limit step body (ρ.env e)
  | .eachLoop iterator state control count body line e =>
    .eachLoop (ρ.value iterator) (ρ.value state) (ρ.value control) count body line (ρ.env e)
  | .labelled all rest e => .labelled all rest (ρ.env e)
  | .closing v line rest e => .closing (ρ.value v) line rest (ρ.env e)
  | .closingLoop v iterator state control count body line e =>
    .closingLoop (ρ.value v) (ρ.value iterator) (ρ.value state) (ρ.value control)
      count body line (ρ.env e)

def flow : Flow → Flow
  | .next e => .next (ρ.env e)
  | .leave => .leave
  | .goto label e => .goto label (ρ.env e)
  | .ret vs => .ret (ρ.values vs)
  | .tail r => .tail (ρ.call r)
  | .again t => .again (ρ.task t)

def caught : Except Value (List Value) → Except Value (List Value)
  | .ok vs => .ok (ρ.values vs)
  | .error e => .error (ρ.value e)

variable {α β : Type}

/-- Two steps that do the same on corresponding heaps, with results that are related by `same`. -/
inductive SameStep (same : α → α → Prop) : Step α → Step α → Prop
  | done {a b : α} {g h : Heap} (results : same a b) (heaps : ρ.SameHeap g h) :
  SameStep same (.done a g) (.done b h)
  | raise {g h : Heap} (e : Value) (heaps : ρ.SameHeap g h) : SameStep same
    (.raise e g) (.raise (ρ.value e) h)
  | call {g h : Heap} {k k' : List Value → Heap → Step α} (r : Call) (heaps : ρ.SameHeap g h)
      (rest : ∀ vs g h, ρ.SameHeap g h → SameStep same (k vs g) (k' (ρ.values vs) h)) :
      SameStep same (.call r g k) (.call (ρ.call r) h k')
  | protect {g h : Heap} {k k' : Except Value (List Value) → Heap → Step α} (r : Call)
      (handler : Option Value)
      (heaps : ρ.SameHeap g h) (rest : ∀ x g h, ρ.SameHeap g h →
        SameStep same (k x g) (k' (ρ.caught x) h)) :
      SameStep same (.protect r handler g k) (.protect (ρ.call r) (handler.map ρ.value) h k')
  | run {g h : Heap} {k k' : Flow → Heap → Step α} (t : Task) (heaps : ρ.SameHeap g h)
      (rest : ∀ f g h, ρ.SameHeap g h → SameStep same (k f g) (k' (ρ.flow f) h)) :
      SameStep same (.run t g k) (.run (ρ.task t) h k')

variable {ρ} {same : α → α → Prop} {same' : β → β → Prop}

theorem SameStep.bind {x y : Step α} {f f' : α → Heap → Step β} (hx : ρ.SameStep same x y)
    (hf : ∀ a b, same a b → ∀ g h, ρ.SameHeap g h → ρ.SameStep same' (f a g) (f' b h)) :
    ρ.SameStep same' (x.bind f) (y.bind f') := by
  induction hx with
  | done results heaps => exact hf _ _ results _ _ heaps
  | raise e heaps => exact .raise e heaps
  | call r heaps _ ih => exact .call r heaps fun vs g h s => ih vs g h s
  | protect r handler heaps _ ih => exact .protect r handler heaps fun x g h s => ih x g h s
  | run t heaps _ ih => exact .run t heaps fun f g h s => ih f g h s

variable (ρ) in
/-- Two actions that do the same on all corresponding heaps. -/
def SameAction (same : α → α → Prop) (x y : Action α) : Prop :=
  ∀ g h, ρ.SameHeap g h → ρ.SameStep same (x g) (y h)

abbrev Along {γ : Type} (f : γ → γ) (a b : γ) : Prop := b = f a

namespace SameAction

theorem pure {a b : α} (h : same a b) : ρ.SameAction same (Pure.pure a) (Pure.pure b) :=
  fun _ _ s => .done h s

theorem bind {x y : Action α} {f f' : α → Action β} (hx : ρ.SameAction same x y)
    (hf : ∀ a b, same a b → ρ.SameAction same' (f a) (f' b)) :
    ρ.SameAction same' (x >>= f) (y >>= f') :=
  fun g h s => (hx g h s).bind hf

theorem bindAlong {x y : Action α} {r : α → α} {f f' : α → Action β}
    (hx : ρ.SameAction (Along r) x y)
    (hf : ∀ a, ρ.SameAction same' (f a) (f' (r a))) : ρ.SameAction same' (x >>= f) (y >>= f') := by
  apply hx.bind
  rintro a _ rfl
  exact hf a

theorem bindEq {x y : Action α} {f f' : α → Action β} (hx : ρ.SameAction Eq x y)
    (hf : ∀ a, ρ.SameAction same' (f a) (f' a)) : ρ.SameAction same' (x >>= f) (y >>= f') := by
  apply hx.bind
  rintro a _ rfl
  exact hf a

theorem bindGet {f f' : Heap → Action β}
    (hf : ∀ g h, ρ.SameHeap g h → ρ.SameAction same' (f g) (f' h)) :
    ρ.SameAction same' (Action.get >>= f) (Action.get >>= f') :=
  fun g h s => hf g h s g h s

theorem gets {f f' : Heap → α} (hf : ∀ g h, ρ.SameHeap g h → same (f g) (f' h)) :
    ρ.SameAction same (Action.gets f) (Action.gets f') :=
  fun g h s => .done (hf g h s) s

theorem modifyGet {f f' : Heap → α × Heap}
    (hf : ∀ g h, ρ.SameHeap g h → same (f g).1 (f' h).1 ∧ ρ.SameHeap (f g).2 (f' h).2) :
    ρ.SameAction same (Action.modifyGet f) (Action.modifyGet f') :=
  fun g h s => .done (hf g h s).1 (hf g h s).2

theorem modify {f f' : Heap → Heap} (hf : ∀ g h, ρ.SameHeap g h → ρ.SameHeap (f g) (f' h)) :
    ρ.SameAction Eq (Action.modify f) (Action.modify f') :=
  fun g h s => .done rfl (hf g h s)

theorem raise (e : Value) : ρ.SameAction same (Action.raise e) (Action.raise (ρ.value e)) :=
  fun _ _ s => .raise e s

theorem fail (here : Option Position) (message : ByteArray) :
    ρ.SameAction same (Action.fail here message) (Action.fail here message) := raise _

theorem call (f : Value) (args : List Value) (site : Site) :
    ρ.SameAction (Along ρ.values) (Action.call f args site)
      (Action.call (ρ.value f) (ρ.values args) site) :=
  fun _ _ s => .call _ s fun _ _ _ s => .done rfl s

theorem call₁ (f : Value) (args : List Value) (site : Site) :
    ρ.SameAction (Along ρ.value) (Action.call₁ f args site)
      (Action.call₁ (ρ.value f) (ρ.values args) site) :=
  fun _ _ s => .call _ s fun vs _ _ s => .done (ρ.headD_values vs) s

theorem protect (f : Value) (args : List Value) (site : Site) (handler : Option Value) :
    ρ.SameAction (Along ρ.caught) (Action.protect f args site handler)
      (Action.protect (ρ.value f) (ρ.values args) site (handler.map ρ.value)) :=
  fun _ _ s => .protect _ _ s fun _ _ _ s => .done rfl s

theorem run (t : Task) : ρ.SameAction (Along ρ.flow) (Action.run t) (Action.run (ρ.task t)) :=
  fun _ _ s => .run t s fun _ _ _ s => .done rfl s

theorem newCell (v : Value) :
    ρ.SameAction (Along ρ.cell) (Action.newCell v) (Action.newCell (ρ.value v)) :=
  modifyGet fun _ _ s => s.newCell v

theorem newTable {t u : Table} (h : ρ.SameTable t u) :
    ρ.SameAction (Along ρ.value) (Action.newTable t) (Action.newTable u) :=
  modifyGet fun _ _ s => ⟨congrArg Value.table (s.newTable h).1, (s.newTable h).2⟩

theorem metamethod (v : Value) (event : ByteArray) :
    ρ.SameAction (Along ρ.value) (Action.gets (·.metamethod v event))
      (Action.gets (·.metamethod (ρ.value v) event)) :=
  gets fun _ _ s => s.metamethod v event

end SameAction
end Renaming
end SealedLua.Lua
