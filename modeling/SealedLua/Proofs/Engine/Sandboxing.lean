import SealedLua.Proofs.Confinement.Sandbox
import SealedLua.Proofs.Engine.Moments

/-!
# What scripts come to hold

At every moment of a run, what scripts can get at is within the confinement that
preparation sets up, and calls of the `load` with which they start are calls of the
base function in the mode for text.
-/

namespace SealedLua

open Lua

namespace Lua

namespace Task

def env : Task → Env
  | .whileLoop _ _ env | .repeatLoop _ env | .countLoop _ _ _ _ env | .scaleLoop _ _ _ _ env
  | .labelled _ _ env | .closing _ _ _ env | .eachLoop _ _ _ _ _ _ env
  | .closingLoop _ _ _ _ _ _ _ env => env

/-- The values that a task works on. -/
def values : Task → List Value
  | .eachLoop iterator state control _ _ _ _ => [iterator, state, control]
  | .closing v _ _ _ => [v]
  | .closingLoop v iterator state control _ _ _ _ => [v, iterator, state, control]
  | .whileLoop _ _ _ | .repeatLoop _ _ | .countLoop _ _ _ _ _ | .scaleLoop _ _ _ _ _
  | .labelled _ _ _ => []

end Task

namespace Flow

def env? : Flow → Option Env
  | .next env | .goto _ env => some env
  | .again t => some t.env
  | .leave | .ret _ | .tail _ => none

def values : Flow → List Value
  | .ret vs => vs
  | .tail r => r.args
  | .again t => t.values
  | .next _ | .goto _ _ | .leave => []

end Flow

namespace Control

def heap : Control → Heap
  | .step (.done _ h) | .step (.raise _ h) | .step (.call _ h _) | .step
    (.protect _ _ h _) | .step (.run _ h _)
  | .invoke _ h | .unwind _ h => h

def env? : Control → Option Env
  | .step (.done flow _) => flow.env?
  | .step (.run t _ _) => some t.env
  | _ => none

/-- Arguments, results and errors that are handed over. -/
def values : Control → List Value
  | .step (.done flow _) => flow.values
  | .step (.raise e _) | .unwind e _ => [e]
  | .step (.call r _ _) | .step (.protect r _ _ _) | .invoke r _ => r.args
  | .step (.run t _ _) => t.values

end Control
end Lua

namespace Moment

def heap : Moment → Heap
  | .host s _ => s.heap
  | .script m _ => m.control.heap

def env? : Moment → Option Env
  | .host _ _ => none
  | .script m _ => m.control.env?

def values : Moment → List Value
  | .host s _ => s.values
  | .script m _ => m.control.values

/-- The `load` with which scripts start. -/
def firstLoad : Value := Interpreter.preparedHeap.get Heap.globals (.ofAscii "load")

/-- The values that scripts can get at: what is handed over, what the running function
sees, keys and values of all tables, metatables among them, and variables, but for those
that no function but the `load` with which scripts start has in its scope. -/
inductive Offers (x : Moment) : Value → Prop
  | shown {v : Value} (mem : v ∈ x.values) : Offers x v
  | extra {env : Env} {v : Value} (runs : env ∈ x.env?) (mem : v ∈ env.varargs) : Offers x v
  | inScope {env : Env} {cell : CellId} (runs : env ∈ x.env?) (mem : cell ∈ env.scope) :
    Offers x (x.heap.cell cell)
  | key {id : TableId} {k : Value} (there : (x.heap.get id k).isNil = false) : Offers x k
  | entry (id : TableId) (k : Value) : Offers x (x.heap.get id k)
  | outer {id : ClosureId} {code : Closure} {cell : CellId}
      (there : x.heap.closures[id]? = some code)
      (other : .closure id ≠ firstLoad) (mem : cell ∈ code.scope) : Offers x (x.heap.cell cell)
  | apart {cell : CellId} (beyond : ∀ id code, .closure id = firstLoad → x.heap.closures[id]? =
      some code → cell ∉ code.scope) :
      Offers x (x.heap.cell cell)

end Moment

namespace Lua.Confinement

open Moment

variable (C : Confinement)

/-- What waits goes on within the confinement. -/
inductive SafeWaiting : Waiting → Prop
  | stack {values : List Value} (results : Nat) (frees : C.Frees values) :
  SafeWaiting (.stack values results)
  | finalizers {values : List Value} (frees : C.Frees values) : SafeWaiting (.finalizers values)
  | script {c : HostCall} (safe : C.SafeHostCall c) : SafeWaiting (.script c)

inductive SafeMoment : Moment → Prop
  | host {s : Stack} {below : List Waiting} (safe : C.SafeStack s)
    (waits : ∀ w ∈ below, C.SafeWaiting w) :
      SafeMoment (.host s below)
  | script {m : Machine} {below : List Waiting} (safe : C.SafeMachine m)
      (waits : ∀ w ∈ below, C.SafeWaiting w) :
      SafeMoment (.script m below)

variable {C}

theorem SafeMachine.outcome (guarded : C.Guarded) {m : Machine} (safe : C.SafeMachine m)
    {o : Outcome} (ends : Moment.Ends m o) :
    C.SafeOutcome o := by
  have moved := safe.next guarded
  cases ends with
  | finished last =>
    rw [last] at moved
    cases moved with
    | finished frees holds => exact ⟨frees, holds⟩
  | raised last =>
    rw [last] at moved
    cases moved with
    | raised free holds => exact ⟨free, holds⟩
  | missing last =>
    rw [last] at moved
    cases moved with
    | waits call => exact ⟨C.free_nil, call.holds⟩

theorem SafeOutcome.heapOf {o : Outcome} (safe : C.SafeOutcome o) : C.Holds (heapOf o) := by
  cases o <;> exact safe.2

variable {limit : Nat}

theorem SafeMoment.next (guarded : C.Guarded) (hosts : ∀ id, C.free (.host id))
    {x y : Moment} (safe : C.SafeMoment x) (step : Next limit x y) : C.SafeMoment y := by
  cases step with
  | performs op direct =>
    cases safe with
    | host stack waits =>
      have idle : ∀ machine, C.SafeMachine machine →
          Always C.SafeOutcome (failure : OptionT Id Outcome) :=
        fun _ _ => always_failure
      exact .host (always_id.1 (stack.perform idle _ op) _ direct) waits
  | binds s below id =>
    cases safe with
    | host stack waits => exact .host ⟨stack.holds, frees_cons.2 ⟨hosts id, stack.values⟩⟩ waits
  | calls below values results =>
    cases safe with
    | host stack waits =>
      obtain ⟨args, others⟩ := List.forall_mem_append.1 (values ▸ stack.values)
      obtain ⟨callee, rest⟩ := frees_cons.1 others
      obtain ⟨given, holds⟩ := stack.holds.passAll fun v mem => args v (List.mem_reverse.2 mem)
      exact .script (.ofCall _ (.inl callee) given holds)
        (List.forall_mem_cons.2 ⟨.stack results rest, waits⟩)
  | stores below values name =>
    cases safe with
    | host stack waits =>
      obtain ⟨free, rest⟩ := frees_cons.1 (values ▸ stack.values)
      obtain ⟨free, holds⟩ := stack.holds.pass free
      have action := SafeAction.setIndex (C := C) none none (C.free_table Heap.globals)
        (C.free_ofText name) free
      exact .script (.ofAction _ action holds) (List.forall_mem_cons.2 ⟨.stack 0 rest, waits⟩)
  | prints s below =>
    cases safe with
    | host stack waits => exact .host ⟨stack.holds.flushed, stack.values⟩ waits
  | collects below t now =>
    cases safe with
    | host stack waits =>
      have made := frees_cons.2 ⟨C.free_ofText t, stack.values⟩
      exact .script (.ofAction _ (SafeAction.collect _) stack.holds)
        (List.forall_mem_cons.2 ⟨.finalizers made, waits⟩)
  | finishes s =>
    cases safe with
    | host stack waits =>
      exact .script (.ofAction _ SafeAction.finish stack.holds)
        (List.forall_mem_cons.2 ⟨.finalizers stack.values, waits⟩)
  | moves below next =>
    cases safe with
    | script machine waits =>
      have moved := machine.next guarded
      rw [next] at moved
      cases moved with
      | more after => exact .script after waits
  | asks below next f =>
    cases safe with
    | script machine waits =>
      have moved := machine.next guarded
      rw [next] at moved
      cases moved with
      | waits call =>
        refine .host ⟨call.holds, frees_reverse (frees_adjust call.args f.arity)⟩ ?_
        exact List.forall_mem_cons.2 ⟨.script call, waits⟩
  | answers s c below ended =>
    cases safe with
    | host stack waits =>
      obtain ⟨first, others⟩ := List.forall_mem_cons.1 waits
      cases first with
      | script call => exact .script (call.goesOn ended stack) others
  | returns ends values results below =>
    cases safe with
    | script machine waits =>
      obtain ⟨first, others⟩ := List.forall_mem_cons.1 waits
      cases first with
      | stack _ frees =>
        exact .host ((machine.outcome guarded ends).afterwards frees results) others
  | collected ends values below =>
    cases safe with
    | script machine waits =>
      obtain ⟨first, others⟩ := List.forall_mem_cons.1 waits
      cases first with
      | finalizers frees => exact .host ⟨(machine.outcome guarded ends).heapOf, frees⟩ others

theorem SafeMoment.leads (guarded : C.Guarded) (hosts : ∀ id, C.free (.host id))
    {x y : Moment} (safe : C.SafeMoment x) (leads : Moment.Leads limit x y) : C.SafeMoment y := by
  induction leads with
  | refl => exact safe
  | tail _ step ih => exact ih.next guarded hosts step

theorem SafeTask.values {t : Task} (safe : C.SafeTask t) : C.Frees t.values := by
  cases t with
  | eachLoop | closingLoop => exact safe.1
  | closing => exact frees_cons.2 ⟨safe.1, frees_nil⟩
  | _ => exact frees_nil

theorem SafeTask.env {t : Task} (safe : C.SafeTask t) : C.SafeEnv t.env := by
  cases t with
  | eachLoop | closingLoop | closing => exact safe.2
  | _ => exact safe

theorem SafeFlow.values {flow : Flow} (safe : C.SafeFlow flow) : C.Frees flow.values := by
  cases flow with
  | ret vs => exact safe
  | tail r => exact safe.args
  | again t => exact SafeTask.values safe
  | _ => exact frees_nil

theorem SafeFlow.env {flow : Flow} (safe : C.SafeFlow flow) : ∀ env ∈ flow.env?, C.SafeEnv env := by
  cases flow with
  | next env | goto _ env =>
    rintro _ ⟨rfl⟩
    exact safe
  | again t =>
    rintro _ ⟨rfl⟩
    exact SafeTask.env safe
  | _ => exact fun _ => nofun

namespace SafeControl

variable {control : Control} (safe : C.SafeControl control)

include safe

theorem holds : C.Holds control.heap := by
  cases safe with
  | step safe => cases safe <;> assumption
  | _ => assumption

theorem values : C.Frees control.values := by
  cases safe with
  | step safe =>
    cases safe with
    | done flows => exact SafeFlow.values flows
    | raise free => exact frees_cons.2 ⟨free, frees_nil⟩
    | call call | protect call => exact call.args
    | run task => exact SafeTask.values task
  | invoke call => exact call.args
  | unwind free => exact frees_cons.2 ⟨free, frees_nil⟩

theorem env : ∀ env ∈ control.env?, C.SafeEnv env := by
  cases safe with
  | step safe =>
    cases safe with
    | done flows => exact SafeFlow.env flows
    | run task =>
      rintro _ ⟨rfl⟩
      exact SafeTask.env task
    | _ => exact fun _ => nofun
  | _ => exact fun _ => nofun

end SafeControl

namespace SafeMoment

variable {x : Moment} (safe : C.SafeMoment x)

include safe

theorem holds : C.Holds x.heap := by
  cases safe with
  | host stack => exact stack.holds
  | script machine => exact machine.control.holds

theorem values : C.Frees x.values := by
  cases safe with
  | host stack => exact stack.values
  | script machine => exact machine.control.values

theorem env : ∀ env ∈ x.env?, C.SafeEnv env := by
  cases safe with
  | host => exact fun _ => nofun
  | script machine => exact machine.control.env

end SafeMoment

end Lua.Confinement

namespace Moment

open Lua.Confinement Lua.SandboxChunk Interpreter

variable {circumstances : Circumstances}

theorem heap_start : (start circumstances).heap = preparedHeap.under circumstances := by
  simp only [start, heap, create]

/-- Scripts start in all circumstances with nothing that they must not have. -/
theorem holds_start : sandbox.Holds (start circumstances).heap := by
  rw [heap_start]
  exact holds_preparedHeap.under trivial

theorem firstLoad_eq : firstLoad = .closure routineHeap.closures.size := by
  rw [firstLoad, preparedHeap_eq]
  exact get_finishedHeap.2

theorem safe_of_leads {x : Moment} (leads : Leads circumstances.callLimit (start circumstances) x) :
    sandbox.SafeMoment x := by
  have made : sandbox.SafeMoment (start circumstances) :=
    .host ⟨holds_start, frees_nil⟩ (List.forall_mem_nil _)
  exact made.leads guarded_sandbox (fun _ _ _ => nofun) leads

theorem seated_of_leads {x : Moment}
    (leads : Leads circumstances.callLimit (start circumstances) x) :
    ∀ m below, x = .script m below → m.Seated := by
  induction leads with
  | refl => exact fun _ _ => nofun
  | tail _ step ih =>
    cases step with
    | calls | stores | collects | finishes =>
      rintro _ _ ⟨⟩
      exact Machine.seated_step _
    | moves below next =>
      rintro _ _ ⟨⟩
      exact (ih _ _ rfl).next next
    | answers s c below ended =>
      rintro _ _ ⟨⟩
      cases ended <;> exact Machine.seated_step _
    | _ => exact fun _ _ => nofun

theorem free_of_offers {x : Moment} {v : Value} (safe : sandbox.SafeMoment x)
    (offers : x.Offers v) : sandbox.free v := by
  have holds := safe.holds
  cases offers with
  | shown mem => exact safe.values v mem
  | extra runs mem => exact (safe.env _ runs).varargs v mem
  | inScope runs mem => exact holds.cell ((safe.env _ runs).scope _ mem)
  | key there => exact (holds.table _ v there).1
  | entry id k => exact holds.get id k
  | @outer id code cell there other mem =>
    have made : sandbox.closures id = none := if_neg fun same =>
      other (firstLoad_eq ▸ congrArg Value.closure same)
    exact holds.cell (holds.closures made there cell mem)
  | @apart cell beyond =>
    have scope := beyond _ guardedClosure firstLoad_eq.symm (holds.keptClosures closures_guarded)
    have others : cell ≠ loadCell ∧ cell ≠ selectCell := by
      constructor <;> rintro rfl <;> exact scope (by simp [guardedClosure])
    refine holds.cell ?_
    simp [sandbox, others.1, others.2]

/-- At all moments of all runs, scripts can get at none of the functions that read files
or binary chunks; and as long as the global `load` is the one with which they started,
its calls are calls of the base function in the mode for text, with the name and the
environment that are given, so it makes no function of a binary chunk. -/
theorem scripts_stay_in_sandbox {x : Moment}
    (leads : Leads circumstances.callLimit (start circumstances) x) :
    (∀ v, x.Offers v → ∀ b ∈ [Builtin.dofile, .loadfile, .stringDump, .load], v ≠ .builtin b) ∧
      (x.heap.get Heap.globals (.ofAscii "load") = firstLoad →
        LoadsText x.heap (x.heap.get Heap.globals (.ofAscii "load")) ∧
          RefusesBinary x.heap (x.heap.get Heap.globals (.ofAscii "load"))) ∧
      ∀ m below, x = .script m below → m.Seated := by
  have safe := safe_of_leads leads
  refine ⟨fun v offers => free_of_offers safe offers, fun same => ?_, seated_of_leads leads⟩
  obtain ⟨v, binds⟩ := binds_sandbox safe.holds
  have text : LoadsText x.heap (x.heap.get Heap.globals (.ofAscii "load")) := by
    rw [same, firstLoad_eq]
    exact loadsText_guarded (safe.holds.keptClosures closures_guarded) binds
  exact ⟨text, text.refusesBinary⟩

/-- A binary chunk is refused from the start. -/
theorem binary_chunk_is_refused : Leads 190000 (start {}) (start {}) ∧ GivesNone
    ⟨[], .outermost 190000, .invoke ⟨firstLoad, [.string ⟨#[27, 76, 117, 97]⟩], Site.native⟩
      (start {}).heap⟩ []
      (.outermost 190000) := by
  have here : Leads (Circumstances.callLimit {}) (start {}) (start {}) := .refl
  obtain ⟨-, load, -⟩ := scripts_stay_in_sandbox here
  have same : (start {}).heap.get Heap.globals (.ofAscii "load") = firstLoad := by
    rw [heap_start, firstLoad, Heap.get_under]
  rw [same] at load
  have called := (load rfl).2 [.string ⟨#[27, 76, 117, 97]⟩] (by decide) [] (.outermost 190000)
    Site.native (by rintro _ _ ⟨⟩)
  exact ⟨.refl, called.1 _ rfl rfl⟩

end Moment
end SealedLua
