import SealedLua.Proofs.Engine.Preparation
import SealedLua.Proofs.Lua.Constructors

/-!
# Finalizers

A script marks a new table by giving it a metatable with a function under `__gc`,
and a cycle of the collector that finds the table unused calls that function.  An
error that leaves the function gets no further than the guard with which the
collector waits for it.
-/

namespace SealedLua.Lua

open Machine DumpChunk

section Calls

variable {env : Env} {h h₁ : Heap} {f : Value} {vs : List Value} {e : Expr} {args : List Expr}
  (callee : evalExpr env e h = .done f h) (given : evalList env args h = .done vs h₁)

include callee given

theorem evalMulti_call_eq (line : Nat) :
    evalMulti env (.call e args line) h = .call ⟨f, vs, callSite env e line⟩ h₁ .done := by
  have unfolded : evalMulti env (.call e args line) h = (evalExpr env e h).bind fun f h =>
      (evalList env args h).bind fun vs h => .call ⟨f, vs, callSite env e line⟩ h .done := by
    rw [evalMulti]
    rfl
  rw [unfolded, callee, Step.bind, given, Step.bind]

theorem execList_expression_call (line : Nat) (after : List Stmt) :
    execList env (.expression (.call e args line) :: after) h =
      .call ⟨f, vs, callSite env e line⟩ h₁ fun _ h => execList env after h := by
  have unfolded : execList env (.expression (.call e args line) :: after) h =
      (evalMulti env (.call e args line) h).bind fun _ h => execList env after h := by
    rw [execList, exec]
    exact Step.bind_assoc _ _ _
  rw [unfolded, evalMulti_call_eq callee given]
  rfl

theorem execList_declare_call (count line : Nat) (after : List Stmt) :
    execList env (.declare count [.call e args line] :: after) h =
      .call ⟨f, vs, callSite env e line⟩ h₁ fun values h =>
        (env.declare (adjust count values) h).bind fun env h => execList env after h := by
  have unfolded : execList env (.declare count [.call e args line] :: after) h =
      (evalMulti env (.call e args line) h).bind fun values h =>
        (env.declare (adjust count values) h).bind fun env h => execList env after h := by
    rw [execList, exec, evalList]
    refine (Step.bind_assoc _ _ _).trans (congrArg (Step.bind _) ?_)
    funext values h
    exact Step.bind_assoc _ _ _
  rw [unfolded, evalMulti_call_eq callee given]
  rfl

end Calls

theorem reaches_stmts {depth : Depth} {env env' : Env} {h h₁ : Heap} {stmt : Stmt}
    (gives : Gives depth (exec env stmt h) (.next env') h₁) (after : List Stmt)
    (frames : List Frame) :
    Reaches ⟨frames, depth, .step (execList env (stmt :: after) h)⟩
      ⟨frames, depth, .step (execList env' after h₁)⟩ := by
  have leads : Leads depth (execList env (stmt :: after) h) (execList env' after h₁) :=
    leads_stmt gives
  have reaches := leads frames .done
  rwa [Step.bind_done, Step.bind_done] at reaches

theorem reaches_body {h : Heap} {id : ClosureId} {body : List Stmt} {scope : List CellId}
    {chunk : ByteArray} (stored : h.closures[id]? = some ⟨.mk 0 true body, scope, chunk⟩)
    (outer : Depth) (args : List Value) :
    Reaches (.ofCall outer (.closure id) args h)
      ⟨(Machine.ofCall outer (.closure id) args h).frames, outer.enter Site.native,
        .step (execList ⟨scope, args, chunk⟩ body h)⟩ := by
  have entered : (h.closure id).enter args h = execList ⟨scope, args, chunk⟩ body h := by
    rw [Heap.closure_eq stored, enter_variadic]
  exact .move rfl (entered ▸ .move rfl (.refl _))

namespace Heap

/-- The heap with a new table and a new metatable for it, which has a function
under `__gc`. -/
def withMetatable (h : Heap) (code : Closure) : Heap :=
  let object := h.tables.size
  let made := (h.newTable (Table.empty.resized 0 0)).2.newTable (Table.empty.resized 0 1)
  (made.2.newClosure code).2.set (object + 1) (.ofAscii "__gc") (.closure h.closures.size)

/-- The heap with a new table that is marked for finalization by a function. -/
def withFinalizer (h : Heap) (code : Closure) : Heap :=
  let object := h.tables.size
  ((h.withMetatable code).setMetatable object (some (object + 1))).withCollector fun c =>
    { c with marked := object :: c.marked }

section Finalizer

variable (h : Heap) (code : Closure)

theorem getElem?_withFinalizer (id : TableId) : (h.withFinalizer code).tables[id]? =
    if h.tables.size = id then some { Table.empty.resized 0 0 with metatable := some (id + 1) }
    else if h.tables.size + 1 = id then
      some ((Table.empty.resized 0 1).set (.ofAscii "__gc") (.closure h.closures.size))
    else h.tables[id]? := by
  have unfolded : (h.withFinalizer code).tables =
      (((h.tables.push (Table.empty.resized 0 0)).push (Table.empty.resized 0 1)).modify
        (h.tables.size + 1) fun t => t.set (.ofAscii "__gc") (.closure h.closures.size)).modify
          h.tables.size fun t => { t with metatable := some (h.tables.size + 1) } := rfl
  rw [unfolded, Array.getElem?_modify, Array.getElem?_modify, Array.getElem?_push,
    Array.getElem?_push, Array.size_push]
  by_cases object : h.tables.size = id
  · subst object
    simp
  · by_cases metatable : h.tables.size + 1 = id
    · subst metatable
      simp
    · rw [if_neg object, if_neg metatable, if_neg (Ne.symm metatable), if_neg (Ne.symm object),
        if_neg object, if_neg metatable]

theorem kept_withFinalizer (id : TableId) (t : Table) (stored : h.tables[id]? = some t) :
    (h.withFinalizer code).tables[id]? = some t := by
  have inside := (Array.getElem?_eq_some_iff.1 stored).1
  rw [getElem?_withFinalizer, if_neg (by omega), if_neg (by omega), stored]

theorem cells_withFinalizer : (h.withFinalizer code).cells = h.cells := rfl

theorem stored_withFinalizer :
    (h.withFinalizer code).closures[h.closures.size]? = some code := Array.getElem?_push_size

theorem get_withFinalizer :
    (h.withFinalizer code).get (h.tables.size + 1) (.string (eventKey "gc")) =
      .closure h.closures.size := by
  have key : Value.string (eventKey "gc") = .ofAscii "__gc" := rfl
  have metatable : (h.withFinalizer code).tables[h.tables.size + 1]? =
      some ((Table.empty.resized 0 1).set (.ofAscii "__gc") (.closure h.closures.size)) := by
    rw [getElem?_withFinalizer, if_neg (by omega), if_pos rfl]
  rw [key]
  exact (Heap.get_eq metatable _).trans ((Table.get_set _ rfl _ _).trans (if_pos rfl))

theorem metamethod_withFinalizer :
    (h.withFinalizer code).metamethod (.table h.tables.size) (eventKey "gc") =
      .closure h.closures.size := by
  have object : (h.withFinalizer code).metatableOf (.table h.tables.size) =
      some (h.tables.size + 1) := by
    rw [metatableOf, table, getElem?_withFinalizer, if_pos rfl, Option.getD_some]
  rw [metamethod, object]
  exact h.get_withFinalizer code

theorem bare_withMetatable (event : ByteArray) :
    (h.withMetatable code).metamethod (.table h.tables.size) event = .nil := by
  have unfolded : (h.withMetatable code).tables =
      ((h.tables.push (Table.empty.resized 0 0)).push (Table.empty.resized 0 1)).modify
        (h.tables.size + 1) fun t => t.set (.ofAscii "__gc") (.closure h.closures.size) := rfl
  have object : (h.withMetatable code).metatableOf (.table h.tables.size) = none := by
    rw [metatableOf, table, unfolded, Array.getElem?_modify, if_neg (by omega),
      Array.getElem?_push_lt (by simp), Array.getElem_push_eq, Option.getD_some,
      Table.metatable_resized]
    rfl
  rw [metamethod, object]

theorem mark_withMetatable (running : h.collector.closing = false)
    (unmarked : h.collector.marked = []) :
    ((h.withMetatable code).setMetatable h.tables.size (some (h.tables.size + 1))).mark
      h.tables.size (some (h.tables.size + 1)) = h.withFinalizer code := by
  let made := (h.withMetatable code).setMetatable h.tables.size (some (h.tables.size + 1))
  have there : (made.get (h.tables.size + 1) (.string (eventKey "gc"))).isNil = false :=
    congrArg Value.isNil (h.get_withFinalizer code)
  have new : (made.collector.closing || made.collector.marked.contains h.tables.size ||
      (made.get (h.tables.size + 1) (.string (eventKey "gc"))).isNil) = false := by
    have collector : made.collector = h.collector := rfl
    rw [there, collector, running, unmarked]
    rfl
  exact if_neg (Bool.eq_false_iff.1 new)

end Finalizer
end Heap

/-- A statement that makes a table with a finalizer and marks it. -/
def marking (body : List Stmt) : Stmt :=
  .expression (.call (global "setmetatable" 0 1)
    [.table [] 0 0, .table [.pair (text "__gc") (.function (.mk 0 false body)) 1] 0 1] 1)

section Marking

variable {depth : Depth} {env : Env} {h : Heap} {body : List Stmt}

theorem Builtin.run_setmetatable {c : CallContext} {id m : TableId}
    (bare : h.metamethod (.table id) (eventKey "metatable") = .nil) :
    Builtin.setmetatable.run [.table id, .table m] c h =
      .done [.table id] ((h.setMetatable id (some m)).mark id (some m)) := by
  have asked : ∀ f : Value → Native (List Value),
      (Action.gets (Base.protectedField · (.table id)) >>= f : Native (List Value)) c h =
        f .nil c h := by
    intro f
    rw [← bare]
    rfl
  have unfolded : Builtin.setmetatable.run [.table id, .table m] c h =
      Base.changeMetatable id (some m) c h := rfl
  rw [unfolded, Base.changeMetatable, asked]
  rfl

theorem eval_finalizer (env : Env) (h : Heap) (body : List Stmt) :
    evalExpr env (.table [.pair (text "__gc") (.function (.mk 0 false body)) 1] 0 1) h =
      .done (.table h.tables.size)
        (((h.newTable (Table.empty.resized 0 1)).2.newClosure
          ⟨.mk 0 false body, env.scope, env.chunk⟩).2.set h.tables.size (.ofAscii "__gc")
            (.closure h.closures.size)) := by
  let made := (h.newTable (Table.empty.resized 0 1)).2
  have function : evalExpr env (.function (.mk 0 false body)) made =
      .done (.closure h.closures.size)
        (made.newClosure ⟨.mk 0 false body, env.scope, env.chunk⟩).2 := by
    rw [evalExpr]
    rfl
  have filled : evalFields env h.tables.size
      [.pair (text "__gc") (.function (.mk 0 false body)) 1] [] 0 made = _ :=
    Data.evalFields_pair 1 rfl (eval_text "__gc") function rfl
  have unfolded : evalExpr env
      (.table [.pair (text "__gc") (.function (.mk 0 false body)) 1] 0 1) h =
      (evalFields env h.tables.size [.pair (text "__gc") (.function (.mk 0 false body)) 1] [] 0
        made).bind fun _ h' => .done (.table h.tables.size) h' := by
    rw [evalExpr]
    rfl
  rw [unfolded, filled, evalFields, List.reverse_nil, storeItems_nil]
  rfl

theorem gives_marking (binds : h.Binds env.scope [.table Heap.globals]) (room : depth.Admits 1 0)
    (entry : h.get Heap.globals (.ofAscii "setmetatable") = .builtin .setmetatable)
    (running : h.collector.closing = false) (unmarked : h.collector.marked = []) :
    Gives depth (exec env (marking body) h) (.next env)
      (h.withFinalizer ⟨.mk 0 false body, env.scope, env.chunk⟩) := by
  let code : Closure := ⟨.mk 0 false body, env.scope, env.chunk⟩
  let object := (h.newTable (Table.empty.resized 0 0)).2
  have both : Gives depth (evalList env [.table [] 0 0,
      .table [.pair (text "__gc") (.function (.mk 0 false body)) 1] 0 1] h)
        [.table h.tables.size, .table (h.tables.size + 1)] (h.withMetatable code) := by
    have size : object.tables.size = h.tables.size + 1 := Array.size_push _
    have metatable := eval_finalizer env object body
    rw [size] at metatable
    exact .list_cons .expr_emptyTable (.list_one rfl (.of_eq metatable))
  have changed : ∀ context, Gives (depth.enter (callSite env (global "setmetatable" 0 1) 1))
      (Builtin.setmetatable.run [.table h.tables.size, .table (h.tables.size + 1)] context
        (h.withMetatable code)) [.table h.tables.size] (h.withFinalizer code) := fun _ =>
    .of_eq ((Builtin.run_setmetatable (h.bare_withMetatable code _)).trans
      (congrArg (Step.done _) (h.mark_withMetatable code running unmarked)))
  exact .stmt_expression (.multi_call 1
    (eval_global "setmetatable" 0 1 binds rfl entry rfl) both room (.of_builtin rfl changed))

end Marking

namespace Heap

section Chunks

variable (h : Heap) (function : Function) (name : String) (body : List Stmt)

/-- The heap that the first statement of a chunk leaves if it marks a table. -/
def afterMarking : Heap :=
  (h.loaded function name).withFinalizer
    ⟨.mk 0 false body, [h.cells.size], Chunk.shownName name.toUTF8⟩

theorem kept_afterMarking (id : TableId) (t : Table) (stored : h.tables[id]? = some t) :
    (h.afterMarking function name body).tables[id]? = some t :=
  (h.loaded function name).kept_withFinalizer _ id t stored

theorem get_afterMarking {id : TableId} (plain : h.Plain id) (key : Value) :
    (h.afterMarking function name body).get id key = h.get id key := by
  obtain ⟨t, stored, -⟩ := plain
  rw [Heap.get_eq (h.kept_afterMarking function name body _ t stored), ← Heap.get_eq stored]

theorem bound_afterMarking :
    (h.afterMarking function name body).cells[h.cells.size]? = some (.table globals) :=
  h.bound_loaded function name

end Chunks

theorem gives_afterMarking {h : Heap} {depth : Depth} (function : Function) (name : String)
    (body : List Stmt) (args : List Value) (room : depth.Admits 1 0)
    (entry : h.get globals (.ofAscii "setmetatable") = .builtin .setmetatable)
    (fresh : h.collector = {}) :
    let env : Env := ⟨[h.cells.size], args, Chunk.shownName name.toUTF8⟩
    Gives depth (exec env (marking body) (h.loaded function name)) (.next env)
      (h.afterMarking function name body) :=
  gives_marking (.cons (h.bound_loaded function name) .nil) room entry
    (congrArg Collector.closing fresh) (congrArg Collector.marked fresh)

end Heap

/-- A function that takes nothing does without the arguments that it gets. -/
theorem enter_nullary (body : List Stmt) (scope : List CellId) (chunk : ByteArray)
    (args : List Value) (h : Heap) :
    Closure.enter ⟨.mk 0 false body, scope, chunk⟩ args h = execList ⟨scope, [], chunk⟩ body h := by
  have nothing : adjust 0 args = [] := by simp [adjust]
  have unfolded : Closure.enter ⟨.mk 0 false body, scope, chunk⟩ args h =
      (Env.declare ⟨scope, [], chunk⟩ (adjust 0 args) h).bind fun env h =>
        execList env body h := rfl
  rw [unfolded, nothing]
  rfl

namespace Heap

/-- The heap while a cycle looks at the tables that it finds unused. -/
def cycling (h : Heap) : Heap :=
  h.withCollector fun c => { c with due := false, finalizing := true, moment := c.moment + 1 }

def cycled (h : Heap) : Heap := h.withCollector fun c => { c with finalizing := false }

end Heap

namespace Collector

variable {depth : Depth} {held values : List Value} {h h' : Heap} {id : TableId} {f : Value}

theorem collect_eq (unused : h.unused held = [id])
    (finalizer : h.metamethod (.table id) (eventKey "gc") = f) (there : f.isNil = false) :
    collect held h = .protect ⟨f, [.table id], Site.native⟩ none (h.cycling.unmark id)
      fun _ h => .done () h.cycled := by
  have unfolded : collect held h = (finalizeAll (h.unused held) h.cycling).bind fun _ h =>
    .done () h.cycled := rfl
  have one : finalizeAll [id] h.cycling = (finalize id h.cycling).bind fun _ h => .done () h := rfl
  have asked : finalize id h.cycling = (if f.isNil then pure () else do
      let _ ← Action.protect f [.table id] Site.native none
      return () : Action Unit) (h.cycling.unmark id) := by
    rw [← finalizer]
    rfl
  rw [unfolded, unused, one, asked, there]
  rfl

/-- The collector waits for a finalizer with a guard, above which the body of the
finalizer runs. -/
theorem reaches_finalizer {id : TableId} {closure : ClosureId} {body : List Stmt}
    {scope : List CellId} {chunk : ByteArray} {k : Unit → Heap → Step Flow} (frames : List Frame)
    (room : (depth.enter Site.native).Admits 0 0) (unused : h.unused held = [id])
    (finalizer : h.metamethod (.table id) (eventKey "gc") = .closure closure)
    (stored : h.closures[closure]? = some ⟨.mk 0 false body, scope, chunk⟩) :
    Reaches ⟨frames, depth, .step ((collect held h).bind k)⟩
      ⟨.guard Site.native none (fun _ h => k () h.cycled) :: frames, depth.enter Site.native,
        .step (execList ⟨scope, [], chunk⟩ body (h.cycling.unmark id))⟩ := by
  have entered : ((h.cycling.unmark id).closure closure).enter [.table id] (h.cycling.unmark id) =
      execList ⟨scope, [], chunk⟩ body (h.cycling.unmark id) := by
    rw [Heap.closure_eq (h := h.cycling.unmark id) stored, enter_nullary]
  rw [collect_eq unused finalizer rfl]
  refine (Reaches.protect room).trans (.move ?_ (.refl _))
  rw [← entered]
  rfl

theorem run_collectgarbage {c : CallContext} (idle : h.collector.finalizing = false) :
    Builtin.collectgarbage.run [] c h = (collect [] h).bind fun _ h => .done [.integer 0] h := by
  have option : (Base.CollectorOption.names.find? fun o =>
      bytes (ascii o.1) == bytes (ascii "collect")) = some ("collect", .collect) := by decide
  have named : Native.stringArgOr [] 1 (bytes (ascii "collect")) =
      (pure (bytes (ascii "collect")) : Native ByteArray) := rfl
  have unfolded : Builtin.collectgarbage.run [] c h = (if h.collector.finalizing then pure [.nil]
      else do return [← Base.CollectorOption.perform 0 0 0 .collect] : Native (List
        Value)) c h := by
    have whole : Builtin.collectgarbage.run [] = Base.collectgarbage [] := rfl
    rw [whole, Base.collectgarbage, named, pure_bind, option]
    rfl
  rw [unfolded, idle]
  exact Step.bind_assoc _ _ _

end Collector

/-- Circumstances in which a cycle ends whenever it can, and finds all that is marked
unused unless it is held. -/
def Circumstances.eager : Circumstances :=
  { collects := fun _ => true, finds := fun _ _ _ => true }

section Eager

variable {depth : Depth} {h : Heap} {id : ClosureId} {cell : CellId} {chunk : ByteArray}
  (eager : h.circumstances = .eager)

include eager

theorem Heap.unused_eager (held : List Value) : h.unused held = h.collector.marked := by
  rw [unused, eager]
  exact List.filter_eq_self.2 fun _ _ => rfl

end Eager

def setting (name : String) (n : Int64) : Stmt :=
  .assign [.entry (outer "_ENV" 0) (text name) 1] [.literal (.number (.integer n))]

section Setting

variable {depth : Depth} {env : Env} {h : Heap}

theorem gives_setting (name : String) (n : Int64) (binds : h.Binds env.scope [.table Heap.globals])
    (plain : h.Plain Heap.globals) :
    Gives depth (exec env (setting name n) h) (.next env)
      (h.set Heap.globals (.ofAscii name) (.integer n)) := by
  obtain ⟨t, stored, bare⟩ := plain
  have globals : evalExpr env (outer "_ENV" 0) h = .done (.table Heap.globals) h :=
    evalExpr_variable binds rfl
  exact .stmt_store 1 (deferred_apart rfl globals) rfl (deferred_apart rfl (eval_text name)) rfl
    (.list_one rfl (.of_eq (evalExpr_literal env h _))) stored bare rfl

end Setting
end SealedLua.Lua
