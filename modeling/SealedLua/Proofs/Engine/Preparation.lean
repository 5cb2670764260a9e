import SealedLua.Proofs.Engine.Dumping
import SealedLua.Proofs.Engine.Evaluations
import SealedLua.Proofs.Renaming.Garbage
import Mathlib.Data.List.Induction

/-!
# What preparation leaves

Preparing a heap changes four entries of the library and no other.  In
particular all that the rendering routine needs is in its place when a script
starts.
-/

namespace SealedLua

open Lua

namespace Lua

namespace Library

theorem get_tableOf (entries : List (String × Value)) (key : Value) :
    (tableOf entries).get key =
      ((entries.reverse.find? fun e => key.toKey == .ofAscii e.1).map (·.2)).getD .nil := by
  induction entries using List.reverseRecOn with
  | nil => exact Table.get_empty key
  | append_singleton entries e ih =>
    have last : tableOf (entries ++ [e]) = (tableOf entries).set (.ofAscii e.1) e.2 := by
      rw [tableOf, List.foldl_append]
      rfl
    have name : (Value.ofAscii e.1).toKey = .ofAscii e.1 := rfl
    rw [last, Table.get_set _ rfl, name, List.reverse_append, List.reverse_singleton,
      List.singleton_append, List.find?_cons]
    by_cases same : key.toKey = .ofAscii e.1
    · rw [if_pos same, same, beq_self_eq_true]
      rfl
    · rw [if_neg same, beq_eq_false_iff_ne.2 same, ih]

theorem metatable_tableOf (entries : List (String × Value)) :
    (tableOf entries).metatable = none := by
  induction entries using List.reverseRecOn with
  | nil => rfl
  | append_singleton entries e ih =>
    rw [tableOf, List.foldl_append]
    exact (Table.metatable_set _ _ _).trans ih

theorem stored_basic : initialHeap.tables[Heap.globals]? = some (tableOf basic) := by
  simp [initialHeap, Heap.globals]

theorem stored_strings : initialHeap.tables[Heap.stringLibrary]? = some (tableOf strings) := by
  simp [initialHeap, Heap.stringLibrary]

theorem stored_tables : initialHeap.tables[Heap.tableLibrary]? = some (tableOf tables) := by
  simp [initialHeap, Heap.tableLibrary]

theorem stored_mathematics :
    initialHeap.tables[Heap.mathLibrary]? = some (tableOf mathematics) := by
  simp [initialHeap, Heap.mathLibrary]

theorem stored_utf8 : initialHeap.tables[Heap.utf8Library]? = some (tableOf utf8) := by
  simp [initialHeap, Heap.utf8Library]

theorem stored_stringMetatable : initialHeap.tables[Heap.stringMetatable]? =
    some (tableOf stringMetatable) := by
  simp [initialHeap, Heap.stringMetatable]

theorem same_tableOf (ρ : Renaming) {entries : List (String × Value)}
    (fixed : entries.all (·.2.isFixed) = true) :
    ρ.SameTable (tableOf entries) (tableOf entries) := by
  induction entries using List.reverseRecOn with
  | nil => exact .empty
  | append_singleton entries e ih =>
    have last : tableOf (entries ++ [e]) = (tableOf entries).set (.ofAscii e.1) e.2 := by
      rw [tableOf, List.foldl_append]
      rfl
    simp only [List.all_append, List.all_cons, List.all_nil, Bool.and_true,
      Bool.and_eq_true] at fixed
    have stored := (ih fixed.1).set (.ofAscii e.1) e.2
    rw [ρ.value_of_isFixed fixed.2, Renaming.value_ofAscii] at stored
    rw [last]
    exact stored

theorem closed_initialHeap : initialHeap.Closed := by
  intro ρ _
  refine ⟨fun {i v} found => ?_, fun {i t} found => ?_, fun {i c} found => ?_⟩
  · simp [initialHeap] at found
  · have mem := Array.mem_of_getElem? found
    simp only [initialHeap, List.mem_toArray, List.mem_cons, List.not_mem_nil, or_false] at mem
    rcases mem with same | same | same | same | same | same <;> rw [same] <;>
      exact same_tableOf ρ rfl
  · simp [initialHeap] at found

theorem intact_initialHeap : initialHeap.Intact := by
  constructor <;> simp only [Heap.get_eq stored_basic, Heap.get_eq stored_strings,
    Heap.get_eq stored_tables, get_tableOf]
  all_goals decide +kernel

end Library

namespace Heap

def Plain (h : Heap) (id : TableId) : Prop := ∃ t, h.tables[id]? = some t ∧ t.metatable = none

variable {h : Heap} {id j : TableId} {key l : Value}

theorem Plain.under (plain : h.Plain id) (circumstances : Circumstances) :
    (h.under circumstances).Plain id := plain

theorem Plain.bare (plain : h.Plain id) : (h.table id).metatable = none := by
  obtain ⟨t, stored, bare⟩ := plain
  rw [table_eq stored, bare]

theorem Plain.set (plain : h.Plain id) (j : TableId) (key value : Value) :
    (h.set j key value).Plain id := by
  obtain ⟨t, stored, bare⟩ := plain
  by_cases same : id = j
  · subst same
    exact ⟨_, tables_set stored key value, (t.metatable_set key value).trans bare⟩
  · exact ⟨t, ((ChangesOnly.set j h key value).others id same).trans stored, bare⟩

theorem Plain.loaded (plain : h.Plain id) (function : Function) (name : String) :
    (h.loaded function name).Plain id := plain

theorem Binds.spared {scope : List CellId} {vs : List Value} {ρ : Renaming}
    (binds : h.Binds scope vs) (spares : ρ.Spares h) :
    scope.map ρ.cell = scope := by
  induction binds with
  | nil => rfl
  | cons bound _ ih => rw [List.map_cons, spares.cells _ (Array.getElem?_eq_some_iff.1 bound).1, ih]

theorem Closed.loaded (closed : h.Closed) (function : Function) (name : String) :
    (h.loaded function name).Closed := by
  refine (closed.newCell fun ρ _ => ρ.value_of_isFixed rfl).newClosure fun ρ spares => ?_
  have cell : ρ.cell h.cells.size = h.cells.size := spares.cells _ (by simp [Heap.newCell])
  exact congrArg (fun cell => (⟨function, [cell], Chunk.shownName name.toUTF8⟩ : Closure)) cell

theorem holds_loaded (h : Heap) (function : Function) (name : String) :
    (h.loaded function name).Holds (.closure h.closures.size) := fun _ spares =>
  congrArg Value.closure (spares.closures _ (by simp [loaded, Heap.newCell, Heap.newClosure]))

theorem loaded_eq_joined (h : Heap) (function : Function) (name : String) : h.loaded function name =
    h.joined #[.table globals] #[⟨function, [h.cells.size], Chunk.shownName name.toUTF8⟩] := by
  simp [loaded, joined, Heap.newCell, Heap.newClosure]

theorem get_set_of_ne (plain : h.Plain id) (proper : key.toKey.isKey = true) (value : Value)
    (other : (j, l.toKey) ≠ (id, key.toKey)) : (h.set id key value).get j l = h.get j l := by
  obtain ⟨t, stored, -⟩ := plain
  by_cases same : j = id
  · subst same
    rw [get_eq (tables_set stored key value), get_eq stored, Table.get_set t proper, if_neg]
    rintro eq
    exact other (by rw [eq])
  · rw [get, get, table, table, (ChangesOnly.set id h key value).others j same]

theorem get_set_self (plain : h.Plain id) (proper : key.toKey.isKey = true) (value : Value) :
    (h.set id key value).get id key = value := by
  obtain ⟨t, stored, -⟩ := plain
  rw [get_eq (tables_set stored key value), Table.get_set t proper, if_pos rfl]

/-- Loading a script and storing its argument changes no other entry. -/
theorem get_loaded_set_of_ne (plain : h.Plain globals) (function : Function) (name : String)
    (value : Value) (other : (j, l.toKey) ≠ (globals, .ofText argumentName)) :
    ((h.loaded function name).set globals (.ofText argumentName) value).get j l = h.get j l := by
  rw [get_set_of_ne (plain.loaded function name) rfl _ other,
    get_of_tables (h.tables_loaded function name)]

end Heap

namespace SandboxChunk

open DumpChunk

def guarded : Function :=
  .mk 3 true [
    .ifElse (.compare .gt (.call (outer "select" 3) [text "#", .varargs] 11)
      (.literal (.number (.integer 0))) 11)
      [.tailCall (outer "base_load" 4) [own "chunk" 2, own "name" 1, text "t", .varargs] 12] [],
    .tailCall (outer "base_load" 4) [own "chunk" 2, own "name" 1, text "t"] 14]

def chunk : Function :=
  .mk 0 true [
    .declare 2 [global "load" 0 4, global "select" 0 4],
    .assign [.entry (outer "_ENV" 2) (text "dofile") 6] [.literal .nil],
    .assign [.entry (outer "_ENV" 2) (text "loadfile") 7] [.literal .nil],
    .assign [.entry (global "string" 2 8) (text "dump") 8] [.literal .nil],
    .assign [.entry (outer "_ENV" 2) (text "load") 10] [.function guarded]]

theorem read_sandbox : Chunk.read Routine.sandbox.toUTF8 = .ok chunk :=
  read_of_readsAs (by decide +kernel)

/-- The entries that the routine changes. -/
def changed : List (TableId × String) :=
  [(Heap.globals, "dofile"), (Heap.globals, "loadfile"), (Heap.stringLibrary, "dump"),
    (Heap.globals, "load")]

def Kept (id : TableId) (key : Value) : Prop := ∀ c ∈ changed, (id, key.toKey) ≠ (c.1, .ofAscii c.2)

instance (id : TableId) (key : Value) : Decidable (Kept id key) :=
  List.decidableBAll (fun c : TableId × String => (id, key.toKey) ≠ (c.1, .ofAscii c.2)) changed

variable {base h h₁ : Heap} {env : Env} {id : TableId} {v f g : Value}
  {cell : CellId} {name : ByteArray}

def scope (base : Heap) (cell : CellId) (load : Value) : List CellId :=
  [(base.newCell load).2.cells.size, base.cells.size, cell]

def cleared (base : Heap) (load select : Value) : Heap :=
  ((((base.newCell load).2.newCell select).2.set Heap.globals (.ofAscii "dofile") .nil).set
    Heap.globals (.ofAscii "loadfile") .nil).set Heap.stringLibrary (.ofAscii "dump") .nil

/-- The heap that the routine leaves.  The functions that it keeps for itself are in
variables of their own, which only the new `load` has in scope. -/
def finished (base : Heap) (cell : CellId) (name : ByteArray) (load select : Value) : Heap :=
  ((cleared base load select).newClosure ⟨guarded, scope base cell load, name⟩).2.set
    Heap.globals (.ofAscii "load") (.closure base.closures.size)

theorem exec_entry {object value : Expr} (key : String) (line : Nat) (plain : h.Plain id)
    (apart : object.ownVariable? = none) (object_done : evalExpr env object h = .done (.table id) h)
    (value_done : evalList env [value] h = .done [v] h₁) (tables : h₁.tables = h.tables) :
    exec env (.assign [.entry object (text key) line] [value]) h =
      .done (.next env) (h₁.set id (.ofAscii key) v) := by
  obtain ⟨t, stored, bare⟩ := plain
  have late : deferred env [] (text key) (evalExpr env (text key)) h =
      .done (pure (.ofAscii key)) h :=
    deferred_apart rfl (eval_text key)
  exact exec_store line (deferred_apart apart object_done) rfl late rfl value_done
    (tables ▸ stored) bare rfl

/-- Preparation as far as it has come: some of the entries have been changed. -/
structure Stage (base h : Heap) : Prop where
  plain : ∀ c ∈ changed, h.Plain c.1
  kept : ∀ id key, Kept id key → h.get id key = base.get id key
  closed : h.Closed

theorem Stage.set (stage : Stage base h) (id : TableId) (key : String)
    (listed : (id, key) ∈ changed) (holds : h.Holds v) :
    Stage base (h.set id (.ofAscii key) v) := by
  refine ⟨fun c mem => (stage.plain c mem).set _ _ _, fun j l kept => ?_,
    stage.closed.set id (fun _ _ => rfl) holds⟩
  rw [Heap.get_set_of_ne (stage.plain _ listed) rfl v (kept _ listed)]
  exact stage.kept j l kept

theorem binds_scope (bound : base.cells[cell]? = some (.table Heap.globals)) :
    ((base.newCell f).2.newCell g).2.Binds (scope base cell f) [g, f, .table Heap.globals] := by
  have start : base.Binds [cell] [.table Heap.globals] := .cons bound .nil
  exact (start.newCell f).newCell g

theorem exec_chunk (bound : base.cells[cell]? = some (.table Heap.globals))
    (load : base.get Heap.globals (.ofAscii "load") = f) (f_there : f.isNil = false)
    (f_fixed : f.isFixed = true) (select : base.get Heap.globals (.ofAscii "select") = g)
    (g_there : g.isNil = false) (g_fixed : g.isFixed = true)
    (string : base.get Heap.globals (.ofAscii "string") = .table Heap.stringLibrary)
    (plain : ∀ c ∈ changed, base.Plain c.1) (closed : base.Closed) (name : ByteArray) :
    Stage base (finished base cell name f g) ∧
      ∃ env, execList ⟨[cell], [], name⟩ chunk.body base =
        .done (.next env) (finished base cell name f g) := by
  have start : base.Binds (Env.mk [cell] [] name).scope [.table Heap.globals] := .cons bound .nil
  have values : evalList ⟨[cell], [], name⟩ [global "load" 0 4, global "select" 0 4] base =
      .done [f, g] base :=
    evalList_cons (eval_global "load" 0 4 start rfl load f_there)
      (evalList_one rfl (eval_global "select" 0 4 start rfl select g_there))
  -- Assignments to entries leave the variables, so these are what they are in all stages.
  let env : Env := ⟨scope base cell f, [], name⟩
  have binds := binds_scope (f := f) (g := g) bound
  have globals : ∀ {h : Heap}, h.Binds env.scope [g, f, .table Heap.globals] →
      evalExpr env (outer "_ENV" 2) h = .done (.table Heap.globals) h := fun binds =>
        evalExpr_variable binds rfl
  have gives_nil : ∀ {h : Heap}, evalList env [.literal .nil] h = .done [.nil] h :=
    evalList_one rfl (evalExpr_literal _ _ _)
  have no : ∀ {h : Heap}, h.Holds .nil := fun _ _ => rfl
  have s₁ : Stage base ((base.newCell f).2.newCell g).2 :=
    ⟨plain, fun _ _ _ => rfl,
      (closed.newCell fun ρ _ => ρ.value_of_isFixed f_fixed).newCell fun ρ _ =>
        ρ.value_of_isFixed g_fixed⟩
  have s₂ := s₁.set Heap.globals "dofile" (by decide) no
  have s₃ := s₂.set Heap.globals "loadfile" (by decide) no
  have s₄ : Stage base (cleared base f g) := s₃.set Heap.stringLibrary "dump" (by decide) no
  let code : Closure := ⟨guarded, scope base cell f, name⟩
  have in_scope : ∀ ρ : Renaming, ρ.Spares (cleared base f g) →
      ρ.closureOf code = code := fun ρ spares =>
    congrArg (fun scope => (⟨guarded, scope, name⟩ : Closure))
      (Heap.Binds.spared (h := cleared base f g) binds spares)
  have s₅ : Stage base ((cleared base f g).newClosure code).2 :=
    ⟨s₄.plain, s₄.kept, s₄.closed.newClosure in_scope⟩
  have made : ((cleared base f g).newClosure code).2.Holds
      (.closure base.closures.size) := fun ρ spares =>
    congrArg Value.closure
      (spares.closures _ (by simp [Heap.newClosure, cleared, Heap.set, Heap.newCell]))
  have strings : ∀ {h : Heap}, Stage base h → h.Binds env.scope [g, f, .table Heap.globals] →
      evalExpr env (global "string" 2 8) h = .done (.table Heap.stringLibrary) h :=
        fun stage binds =>
    eval_global "string" 2 8 binds rfl ((stage.kept _ _ (by decide)).trans string) rfl
  have function : evalExpr env (.function guarded) (cleared base f g) =
      .done (.closure base.closures.size) ((cleared base f g).newClosure code).2 := by
    rw [evalExpr]
    rfl
  have declares : exec ⟨[cell], [], name⟩
      (.declare 2 [global "load" 0 4, global "select" 0 4]) base =
      .done (.next env) ((base.newCell f).2.newCell g).2 := exec_declare 2 values rfl
  have run₂ := exec_entry "dofile" 6 (s₁.plain (Heap.globals, "load") (by decide))
    rfl (globals binds) gives_nil rfl
  have run₃ := exec_entry "loadfile" 7 (s₂.plain (Heap.globals, "load") (by decide))
    rfl (globals binds) gives_nil rfl
  have run₄ := exec_entry "dump" 8 (s₃.plain (Heap.stringLibrary, "dump") (by decide))
    rfl (strings s₃ binds) gives_nil rfl
  have run₅ :=
    exec_entry "load" 10 (s₄.plain (Heap.globals, "load") (by decide)) rfl (globals binds)
    (evalList_one rfl function) rfl
  refine ⟨s₅.set Heap.globals "load" (by decide) made, env, ?_⟩
  refine (execList_cons _ declares).trans
    ((execList_cons _ run₂).trans ((execList_cons _ run₃).trans
    ((execList_cons _ run₄).trans ((execList_cons [] run₅).trans ?_))))
  rw [execList]
  rfl

theorem get_finished (plain : ∀ c ∈ changed, base.Plain c.1) :
    (∀ c ∈ [(Heap.globals, "dofile"), (Heap.globals, "loadfile"), (Heap.stringLibrary, "dump")],
      (finished base cell name f g).get c.1 (.ofAscii c.2) = .nil) ∧
      (finished base cell name f g).get Heap.globals (.ofAscii "load") =
        .closure base.closures.size := by
  have globals : ((base.newCell f).2.newCell g).2.Plain Heap.globals :=
    plain (Heap.globals, "load") (by decide)
  have strings : ((base.newCell f).2.newCell g).2.Plain Heap.stringLibrary :=
    plain (Heap.stringLibrary, "dump") (by decide)
  have last : ((cleared base f g).newClosure ⟨guarded, scope base cell f, name⟩).2.Plain
      Heap.globals :=
    ((globals.set _ _ _).set _ _ _).set _ _ _
  have load : (finished base cell name f g).get Heap.globals (.ofAscii "load") =
      .closure base.closures.size :=
    Heap.get_set_self last rfl _
  refine ⟨fun c mem => ?_, load⟩
  have below : (finished base cell name f g).get c.1 (.ofAscii c.2) =
      (cleared base f g).get c.1 (.ofAscii c.2) :=
    Heap.get_set_of_ne last rfl _ (by revert c; decide)
  rw [below, cleared]
  simp only [List.mem_cons, List.not_mem_nil, or_false] at mem
  rcases mem with rfl | rfl | rfl
  · rw [Heap.get_set_of_ne ((strings.set _ _ _).set _ _ _) rfl _ (by decide),
      Heap.get_set_of_ne (globals.set _ _ _) rfl _ (by decide), Heap.get_set_self globals rfl]
  · rw [Heap.get_set_of_ne ((strings.set _ _ _).set _ _ _) rfl _ (by decide),
      Heap.get_set_self (globals.set _ _ _) rfl]
  · rw [Heap.get_set_self ((strings.set _ _ _).set _ _ _) rfl]

end SandboxChunk
end Lua

namespace Interpreter

def routineHeap : Heap := Library.initialHeap.loaded SandboxChunk.chunk "sandbox"

def routineCell : CellId := Library.initialHeap.cells.size

def finishedHeap : Heap :=
  SandboxChunk.finished routineHeap routineCell (Chunk.shownName "sandbox".toUTF8)
    (.builtin .load) (.builtin .select)

theorem routineCell_bound : routineHeap.cells[routineCell]? = some (.table Heap.globals) :=
  Library.initialHeap.bound_loaded SandboxChunk.chunk "sandbox"

theorem get_routineHeap : routineHeap.get = Library.initialHeap.get :=
  Heap.get_of_tables (Library.initialHeap.tables_loaded SandboxChunk.chunk "sandbox")

theorem plain_routineHeap : ∀ c ∈ SandboxChunk.changed, routineHeap.Plain c.1 := by
  have tables := Library.initialHeap.tables_loaded SandboxChunk.chunk "sandbox"
  have globals : routineHeap.Plain Heap.globals :=
    ⟨_, (congrArg (·[Heap.globals]?) tables).trans Library.stored_basic,
      Library.metatable_tableOf _⟩
  have strings : routineHeap.Plain Heap.stringLibrary :=
    ⟨_, (congrArg (·[Heap.stringLibrary]?) tables).trans Library.stored_strings,
      Library.metatable_tableOf _⟩
  simp [SandboxChunk.changed, globals, strings]

theorem exec_routine : SandboxChunk.Stage routineHeap finishedHeap ∧
    ∃ env, execList ⟨[routineCell], [], Chunk.shownName "sandbox".toUTF8⟩
      SandboxChunk.chunk.body routineHeap =
      .done (.next env) finishedHeap := by
  have closed := Library.closed_initialHeap.loaded SandboxChunk.chunk "sandbox"
  have entry : ∀ name, routineHeap.get Heap.globals (.ofAscii name) =
      ((Library.basic.reverse.find? fun e => (Value.ofAscii name).toKey == .ofAscii e.1).map
        (·.2)).getD .nil := fun name => by
    rw [get_routineHeap, Heap.get_eq Library.stored_basic, Library.get_tableOf]
  exact SandboxChunk.exec_chunk routineCell_bound ((entry "load").trans (by decide +kernel)) rfl rfl
    ((entry "select").trans (by decide +kernel))
    rfl rfl ((entry "string").trans (by decide +kernel)) plain_routineHeap closed _

theorem get_finishedHeap :
    (∀ c ∈ [(Heap.globals, "dofile"), (Heap.globals, "loadfile"), (Heap.stringLibrary, "dump")],
      finishedHeap.get c.1 (.ofAscii c.2) = .nil) ∧
      finishedHeap.get Heap.globals (.ofAscii "load") = .closure routineHeap.closures.size :=
  SandboxChunk.get_finished plain_routineHeap

theorem preparedHeap_eq : preparedHeap = finishedHeap := by
  obtain ⟨-, env, run⟩ := exec_routine
  have load : (⟨Library.initialHeap, []⟩ : Stack).load Routine.sandbox.toUTF8 "sandbox" =
      (.ok (), ⟨routineHeap, [.closure Library.initialHeap.closures.size]⟩) :=
    Stack.load_loaded SandboxChunk.read_sandbox (by decide) Library.initialHeap []
  have enters : (routineHeap.closure Library.initialHeap.closures.size).enter [] routineHeap =
      .done (.next env) finishedHeap := by
    have stored : routineHeap.closures[Library.initialHeap.closures.size]? =
        some ⟨SandboxChunk.chunk, [routineCell], Chunk.shownName "sandbox".toUTF8⟩ :=
      Library.initialHeap.stored_loaded SandboxChunk.chunk "sandbox"
    rw [Heap.closure_eq stored]
    exact (enter_variadic _ _ _ [] _).trans run
  let alone : Surroundings Empty Id := ⟨[], fun _ _ => failure⟩
  let call := Machine.ofCall (.outermost routineHeap.circumstances.callLimit)
    (.closure Library.initialHeap.closures.size) [] routineHeap
  have entered : ∀ fuel, alone.drive (fuel + 2) call = alone.drive fuel
      ⟨call.frames, call.depth,
        .step ((routineHeap.closure Library.initialHeap.closures.size).enter [] routineHeap)⟩ :=
    fun _ => rfl
  have ended : ∀ fuel,
      alone.drive (fuel + 2) ⟨call.frames, call.depth, .step (.done (.next env) finishedHeap)⟩ =
      pure (.finished [] finishedHeap) := fun _ => rfl
  have ends : (alone.drive preparationFuel call).run = some (.finished [] finishedHeap) := by
    rw [show preparationFuel = 996 + 2 + 2 from rfl, entered, enters, ended]
    rfl
  unfold preparedHeap
  rw [load]
  dsimp only
  rw [ends]

/-- Preparation keeps all entries of the library but the four that it changes, and
leaves a closed heap, in which the outer variable of the routine is the first. -/
theorem preparedHeap_spec :
    (∀ id key, SandboxChunk.Kept id key → preparedHeap.get id key =
      Library.initialHeap.get id key) ∧
      (∀ c ∈ SandboxChunk.changed, preparedHeap.Plain c.1) ∧ preparedHeap.Closed ∧
      preparedHeap.cells[Library.initialHeap.cells.size]? = some (.table Heap.globals) := by
  obtain ⟨stage, -⟩ := exec_routine
  rw [preparedHeap_eq]
  refine ⟨fun id key kept =>
    (stage.kept id key kept).trans (congrFun (congrFun get_routineHeap id) key), stage.plain,
    stage.closed, ?_⟩
  have binds :=
    SandboxChunk.binds_scope (f := .builtin .load) (g := .builtin .select) routineCell_bound
  exact (List.forall₂_cons.1 (List.forall₂_cons.1 (List.forall₂_cons.1 binds).2).2).1

theorem get_preparedHeap {id : TableId} {key : Value} (kept : SandboxChunk.Kept id key) :
    preparedHeap.get id key = Library.initialHeap.get id key := preparedHeap_spec.1 id key kept

theorem global_preparedHeap (name : String)
    (kept : SandboxChunk.Kept Heap.globals (.ofAscii name)) :
    preparedHeap.get Heap.globals (.ofAscii name) =
      ((Library.basic.reverse.find? fun e => (Value.ofAscii name).toKey == .ofAscii e.1).map
        (·.2)).getD .nil := by
  rw [get_preparedHeap kept, Heap.get_eq Library.stored_basic, Library.get_tableOf]

theorem plain_preparedHeap : preparedHeap.Plain Heap.globals :=
  preparedHeap_spec.2.1 (Heap.globals, "load") (by decide)

theorem closed_preparedHeap : preparedHeap.Closed := preparedHeap_spec.2.2.1

theorem collector_preparedHeap : preparedHeap.collector = {} := by
  rw [preparedHeap_eq]
  rfl

theorem silent_preparedHeap : preparedHeap.output = bytes [] := by
  rw [preparedHeap_eq]
  rfl

theorem intact_preparedHeap : preparedHeap.Intact := by
  have intact := Library.intact_initialHeap
  constructor <;> rw [get_preparedHeap (by decide)]
  exacts [intact.type, intact.tostring, intact.pairs, intact.string, intact.table, intact.byte,
    intact.format, intact.gsub, intact.concat, intact.sort]

end Interpreter
end SealedLua
