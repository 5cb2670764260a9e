import SealedLua.Lua.Library.Base
import SealedLua.Proofs.Lua.Tables

/-!
# What scripts cannot get at

Scripts reach values through tables, variables in scope, arguments and results.
A confinement says which values they may hold, and which variables and functions
of a heap are kept from them.  In a heap for which a confinement holds, whatever
scripts can reach may be held by them, and what is kept from them is still as it
was.  Here the changes of a heap are shown to keep it so; each of them is
something that scripts do.
-/

namespace SealedLua.Lua

/-- The values that scripts may hold, the variables and functions that are kept from
them, and the circumstances they may be in.  All data may be held, and all functions
that scripts make or that come out of the basic functions. -/
structure Confinement where
  free : Value → Prop
  cells : CellId → Option Value
  closures : ClosureId → Option Closure
  admits : Circumstances → Prop := fun _ => True
  data {v : Value} : v.isFunction = false → free v
  matcher (id : MatcherId) : free (.matcher id)
  made {id : ClosureId} : closures id = none → free (.closure id)
  next : free (.builtin .next)
  ipairsNext : free (.builtin .ipairsNext)
  codesNext (lax : Bool) : free (.builtin (.utf8CodesNext lax))
  /-- An address outside a scope stands for the first variable. -/
  firstCell : cells 0 = none

namespace Confinement

variable (C : Confinement)

def Frees (vs : List Value) : Prop := ∀ v ∈ vs, C.free v

section Data

@[simp] theorem free_nil : C.free .nil := C.data rfl

@[simp] theorem free_boolean (b : Bool) : C.free (.boolean b) := C.data rfl

@[simp] theorem free_integer (n : Int64) : C.free (.integer n) := C.data rfl

@[simp] theorem free_double (x : Double) : C.free (.double x) := C.data rfl

@[simp] theorem free_string (s : ByteArray) : C.free (.string s) := C.data rfl

@[simp] theorem free_table (id : TableId) : C.free (.table id) := C.data rfl

@[simp] theorem free_matcher (id : MatcherId) : C.free (.matcher id) := C.matcher id

@[simp] theorem free_failure (e : Failure) : C.free (.failure e) := C.data rfl

@[simp] theorem free_ofNat (n : Nat) : C.free (.ofNat n) := C.data rfl

@[simp] theorem free_ofAscii (text : String) : C.free (.ofAscii text) := C.data rfl

@[simp] theorem free_ofText (text : String) : C.free (.ofText text) := C.data rfl

@[simp] theorem free_ofNumber (n : Number) : C.free (.ofNumber n) := C.data (by cases n <;> rfl)

@[simp] theorem free_ofLiteral (l : Literal) : C.free (.ofLiteral l) := by
  cases l with
  | number n => exact C.free_ofNumber n
  | _ => exact C.data rfl

variable {C} {v : Value} {vs ws : List Value}

@[simp] theorem frees_nil : C.Frees [] := List.forall_mem_nil _

@[simp] theorem frees_cons : C.Frees (v :: vs) ↔ C.free v ∧ C.Frees vs := List.forall_mem_cons

theorem frees_append (hv : C.Frees vs) (hw : C.Frees ws) : C.Frees (vs ++ ws) :=
  List.forall_mem_append.2 ⟨hv, hw⟩

theorem frees_reverse (h : C.Frees vs) : C.Frees vs.reverse :=
  fun v mem => h v (List.mem_reverse.1 mem)

theorem frees_drop (h : C.Frees vs) (n : Nat) : C.Frees (vs.drop n) :=
  fun v mem => h v (List.mem_of_mem_drop mem)

theorem frees_take (h : C.Frees vs) (n : Nat) : C.Frees (vs.take n) :=
  fun v mem => h v (List.mem_of_mem_take mem)

theorem frees_replicate (n : Nat) : C.Frees (List.replicate n .nil) := by
  intro v mem
  rw [(List.mem_replicate.1 mem).2]
  exact C.free_nil

theorem frees_adjust (h : C.Frees vs) (count : Nat) : C.Frees (adjust count vs) :=
  frees_append (frees_take h count) (frees_replicate _)

theorem free_headD (h : C.Frees vs) : C.free (vs.headD .nil) := by
  cases vs with
  | nil => exact C.free_nil
  | cons v vs => exact h v (.head _)

end Data

/-- A table that holds only what scripts may hold, among its keys as well. -/
def SafeTable (t : Table) : Prop := ∀ k, (t.get k).isNil = false → C.free k ∧ C.free (t.get k)

variable {C} {t : Table}

namespace SafeTable

theorem empty : C.SafeTable .empty := by
  intro k there
  rw [Table.get_empty] at there
  cases there

theorem get (safe : C.SafeTable t) (k : Value) : C.free (t.get k) := by
  cases there : (t.get k).isNil with
  | true =>
    rw [Value.eq_nil_of_isNil there]
    exact C.free_nil
  | false => exact (safe k there).2

/-- Of two values that are the same key, one may be held if the other may. -/
theorem free_of_toKey {k l : Value} (same : l.toKey = k.toKey) (free : C.free k) : C.free l := by
  cases function : l.isFunction with
  | false => exact C.data function
  | true =>
    have key : l.toKey = l := by cases l <;> first | rfl | cases function
    have same_key : k = l := by
      rw [key] at same
      cases k with
      | double x =>
        rw [same, Value.toKey] at function
        split at function <;> cases function
      | _ => exact same.symm
    exact same_key ▸ free

theorem set (safe : C.SafeTable t) {k v : Value} (key : C.free k) (value : C.free v) :
    C.SafeTable (t.set k v) := by
  have entries : ∀ l, (t.set k v).get l = t.get l ∨ l.toKey = k.toKey ∧ (t.set k v).get l = v := by
    intro l
    have put : ∀ u : Table, (∀ l, u.look l = t.look l) →
        (u.put k.toKey v).look l.toKey = t.get l ∨ l.toKey = k.toKey ∧
          (u.put k.toKey v).look l.toKey = v := by
      intro u same
      rw [Table.look_put]
      split
      · next h => exact .inr ⟨h.1, rfl⟩
      · exact .inl (same _)
    unfold Table.get Table.set
    simp only
    split
    · exact put t fun _ => rfl
    · split
      · exact .inl rfl
      · split
        · exact put t fun _ => rfl
        · exact put (t.grown k.toKey) fun l => Table.look_resized _ _ _
  intro l there
  rcases entries l with old | ⟨same, new⟩
  · rw [old] at there ⊢
    exact safe l there
  · rw [new]
    exact ⟨free_of_toKey same key, value⟩

theorem resized (safe : C.SafeTable t) (size spare : Nat) : C.SafeTable (t.resized size spare) := by
  intro k there
  rw [Table.get, Table.look_resized] at there ⊢
  exact safe k there

theorem entryAfter? (safe : C.SafeTable t) {rank : Option (ByteArray → Nat)} {key k v : Value}
    (found : t.entryAfter? rank key = some (some (k, v))) : C.free k ∧ C.free v := by
  obtain ⟨-, there, rfl⟩ := t.mem_live_iff_get.1 (t.mem_live_of_entryAfter? rank found)
  exact safe k there

end SafeTable

variable (C) in
/-- Whether a scope has none of the variables that are kept from scripts. -/
def Open (scope : List CellId) : Prop := ∀ cell ∈ scope, C.cells cell = none

variable (C) in
/-- What scripts can reach in the heap they may hold, and what is kept from them is there. -/
structure Holds (h : Heap) : Prop where
  kept {id : CellId} {v : Value} : C.cells id = some v → h.cells[id]? = some v
  cells {id : CellId} {v : Value} : C.cells id = none → h.cells[id]? = some v → C.free v
  keptClosures {id : ClosureId} {c : Closure} : C.closures id = some c → h.closures[id]? = some c
  closures {id : ClosureId} {c : Closure} : C.closures id = none → h.closures[id]? = some c →
    C.Open c.scope
  tables {id : TableId} {t : Table} : h.tables[id]? = some t → C.SafeTable t
  globals : Heap.globals < h.tables.size
  circumstances : C.admits h.circumstances

namespace Holds

variable {h : Heap} (holds : C.Holds h)

include holds

theorem cell {id : CellId} (reached : C.cells id = none) : C.free (h.cell id) := by
  rw [Heap.cell]
  cases found : h.cells[id]? with
  | none => exact C.free_nil
  | some v => exact holds.cells reached found

theorem table (id : TableId) : C.SafeTable (h.table id) := by
  rw [Heap.table]
  cases found : h.tables[id]? with
  | none => exact .empty
  | some t => exact holds.tables found

/-- A function that scripts have made sees none of the variables that are kept from them. -/
theorem closure {id : ClosureId} (made : C.closures id = none) : C.Open (h.closure id).scope := by
  rw [Heap.closure]
  cases found : h.closures[id]? with
  | none => exact fun _ => nofun
  | some c => exact holds.closures made found

theorem get (id : TableId) (key : Value) : C.free (h.get id key) := (holds.table id).get key

theorem metamethod (v : Value) (event : ByteArray) : C.free (h.metamethod v event) := by
  unfold Heap.metamethod
  split
  · exact holds.get _ _
  · exact C.free_nil

theorem newCell_open : C.cells h.cells.size = none := by
  cases kept : C.cells h.cells.size with
  | none => rfl
  | some v => simpa using holds.kept kept

theorem newClosure_made : C.closures h.closures.size = none := by
  cases kept : C.closures h.closures.size with
  | none => rfl
  | some c => simpa using holds.keptClosures kept

theorem newCell {v : Value} (free : C.free v) : C.Holds (h.newCell v).2 :=
  { holds with
    kept := fun {id w} kept => by
      have there := holds.kept kept
      have inside := (Array.getElem?_eq_some_iff.1 there).1
      simpa only [Heap.newCell, Array.getElem?_push_lt inside,
        Array.getElem?_eq_getElem inside] using there
    cells := fun {id w} reached found => by
      simp only [Heap.newCell, Array.getElem?_push] at found
      split at found
      · cases found
        exact free
      · exact holds.cells reached found }

theorem setCell {id : CellId} {v : Value} (reached : C.cells id = none) (free : C.free v) :
    C.Holds (h.setCell id v) :=
  { holds with
    kept := fun {j w} kept => by
      have other : id ≠ j := by
        rintro rfl
        rw [reached] at kept
        cases kept
      simpa only [Heap.setCell, Array.set!_eq_setIfInBounds, Array.getElem?_setIfInBounds_ne other]
        using holds.kept kept
    cells := fun {j w} reached found => by
      simp only [Heap.setCell, Array.set!_eq_setIfInBounds, Array.getElem?_setIfInBounds] at found
      split at found
      · split at found
        · cases found
          exact free
        · cases found
      · exact holds.cells reached found }

theorem modifyTable {f : Table → Table} (id : TableId)
    (safe : ∀ t, C.SafeTable t → C.SafeTable (f t)) :
    C.Holds { h with tables := h.tables.modify id f } :=
  { holds with
    tables := fun {j t} found => by
      simp only [Array.getElem?_modify] at found
      split at found
      · obtain ⟨u, there, rfl⟩ := Option.map_eq_some_iff.1 found
        exact safe u (holds.tables there)
      · exact holds.tables found
    globals := by simpa only [Array.size_modify] using holds.globals }

theorem set (id : TableId) {key v : Value} (key_free : C.free key) (free : C.free v) :
    C.Holds (h.set id key v) :=
  holds.modifyTable id fun _ safe => safe.set key_free free

theorem newTable {t : Table} (safe : C.SafeTable t) : C.Holds (h.newTable t).2 :=
  { holds with
    tables := fun {id u} found => by
      simp only [Heap.newTable, Array.getElem?_push] at found
      split at found
      · cases found
        exact safe
      · exact holds.tables found
    globals := by
      simp only [Heap.newTable, Array.size_push]
      exact Nat.lt_succ_of_lt holds.globals }

theorem newClosure {c : Closure} (reached : C.Open c.scope) : C.Holds (h.newClosure c).2 :=
  { holds with
    keptClosures := fun {id d} kept => by
      have there := holds.keptClosures kept
      have inside := (Array.getElem?_eq_some_iff.1 there).1
      simpa only [Heap.newClosure, Array.getElem?_push_lt inside,
        Array.getElem?_eq_getElem inside] using there
    closures := fun {id d} made found => by
      simp only [Heap.newClosure, Array.getElem?_push] at found
      split at found
      · cases found
        exact reached
      · exact holds.closures made found }

theorem newMatcher (m : Matcher) : C.Holds (h.newMatcher m).2 := { holds with }

theorem setMatcher (id : MatcherId) (m : Matcher) : C.Holds (h.setMatcher id m) := { holds with }

theorem newFailure (message : String) : C.Holds (h.newFailure message).2 := { holds with }

theorem pass {v : Value} (free : C.free v) : C.free (h.pass v).1 ∧ C.Holds (h.pass v).2 := by
  cases v with
  | failure f => exact ⟨C.free_failure _, holds.newFailure f.message⟩
  | _ => exact ⟨free, holds⟩

theorem under {circumstances : Circumstances} (admitted : C.admits circumstances) :
    C.Holds (h.under circumstances) :=
  { holds with circumstances := admitted }

theorem withCollector (f : Collector → Collector) : C.Holds (h.withCollector f) := { holds with }

theorem print (text : ByteArray) : C.Holds (h.print text) := { holds with }

theorem flushed : C.Holds h.flushed := { holds with }

theorem mark (id : TableId) (metatable : Option TableId) : C.Holds (h.mark id metatable) := by
  unfold Heap.mark
  split
  · split
    · exact holds
    · exact holds.withCollector _
  · exact holds

theorem loadChunk (source name : ByteArray) {environment : Value} (free : C.free environment) :
    (∀ f, (h.loadChunk source name environment).1 = .ok f → C.free f) ∧
      C.Holds (h.loadChunk source name environment).2 := by
  unfold Heap.loadChunk
  cases Chunk.read source with
  | error e => exact ⟨nofun, holds⟩
  | ok f =>
    have bound := holds.newCell free
    refine ⟨fun g made => ?_, bound.newClosure fun cell mem => ?_⟩
    · cases made
      exact C.made bound.newClosure_made
    · rw [List.mem_singleton.1 mem]
      exact holds.newCell_open

omit holds in
theorem passAll {vs : List Value} (frees : C.Frees vs) {h : Heap} (holds : C.Holds h) :
    C.Frees (h.passAll vs).1 ∧ C.Holds (h.passAll vs).2 := by
  induction vs generalizing h with
  | nil => exact ⟨frees_nil, holds⟩
  | cons v vs ih =>
    have both := frees_cons.1 frees
    have first := holds.pass both.1
    have rest := ih both.2 first.2
    exact ⟨frees_cons.2 ⟨first.1, rest.1⟩, rest.2⟩

end Holds
end Confinement
end SealedLua.Lua
