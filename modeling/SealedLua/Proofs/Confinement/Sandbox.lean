import SealedLua.Proofs.Confinement.Interpreters
import SealedLua.Proofs.Engine.GuardedLoad

/-!
# What the sandbox keeps

Preparation takes four functions of the library out of the reach of scripts.  One of
them is still called, by the function that stands in its place; the variable that holds
it is in the scope of that function alone.
-/

namespace SealedLua.Lua.Confinement

open SandboxChunk DumpChunk Interpreter

def forbidden : List Builtin := [.dofile, .loadfile, .stringDump, .load]

def loadCell : CellId := routineHeap.cells.size

def selectCell : CellId := (routineHeap.newCell (.builtin .load)).2.cells.size

/-- The function that stands in the place of the base `load`. -/
def guardedClosure : Closure :=
  ⟨guarded, [selectCell, loadCell, routineCell], Chunk.shownName "sandbox".toUTF8⟩

/-- Keeps the four functions from scripts, and the variables of the one that calls the
base `load` as they are. -/
def sandbox : Confinement where
  free v := ∀ b ∈ forbidden, v ≠ .builtin b
  cells i := if i = loadCell then some (.builtin .load)
    else if i = selectCell then some (.builtin .select) else none
  closures i := if i = routineHeap.closures.size then some guardedClosure else none
  data := by
    rintro _ function b - rfl
    cases function
  matcher _ := fun _ _ => nofun
  made _ := fun _ _ => nofun
  next := by decide
  ipairsNext := by decide
  codesNext lax := by cases lax <;> decide
  firstCell := rfl

@[simp] theorem cells_loadCell : sandbox.cells loadCell = some (.builtin .load) := rfl

@[simp] theorem cells_selectCell : sandbox.cells selectCell = some (.builtin .select) := rfl

theorem closures_guarded : sandbox.closures routineHeap.closures.size = some guardedClosure := rfl

theorem cells_routineCell : sandbox.cells routineCell = none := rfl

section Guarded

variable {h : Heap} (holds : sandbox.Holds h)

include holds

theorem binds_sandbox :
    ∃ v, h.Binds guardedClosure.scope [.builtin .select, .builtin .load, v] := by
  have load := holds.kept cells_loadCell
  have inside : routineCell < h.cells.size :=
    Nat.lt_trans (show routineCell < loadCell by decide) (Array.getElem?_eq_some_iff.1 load).1
  exact ⟨h.cells[routineCell],
    .cons (holds.kept cells_selectCell)
    (.cons load (.cons (Array.getElem?_eq_getElem inside) .nil))⟩

theorem holds_entered {args : List Value} (frees : sandbox.Frees args) :
    sandbox.Holds (entered h args) := by
  obtain ⟨x, y, z, three⟩ := List.length_eq_three.1 (length_adjust 3 args)
  have all := frees_adjust frees 3
  rw [three] at all
  obtain ⟨hx, hy, hz⟩ : sandbox.free x ∧ sandbox.free y ∧ sandbox.free z := by simpa using all
  rw [entered_eq three]
  exact ((holds.newCell hx).newCell hy).newCell hz

theorem cells_parameter (args : List Value) {i : Nat} (own : i < 3) :
    sandbox.cells
      (((parameters h guardedClosure.scope args guardedClosure.chunk).scope[i]?).getD 0) =
        none := by
  have beyond : ∀ {id}, h.cells.size ≤ id → sandbox.cells id = none := by
    intro id later
    cases kept : sandbox.cells id with
    | none => rfl
    | some v => exact absurd (Array.getElem?_eq_some_iff.1 (holds.kept kept)).1 (Nat.not_lt.2 later)
  match i, own with
  | 0, _ => exact beyond (Nat.le_add_right _ _)
  | 1, _ => exact beyond (Nat.le_add_right _ _)
  | 2, _ => exact beyond (Nat.le_refl _)

end Guarded

section Runs

variable {h : Heap} (holds : sandbox.Holds h) {args : List Value} (frees : sandbox.Frees args)

include holds

theorem safe_handsOver (line : Nat) {others : List Expr} {vs : List Value} (rest : sandbox.Frees vs)
    (given : ∀ h₁, evalList (parameters h guardedClosure.scope args guardedClosure.chunk)
      (text "t" :: others) h₁ =
      .done (.ofAscii "t" :: vs) h₁) :
    sandbox.SafeAction sandbox.SafeFlow
      (exec (parameters h guardedClosure.scope args guardedClosure.chunk)
        (handsOver others line)) := by
  intro h₁ holds₁
  have load : h₁.cell loadCell = .builtin .load := by
    rw [Heap.cell, holds₁.kept cells_loadCell, Option.getD_some]
  rw [exec_handsOver (given h₁)]
  refine .done ⟨.inr ⟨.load, load⟩, ?_⟩ holds₁
  have chunk := holds₁.cell (cells_parameter holds args (show 2 < 3 by decide))
  have name := holds₁.cell (cells_parameter holds args (show 1 < 3 by decide))
  exact frees_cons.2 ⟨chunk, frees_cons.2 ⟨name, frees_cons.2 ⟨sandbox.free_ofAscii "t", rest⟩⟩⟩

include frees

theorem safe_afterCount {count : Value} (free : sandbox.free count) :
    sandbox.SafeAction sandbox.SafeFlow
      (afterCount (parameters h guardedClosure.scope args guardedClosure.chunk) count) := by
  refine (SafeAction.compare _ free (sandbox.free_integer 0) .gt).bind fun more _ => ?_
  cases more with
  | true => exact safe_handsOver holds 12 (frees_drop frees 3) fun _ => evalList_modeAndRest
  | false => exact safe_handsOver holds 14 frees_nil fun _ => evalList_modeOnly

end Runs

theorem guarded_sandbox : sandbox.Guarded := by
  intro id c kept _ args frees h holds
  obtain ⟨-, rfl⟩ : id = routineHeap.closures.size ∧ guardedClosure = c := by
    simpa [sandbox] using kept
  obtain ⟨v, binds⟩ := binds_sandbox holds
  have count : sandbox.SafeCall
      (asked (parameters h guardedClosure.scope args guardedClosure.chunk)) :=
    ⟨.inr ⟨.select, rfl⟩, frees_cons.2 ⟨sandbox.free_ofAscii "#", frees_drop frees 3⟩⟩
  rw [show guardedClosure.enter args h = _ from enter_guarded binds args]
  exact .call count (holds_entered holds frees) fun vs h₁ results holds₁ =>
    safe_afterCount holds frees (free_headD results) h₁ holds₁

/-- What preparation leaves of a library is in the reach of scripts if that holds for
all functions but the ones that it takes out. -/
theorem free_library {id : TableId} {entries : List (String × Value)}
    (stored : Library.initialHeap.tables[id]? = some (Library.tableOf entries))
    (others : ∀ e ∈ entries, (∀ b ∈ forbidden, e.2 ≠ .builtin b) ∨ (id, e.1) ∈ changed)
    {k : Value} (kept : Kept id k) (there : (Library.initialHeap.get id k).isNil = false) :
    sandbox.free k ∧ sandbox.free (Library.initialHeap.get id k) := by
  rw [Heap.get_eq stored, Library.get_tableOf] at there ⊢
  cases found : entries.reverse.find? fun e => k.toKey == .ofAscii e.1 with
  | none =>
    rw [found] at there
    cases there
  | some e =>
    have key : k.toKey = .ofAscii e.1 := by simpa using List.find?_some found
    have mem : e ∈ entries := List.mem_reverse.1 (List.mem_of_find?_eq_some found)
    refine ⟨SafeTable.free_of_toKey (k := .ofAscii e.1) key (sandbox.free_ofAscii e.1), ?_⟩
    exact (others e mem).resolve_right fun listed => kept _ listed (congrArg (Prod.mk id) key)

/-- Entries of the library are in the reach of scripts unless preparation changes them. -/
theorem free_initialHeap {id : TableId} {k : Value} (kept : Kept id k)
    (there : (Library.initialHeap.get id k).isNil = false) :
    sandbox.free k ∧ sandbox.free (Library.initialHeap.get id k) := by
  rcases id with _ | _ | _ | _ | _ | _ | id
  · exact free_library Library.stored_basic (by decide +kernel) kept there
  · exact free_library Library.stored_strings (by decide +kernel) kept there
  · exact free_library Library.stored_tables (by decide +kernel) kept there
  · exact free_library Library.stored_mathematics (by decide +kernel) kept there
  · exact free_library Library.stored_utf8 (by decide +kernel) kept there
  · exact free_library Library.stored_stringMetatable (by decide +kernel) kept there
  · have absent : Library.initialHeap.get (id + 6) k = .nil := Table.get_empty k
    rw [absent] at there
    cases there

theorem cells_finishedHeap :
    finishedHeap.cells = #[.table Heap.globals, .builtin .load, .builtin .select] := rfl

theorem closures_finishedHeap : finishedHeap.closures = routineHeap.closures.push guardedClosure :=
  rfl

/-- The routine puts nothing in the place of what it takes away but its own function. -/
theorem safeTable_finishedHeap {id : TableId} {t : Table}
    (found : finishedHeap.tables[id]? = some t) : sandbox.SafeTable t := by
  obtain ⟨stage, -⟩ := exec_routine
  obtain ⟨removed, load⟩ := get_finishedHeap
  intro k there
  rw [← Heap.get_eq found] at there ⊢
  by_cases kept : Kept id k
  · rw [stage.kept id k kept, get_routineHeap] at there ⊢
    exact free_initialHeap kept there
  · obtain ⟨⟨i, name⟩, listed, same⟩ : ∃ c ∈ changed, (id, k.toKey) = (c.1, .ofAscii c.2) := by
      simpa [Kept] using kept
    obtain ⟨rfl, key⟩ := Prod.mk.inj same
    have entry : finishedHeap.get id k = finishedHeap.get id (.ofAscii name) :=
      congrArg (finishedHeap.table id).look key
    refine ⟨SafeTable.free_of_toKey (k := .ofAscii name) key (sandbox.free_ofAscii name), ?_⟩
    rw [entry]
    simp only [changed, List.mem_cons, List.not_mem_nil, or_false, Prod.mk.injEq] at listed
    -- Three of the entries are gone, and the last one is a function that scripts may call.
    have gone : (id, name) ∈ _ → sandbox.free (finishedHeap.get id (.ofAscii name)) := fun mem => by
      rw [show finishedHeap.get id (.ofAscii name) = .nil from removed _ mem]
      exact sandbox.free_nil
    rcases listed with ⟨rfl, rfl⟩ | ⟨rfl, rfl⟩ | ⟨rfl, rfl⟩ | ⟨rfl, rfl⟩
    · exact gone (by decide)
    · exact gone (by decide)
    · exact gone (by decide)
    · rw [show finishedHeap.get _ _ = _ from load]
      intro b _ closure
      cases closure

theorem holds_preparedHeap : sandbox.Holds preparedHeap := by
  rw [preparedHeap_eq]
  refine ⟨fun {id v} kept => ?_, fun {id v} other found => ?_, fun {id c} kept => ?_,
    fun {id c} other found => ?_,
    safeTable_finishedHeap, ?_, trivial⟩
  · simp only [sandbox] at kept
    split at kept
    · next same => rw [same, ← kept]; rfl
    · obtain ⟨same, value⟩ := Option.ite_none_right_eq_some.1 kept
      rw [same, ← value]
      rfl
  · rw [cells_finishedHeap] at found
    match id, other, found with
    | 0, _, found =>
      cases found
      exact sandbox.free_table _
    | 1, other, _ => cases other
    | 2, other, _ => cases other
  · obtain ⟨same, code⟩ := Option.ite_none_right_eq_some.1 kept
    rw [same, ← code, closures_finishedHeap, Array.getElem?_push_size]
  · have later : id ≠ routineHeap.closures.size := fun same => by simp [sandbox, same] at other
    rw [closures_finishedHeap, Array.getElem?_push, if_neg later] at found
    match id, found with
    | 0, found =>
      cases found
      intro cell mem
      rw [List.mem_singleton.1 mem]
      exact cells_routineCell
  · obtain ⟨t, stored, -⟩ := exec_routine.1.plain (Heap.globals, "load") (by decide)
    exact (Array.getElem?_eq_some_iff.1 stored).1

end SealedLua.Lua.Confinement
