import SealedLua.Lua.Library
import SealedLua.Proofs.Renaming.Steps

/-!
# Objects that nothing refers to

A heap is closed if nothing in it refers to an object that is not there, so a
renaming that moves none of its objects changes nothing in it.  A closed heap
corresponds to itself with any functions and variables added to it.
-/

namespace SealedLua.Lua

namespace Renaming

/-- A renaming that leaves the objects of a heap where they are. -/
structure Spares (ρ : Renaming) (h : Heap) : Prop where
  cells : ∀ i < h.cells.size, ρ.cell i = i
  tables : ∀ i < h.tables.size, ρ.table i = i
  closures : ∀ i < h.closures.size, ρ.closure i = i
  matchers : ∀ i < h.matchers.size, ρ.matcher i = i
  failures : ∀ i < h.failures, ρ.failure i = i

/-- A renaming that changes nothing in a heap. -/
structure Fixes (ρ : Renaming) (h : Heap) : Prop where
  cells : ∀ {i : Nat} {v : Value}, h.cells[i]? = some v → ρ.value v = v
  tables : ∀ {i : Nat} {t : Table}, h.tables[i]? = some t → ρ.SameTable t t
  closures : ∀ {i : Nat} {c : Closure}, h.closures[i]? = some c → ρ.closureOf c = c

end Renaming

/-- Whether a value refers to nothing outside the libraries. -/
def Value.isFixed : Value → Bool
  | .table id => decide (id ≤ Heap.stringMetatable)
  | .closure _ | .matcher _ | .failure _ => false
  | _ => true

theorem Renaming.value_of_isFixed (ρ : Renaming) {v : Value} (fixed : v.isFixed = true) :
    ρ.value v = v := by
  cases v with
  | table id => exact congrArg Value.table (ρ.library id (of_decide_eq_true fixed))
  | closure | matcher | failure => cases fixed
  | _ => rfl

open Renaming

namespace Heap

/-- Whatever leaves the objects of the heap where they are does not change the value. -/
def Holds (h : Heap) (v : Value) : Prop := ∀ ρ : Renaming, ρ.Spares h → ρ.value v = v

/-- Nothing in the heap refers to an object that is not there. -/
def Closed (h : Heap) : Prop := ∀ ρ : Renaming, ρ.Spares h → ρ.Fixes h

namespace Closed

variable {h : Heap} (closed : h.Closed)

include closed

theorem under (circumstances : Circumstances) : (h.under circumstances).Closed := by
  intro ρ spares
  have fixed :=
    closed ρ ⟨spares.cells, spares.tables, spares.closures, spares.matchers, spares.failures⟩
  exact ⟨fixed.cells, fixed.tables, fixed.closures⟩

theorem newCell {v : Value} (holds : h.Holds v) : (h.newCell v).2.Closed := by
  intro ρ spares
  have before : ρ.Spares h :=
    { spares with cells := fun i inside =>
      spares.cells i (by simp only [Heap.newCell, Array.size_push]; omega) }
  have fixed := closed ρ before
  refine ⟨fun {i w} found => ?_, fixed.tables, fixed.closures⟩
  simp only [Heap.newCell, Array.getElem?_push] at found
  split at found
  · cases found
    exact holds ρ before
  · exact fixed.cells found

theorem newClosure {c : Closure} (holds : ∀ ρ : Renaming, ρ.Spares h → ρ.closureOf c = c) :
    (h.newClosure c).2.Closed := by
  intro ρ spares
  have before : ρ.Spares h :=
    { spares with closures := fun i inside =>
      spares.closures i (by simp only [Heap.newClosure, Array.size_push]; omega) }
  have fixed := closed ρ before
  refine ⟨fixed.cells, fixed.tables, fun {i d} found => ?_⟩
  simp only [Heap.newClosure, Array.getElem?_push] at found
  split at found
  · cases found
    exact holds ρ before
  · exact fixed.closures found

theorem set (id : TableId) {key v : Value} (key_holds : h.Holds key) (holds : h.Holds v) :
    (h.set id key v).Closed := by
  intro ρ spares
  have before : ρ.Spares h :=
    { spares with tables := fun i inside =>
      spares.tables i (by simpa only [Heap.set, Array.size_modify] using inside) }
  have fixed := closed ρ before
  refine ⟨fixed.cells, fun {i t} found => ?_, fixed.closures⟩
  simp only [Heap.set, Array.getElem?_modify] at found
  split at found
  · obtain ⟨u, there, rfl⟩ := Option.map_eq_some_iff.1 found
    have stored := (fixed.tables there).set key v
    rw [key_holds ρ before, holds ρ before] at stored
    exact stored
  · exact fixed.tables found

end Closed
end Heap

/-- The places from some number on, moved by a distance. -/
def moved (start distance i : Nat) : Nat := if i < start then i else i + distance

theorem moved_injective (start distance : Nat) : Function.Injective (moved start distance) := by
  intro i j same
  unfold moved at same
  split at same <;> split at same <;> omega

theorem moved_of_lt {start i : Nat} (distance : Nat) (inside : i < start) :
    moved start distance i = i := if_pos inside

theorem moved_add (start distance k : Nat) :
    moved start distance (start + k) = start + distance + k := by
  rw [moved, if_neg (by omega)]
  omega

def Heap.joined (h : Heap) (cells : Array Value) (closures : Array Closure) : Heap :=
  { h with cells := h.cells ++ cells, closures := h.closures ++ closures }

theorem Heap.joined_empty (h : Heap) : h.joined #[] #[] = h := by simp [Heap.joined]

namespace Renaming

/-- Makes room for so many variables and functions behind those of a heap. -/
def beyond {h : Heap} (inhabited : 0 < h.cells.size) (cells closures : Nat) : Renaming where
  cell := moved h.cells.size cells
  table := id
  closure := moved h.closures.size closures
  matcher := id
  failure := id
  cell_injective := moved_injective _ _
  table_injective := Function.injective_id
  closure_injective := moved_injective _ _
  matcher_injective := Function.injective_id
  failure_injective := Function.injective_id
  library _ _ := rfl
  firstCell := moved_of_lt _ inhabited

variable {h : Heap} (inhabited : 0 < h.cells.size) (cells : Array Value) (closures : Array Closure)

theorem beyond_spares (n k : Nat) : (beyond inhabited n k).Spares h where
  cells _ inside := moved_of_lt n inside
  tables _ _ := rfl
  closures _ inside := moved_of_lt k inside
  matchers _ _ := rfl
  failures _ _ := rfl

/-- A closed heap corresponds to itself with more variables and functions. -/
theorem SameHeap.joined (closed : h.Closed) (unmarked : h.collector.marked = []) :
    (beyond inhabited cells.size closures.size).SameHeap h (h.joined cells closures) := by
  have spares := beyond_spares inhabited cells.size closures.size
  have fixed := closed _ spares
  refine ⟨⟨fun {i v} found => ?_, fun k => ?_⟩,
    ⟨fun {i t} found => ⟨t, found, fixed.tables found⟩, fun k => rfl⟩,
    ⟨fun {i c} found => ?_, fun k => ?_⟩, ⟨fun {i m} found => ⟨m, found, rfl⟩, fun k => rfl⟩,
    fun k => rfl, rfl, rfl, rfl, unmarked, unmarked⟩
  · have inside := (Array.getElem?_eq_some_iff.1 found).1
    refine ⟨v, ?_, (fixed.cells found).symm⟩
    rw [spares.cells i inside]
    simp only [Heap.joined, Array.getElem?_append_left inside, found]
  · simp only [Heap.joined, Array.size_append]
    exact moved_add _ _ k
  · have inside := (Array.getElem?_eq_some_iff.1 found).1
    refine ⟨c, ?_, (fixed.closures found).symm⟩
    rw [spares.closures i inside]
    simp only [Heap.joined, Array.getElem?_append_left inside, found]
  · simp only [Heap.joined, Array.size_append]
    exact moved_add _ _ k

end Renaming

end SealedLua.Lua
