import SealedLua.Lua.Heap
import SealedLua.Proofs.Lua.Tables
import Mathlib.Data.List.Perm.Basic

/-!
# Data

What a script value says apart from identities: a tree of plain values and
tables.  A heap may share a table between several places of a tree, and keeps
the entries of a table in an order of its own; neither shows in the tree.
-/

namespace SealedLua.Lua

inductive Data where
  | nil
  | boolean (b : Bool)
  | integer (n : Int64)
  | double (x : Double)
  | string (s : ByteArray)
  | table (entries : List (Data × Data))

namespace Data

mutual

/-- How deep tables are nested. -/
def depth : Data → Nat
  | .table entries => depthAll entries + 1
  | _ => 0

def depthAll : List (Data × Data) → Nat
  | [] => 0
  | e :: rest => max (depthEntry e) (depthAll rest)

def depthEntry : Data × Data → Nat
  | (k, v) => max k.depth v.depth

end

mutual

/-- How many entries the widest table has. -/
def width : Data → Nat
  | .table entries => max entries.length (widthAll entries)
  | _ => 0

def widthAll : List (Data × Data) → Nat
  | [] => 0
  | e :: rest => max (widthEntry e) (widthAll rest)

def widthEntry : Data × Data → Nat
  | (k, v) => max k.width v.width

end

variable {entries : List (Data × Data)} {n : Nat}

theorem depthAll_le : depthAll entries ≤ n ↔ ∀ e ∈ entries, e.1.depth ≤ n ∧ e.2.depth ≤ n := by
  induction entries with
  | nil => simp [depthAll]
  | cons e rest ih =>
    obtain ⟨k, v⟩ := e
    rw [depthAll, Nat.max_le, ih, List.forall_mem_cons, depthEntry, Nat.max_le]

theorem widthAll_le : widthAll entries ≤ n ↔ ∀ e ∈ entries, e.1.width ≤ n ∧ e.2.width ≤ n := by
  induction entries with
  | nil => simp [widthAll]
  | cons e rest ih =>
    obtain ⟨k, v⟩ := e
    rw [widthAll, Nat.max_le, ih, List.forall_mem_cons, widthEntry, Nat.max_le]

end Data

/-- A value of a heap says this.  NaNs are not told apart, and the tables of the
tree have no metatables. -/
inductive Represents (h : Heap) : Value → Data → Prop
  | nil : Represents h .nil .nil
  | boolean (b : Bool) : Represents h (.boolean b) (.boolean b)
  | integer (n : Int64) : Represents h (.integer n) (.integer n)
  | double {x y : Double} (same : x = y ∨ x.isNaN = true ∧ y.isNaN = true) :
    Represents h (.double x) (.double y)
  | string (s : ByteArray) : Represents h (.string s) (.string s)
  /-- Each entry of the table stands beside what it says. -/
  | table {id : TableId} {t : Table} (pairs : List ((Value × Value) × (Data × Data)))
      (stored : h.tables[id]? = some t) (plain : t.metatable = none)
      (all : t.live.Perm (pairs.map (·.1)))
      (keys : ∀ p ∈ pairs, Represents h p.1.1 p.2.1) (items : ∀ p ∈ pairs,
        Represents h p.1.2 p.2.2) :
      Represents h (.table id) (.table (pairs.map (·.2)))

namespace Represents

variable {h h' : Heap} {v : Value} {d e : Data}

theorem mono (r : Represents h v d) (kept : ∀ (id : TableId) (t : Table), h.tables[id]? = some t →
    h'.tables[id]? = some t) :
    Represents h' v d := by
  induction r with
  | nil => exact .nil
  | boolean b => exact .boolean b
  | integer n => exact .integer n
  | double same => exact .double same
  | string s => exact .string s
  | table pairs stored plain all _ _ keys items =>
    exact .table pairs (kept _ _ stored) plain all keys items

private theorem depth_le (r : Represents h v d) (s : Represents h v e) : e.depth ≤ d.depth := by
  induction r generalizing e with
  | table pairs stored plain all _ _ keys items =>
    cases s with
    | table pairs' stored' plain' all' keys' items' =>
      rw [stored] at stored'
      cases stored'
      refine Nat.succ_le_succ (Data.depthAll_le.2 fun entry mem => ?_)
      obtain ⟨p', mem', rfl⟩ := List.mem_map.1 mem
      obtain ⟨p, mem_p, same⟩ :=
        List.mem_map.1 ((all'.symm.trans all).mem_iff.1 (List.mem_map_of_mem mem'))
      have bound := Data.depthAll_le.1 (Nat.le_refl _) p.2 (List.mem_map_of_mem mem_p)
      have key := keys p mem_p (same ▸ keys' p' mem')
      have item := items p mem_p (same ▸ items' p' mem')
      exact ⟨Nat.le_trans key bound.1, Nat.le_trans item bound.2⟩
  | _ => cases s; exact Nat.le_refl _

theorem depth_unique (r : Represents h v d) (s : Represents h v e) : d.depth = e.depth :=
  Nat.le_antisymm (s.depth_le r) (r.depth_le s)

/-- The entries of a table in the order of traversal, each beside what it says. -/
theorem live_pairs {id : TableId} {entries : List (Data × Data)}
    (r : Represents h (.table id) (.table entries)) :
    ∃ (t : Table) (qs : List ((Value × Value) × (Data × Data))), h.tables[id]? = some t ∧
      t.metatable = none ∧
      t.live = qs.map (·.1) ∧ (qs.map (·.2)).Perm entries ∧ (∀ q ∈ qs, Represents h q.1.1 q.2.1) ∧
      ∀ q ∈ qs, Represents h q.1.2 q.2.2 := by
  cases r with
  | @table _ t pairs stored plain all keys items =>
    have beside : List.Forall₂ (fun e q => e = q.1) (pairs.map (·.1)) pairs := by
      rw [List.forall₂_map_left_iff, List.forall₂_same]
      exact fun _ _ => rfl
    obtain ⟨qs, along, perm⟩ := List.perm_comp_forall₂ all beside
    refine ⟨t, qs, stored, plain, ?_, perm.map _, fun q mem => keys q (perm.mem_iff.1 mem),
      fun q mem => items q (perm.mem_iff.1 mem)⟩
    rw [← List.forall₂_eq_eq_eq, List.forall₂_map_right_iff]
    exact along

/-- A key is told by what it says, unless it is a table. -/
theorem eq_of_isKey {w : Value} (r : Represents h v d) (s : Represents h' w d)
    (key : v.isKey = true) (flat : ∀ id, v ≠ .table id) : w = v := by
  cases r with
  | @double x y same =>
    have number : ¬x.isNaN = true := by
      simp only [Value.isKey, Bool.and_eq_true, Bool.not_eq_true'] at key
      rw [key.1]
      exact Bool.false_ne_true
    cases s with
    | double same' =>
      rcases same with rfl | nan
      · rcases same' with rfl | nan
        · rfl
        · exact absurd nan.2 number
      · exact absurd nan.1 number
  | table => exact absurd rfl (flat _)
  | _ => cases s; rfl

end Represents
end SealedLua.Lua
