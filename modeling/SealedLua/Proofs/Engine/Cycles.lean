import SealedLua.Proofs.Engine.Refusing
import Mathlib.Logic.Relation
import Mathlib.Data.List.Chain

/-!
# Tables as a graph

A heap is a graph whose edges go from tables to the keys and the items of their
entries.  A value shows a text only if nothing that can be reached from it is odd
or on a cycle, and what is of that kind does show one, if no way through it is
longer than the calls that are left and no table is too wide to be sorted.  So
the path of tables that the routine keeps tells exactly the cycles, and a table
that is reached on two ways is none.
-/

namespace SealedLua.Lua

namespace Heap

open Relation

/-- A value can be reached by keys and items. -/
abbrev Reaches (h : Heap) : Value → Value → Prop := ReflTransGen h.Entry

/-- Nothing that can be reached is a function or a failure of the host, or on a way to itself. -/
def Sound (h : Heap) (v : Value) : Prop := ∀ w, h.Reaches v w → ¬w.Odd ∧ ¬TransGen h.Entry w w

/-- The tables that can be reached are in the heap, have no metatables, and have
fewer entries than a number. -/
def PlainBelow (h : Heap) (n : Nat) (v : Value) : Prop :=
  ∀ id, h.Reaches v (.table id) → ∃ t, h.tables[id]? = some t ∧
    t.metatable = none ∧ t.live.length < n

/-- The ways through a value, which go through no place twice, are shorter than calls
can be nested in the circumstances, and the tables are not too wide to be sorted. -/
structure WithinLimits (h : Heap) (v : Value) : Prop where
  short : ∀ ws, (v :: ws).IsChain h.Entry → (v :: ws).Nodup →
    ws.length + 3 < h.circumstances.callLimit
  narrow : h.PlainBelow 0x7FFFFFFF v

variable {h : Heap} {v w : Value} {path : List TableId} {calls n : Nat} {text : List UInt8}

theorem reaches_flat (flat : ∀ id, v ≠ .table id) : h.Reaches v w ↔ w = v := by
  refine ⟨fun reaches => ?_, fun same => same ▸ .refl⟩
  rcases reaches.cases_head with same | ⟨u, entry, -⟩
  · exact same.symm
  · obtain ⟨id, eq⟩ := entry.table
    exact absurd eq (flat id)

/-- What shows a text goes round no table of the path, and is sound. -/
theorem sound_of_shows (shows : Shows h path calls v text) :
    h.Sound v ∧ ∀ id ∈ path, ¬h.Reaches v (.table id) := by
  induction shows with
  | @flat path calls v d means flat room =>
    refine ⟨fun w reaches => ?_, fun id onPath reaches =>
      flat id ((reaches_flat flat).1 reaches).symm⟩
    obtain rfl := (reaches_flat flat).1 reaches
    refine ⟨fun odd => means.not_refused (List.forall_mem_nil _) (.odd odd), fun cycle => ?_⟩
    obtain ⟨u, entry, -⟩ := TransGen.head'_iff.1 cycle
    obtain ⟨id, eq⟩ := entry.table
    exact flat id eq
  | @table path calls id t texts stored walked off few _ _ keys items =>
    have inside : ∀ w, h.Entry (.table id) w → h.Sound w ∧ ∀ j ∈ id :: path,
        ¬h.Reaches w (.table j) := by
      intro w entry
      obtain ⟨e, mem, rfl | rfl⟩ := (entry_iff stored).1 entry
      · exact keys e mem
      · exact items e mem
    refine ⟨fun w reaches => ?_, fun j onPath reaches => ?_⟩
    · rcases reaches.cases_head with rfl | ⟨u, entry, reaches⟩
      · refine ⟨Value.not_odd_table id, fun cycle => ?_⟩
        obtain ⟨u, entry, back⟩ := TransGen.head'_iff.1 cycle
        exact (inside u entry).2 id List.mem_cons_self back
      · exact (inside u entry).1 w reaches
    · rcases reaches.cases_head with same | ⟨u, entry, reaches⟩
      · cases same
        exact off onPath
      · exact (inside u entry).2 j (List.mem_cons_of_mem _ onPath) reaches

theorem PlainBelow.next (tables : h.PlainBelow n v) (entry : h.Entry v w) : h.PlainBelow n w :=
  fun id reaches => tables id (.head entry reaches)

theorem Sound.next (sound : h.Sound v) (entry : h.Entry v w) : h.Sound w :=
  fun u reaches => sound u (.head entry reaches)

theorem PlainBelow.traversable (tables : h.PlainBelow (2 ^ 62) v) (path : List TableId) :
    h.Traversable path v := by
  refine ⟨fun _ w => h.Reaches v w, .refl, fun path id reaches _ => ?_⟩
  obtain ⟨t, stored, plain, small⟩ := tables id reaches
  exact ⟨t, stored, walked_of_plain plain, small, fun e mem =>
    ⟨reaches.tail (.key stored mem), reaches.tail (.item stored mem)⟩⟩

/-- What is sound shows a text, if there is a call for each step of a way, and two more.
The tables of the path lead to the value, so none of them can be reached from it. -/
theorem Sound.exists_shows (sound : h.Sound v) (tables : h.PlainBelow 0x7FFFFFFF v)
    (behind : ∀ id ∈ path, TransGen h.Entry (.table id) v)
    (short : ∀ ws, (v :: ws).IsChain h.Entry → ws.length ≤ n) :
    ∃ text, Shows h path (n + 2) v text := by
  induction n using Nat.strongRecOn generalizing path v with
  | _ n ih =>
    by_cases flat : ∀ id, v ≠ .table id
    · exact Value.exists_shows_of_flat flat (sound v .refl).1
    obtain ⟨id, rfl⟩ : ∃ id, v = .table id := by simpa using flat
    obtain ⟨t, stored, plain, few⟩ := tables id .refl
    have off : id ∉ path := fun onPath => (sound _ .refl).2 (behind id onPath)
    have inside : ∀ w, h.Entry (.table id) w → ∃ text, Shows h (id :: path) (n + 1) w text := by
      intro w entry
      have one := short [w] (.cons_cons entry (.singleton w))
      obtain ⟨n, rfl⟩ : ∃ m, n = m + 1 := ⟨n - 1, by rw [List.length_singleton] at one; omega⟩
      refine ih n (Nat.lt_succ_self n) (sound.next entry) (tables.next entry)
        (fun j mem => ?_) fun ws chain => ?_
      · rcases List.mem_cons.1 mem with rfl | mem
        · exact .single entry
        · exact (behind j mem).tail entry
      · exact Nat.le_of_succ_le_succ (short (w :: ws) (.cons_cons entry chain))
    exact Shows.exists_table stored (walked_of_plain plain) off few fun e mem =>
      ⟨inside e.1 (.key stored mem), inside e.2 (.item stored mem)⟩

theorem Sound.nodup {ws : List Value} (sound : h.Sound v) (chain : (v :: ws).IsChain h.Entry) :
    (v :: ws).Nodup := by
  have further : (v :: ws).Pairwise (TransGen h.Entry) :=
    List.isChain_iff_pairwise.1 (chain.imp fun _ _ => .single)
  have reaches : ∀ w ∈ v :: ws, h.Reaches v w := by
    intro w mem
    rcases List.mem_cons.1 mem with rfl | mem
    · exact .refl
    · exact (List.rel_of_pairwise_cons further mem).to_reflTransGen
  refine further.imp_of_mem fun mem _ way same => ?_
  exact (sound _ (reaches _ mem)).2 (by rwa [← same] at way)

end Heap

namespace Represents

open Relation

variable {h : Heap} {v w : Value} {d : Data}

theorem reaches (r : Represents h v d) (reaches : h.Reaches v w) :
    ∃ e, Represents h w e ∧ e.width ≤ d.width := by
  induction reaches with
  | refl => exact ⟨d, r, Nat.le_refl _⟩
  | tail _ entry ih =>
    obtain ⟨e, means, narrow⟩ := ih
    obtain ⟨f, part, -, narrower⟩ := means.next entry
    exact ⟨f, part, Nat.le_trans narrower narrow⟩

/-- What lies ahead is less deep, so it is never where the way began. -/
theorem ahead (r : Represents h v d) (way : TransGen h.Entry v w) :
    ∃ e, Represents h w e ∧ e.depth < d.depth := by
  induction way with
  | single entry =>
    obtain ⟨e, means, below, -⟩ := r.next entry
    exact ⟨e, means, below⟩
  | tail _ entry ih =>
    obtain ⟨e, means, below⟩ := ih
    obtain ⟨f, part, deeper, -⟩ := means.next entry
    exact ⟨f, part, Nat.lt_trans deeper below⟩

theorem sound (r : Represents h v d) : h.Sound v := by
  intro w reaches
  obtain ⟨e, means, -⟩ := r.reaches reaches
  refine ⟨fun odd => means.not_refused (List.forall_mem_nil _) (.odd odd), fun cycle => ?_⟩
  obtain ⟨f, same, below⟩ := means.ahead cycle
  exact Nat.ne_of_lt below (same.depth_unique means)

theorem plainBelow {n : Nat} (r : Represents h v d) (narrow : d.width < n) : h.PlainBelow n v := by
  intro id reaches
  obtain ⟨e, means, le⟩ := r.reaches reaches
  cases means with
  | @table _ t pairs stored plain all =>
    have count := Nat.le_trans (Nat.le_max_left _ _) le
    exact ⟨t, stored, plain, Nat.lt_of_le_of_lt (by rwa [length_live all]) narrow⟩

theorem length_chain {ws : List Value} (r : Represents h v d) (chain : (v :: ws).IsChain h.Entry) :
    ws.length ≤ d.depth := by
  induction ws generalizing v d with
  | nil => exact Nat.zero_le _
  | cons w ws ih =>
    obtain ⟨entry, rest⟩ := List.isChain_cons_cons.1 chain
    obtain ⟨e, means, below, -⟩ := r.next entry
    exact Nat.lt_of_le_of_lt (ih means rest) below

theorem withinLimits (r : Represents h v d) (shallow : d.depth + 3 < h.circumstances.callLimit)
    (narrow : d.width < 0x7FFFFFFF) :
    h.WithinLimits v :=
  ⟨fun _ chain _ => Nat.lt_of_le_of_lt (Nat.add_le_add_right (r.length_chain chain) 3) shallow,
    r.plainBelow narrow⟩

end Represents
end SealedLua.Lua

namespace SealedLua

open Lua

/-- Exactly the values that cannot be rendered are refused.

The routine comes to an end for every value of a heap whose tables have no
metatables, however they refer to each other, and the heap keeps what it had.  What
comes of it is code or a failure of the script.  It is code only if nothing that
can be reached through keys and items is a function or a failure of the host, or
on a way to itself, and then it is, within the limits for calls and for sorting.
No memory has places for a table of `2 ^ 62` entries. -/
theorem exactly_unrenderable_values_are_refused {Q : Type} (i : Interpreter Q)
    {v : Value} {below : List Value} (on_top : i.stack.values = v :: below)
    (unmodified : i.stack.heap.Unmodified) (kind : ValueKind.ofValue v = .other)
    (tables : i.stack.heap.PlainBelow (2 ^ 62) v) :
    ∃ result h, i.Ends encode result ⟨h, below⟩ ∧ Heap.Keeps none i.stack.heap h ∧
      ((∃ c, result = .ok (.code c)) ∨ ∃ s, result = .error (.script s)) ∧
      ((∃ c, result = .ok (.code c)) → i.stack.heap.Sound v) ∧
      (i.stack.heap.WithinLimits v → i.stack.heap.Sound v → ∃ c, result = .ok (.code c)) := by
  obtain ⟨⟨base, values⟩, functions⟩ := i
  cases on_top
  let i : Interpreter Q := ⟨⟨base, v :: below⟩, functions⟩
  have left := leaves_outermost i
  have limit : dumpCalls i.outermost + 2 = base.circumstances.callLimit := dumpCalls_outermost i
  obtain ⟨n, all⟩ : ∃ n, dumpCalls i.outermost = n + 2 := ⟨dumpCalls i.outermost - 2, by
    have ample := base.circumstances.ample
    omega⟩
  rw [all] at left limit
  by_cases shown : ∃ text, Shows base [] (n + 2) v text
  · obtain ⟨text, shows⟩ := shown
    obtain ⟨c, h, comes, -, keeps⟩ :=
      encode_shown (Q := Q) below kind unmodified.intact shows left.admits
    exact ⟨.ok (.code c), h, comes.run, keeps, .inl ⟨c, rfl⟩, fun _ =>
      (Heap.sound_of_shows shows).1, fun _ _ => ⟨c, rfl⟩⟩
  · obtain ⟨s, h, halts, keeps⟩ :=
      encode_hidden (Q := Q) unmodified kind (tables.traversable []) (not_exists.1 shown) left below
    have unsound : base.WithinLimits v → ¬base.Sound v := by
      intro within sound
      refine shown (sound.exists_shows within.narrow (List.forall_mem_nil _) fun ws chain => ?_)
      have short := within.short ws chain (sound.nodup chain)
      omega
    refine ⟨_, h, halts.run, keeps, .inr ⟨_, rfl⟩, ?_, fun within sound =>
      absurd sound (unsound within)⟩
    rintro ⟨c, ⟨⟩⟩

def extended : Heap := (Interpreter.preparedHeap.newTable Table.empty).2

def inner : Value := .table Interpreter.preparedHeap.tables.size

/-- A table on the stack that holds the new one in two places. -/
def sharing : Interpreter Empty :=
  ⟨⟨(extended.newTable ((Table.empty.set (.integer 1) inner).set (.integer 2) inner)).2,
    [.table extended.tables.size]⟩, []⟩

theorem represents_sharing : Represents sharing.stack.heap (.table extended.tables.size)
    (.table [(.integer 2, .table []), (.integer 1, .table [])]) := by
  have absent : (Table.empty.set (.integer 1) inner).get (.integer 2) = .nil := by
    rw [Table.get_set _ rfl, if_neg (by decide)]
    exact Table.get_empty _
  have first : (Table.empty.set (.integer 1) inner).live.Perm [(.integer 1, inner)] :=
    Table.empty.live_set rfl (Table.get_empty _) rfl
  have both :=
    (Table.live_set _ rfl absent (v := inner) rfl).trans (first.cons (Value.integer 2, inner))
  have stored : extended.tables[Interpreter.preparedHeap.tables.size]? = some Table.empty :=
    Array.getElem?_push_size
  have kept : sharing.stack.heap.tables[Interpreter.preparedHeap.tables.size]? = some Table.empty :=
    (Heap.Keeps.newTable extended _).kept _ _ stored
  have empty : Represents sharing.stack.heap inner (.table []) :=
    .table [] kept rfl (.of_eq Table.live_empty) (fun _ mem => absurd mem List.not_mem_nil)
      fun _ mem => absurd mem List.not_mem_nil
  refine .table [((.integer 2, inner), (.integer 2, .table [])),
    ((.integer 1, inner), (.integer 1, .table []))]
    Array.getElem?_push_size (by rw [Table.metatable_set, Table.metatable_set]; rfl) both ?_ ?_
  · simp [Represents.integer]
  · simpa using empty

/-- A table in two places is no cycle. -/
theorem shared_table_is_rendered : ∃ c h, sharing.Ends encode (.ok (.code c)) ⟨h, []⟩ ∧
    Heap.Keeps none sharing.stack.heap h := by
  have means := represents_sharing
  have unmodified : sharing.stack.heap.Unmodified :=
    Interpreter.unmodified_preparedHeap.mono ((Heap.Keeps.newTable _ _).trans (.newTable _ _)).kept
  obtain ⟨result, h, ends, keeps, -, -, renders⟩ :=
    exactly_unrenderable_values_are_refused sharing rfl unmodified
      rfl (means.plainBelow (by decide))
  have ample := sharing.stack.heap.circumstances.ample
  obtain ⟨c, rfl⟩ := renders
    (means.withinLimits (Nat.lt_of_lt_of_le (by decide) ample) (by decide)) means.sound
  exact ⟨c, h, ends, keeps⟩

end SealedLua
