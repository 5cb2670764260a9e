import SealedLua.Proofs.Engine.Dumping

/-!
# Texts of values

`Shows` gives the text of a value below the tables that are being rendered, with
so many calls left, by recursion on the value and without a run of the routine.
What shows a text is rendered as that text.  A value that says something shows
the text of what it says, as soon as there are calls enough for it and no table
is too wide to be sorted.
-/

namespace SealedLua.Lua

namespace Data

mutual

/-- How many calls the routine goes down below its own. -/
def calls : Data → Nat
  | .string s => Quoting.calls (codes s)
  | .table entries => callsAll entries + 1
  | _ => 1

def callsAll : List (Data × Data) → Nat
  | [] => 0
  | e :: rest => max (callsEntry e) (callsAll rest)

def callsEntry : Data × Data → Nat
  | (k, v) => max k.calls v.calls

end

theorem callsAll_le {entries : List (Data × Data)} {n : Nat} :
    callsAll entries ≤ n ↔ ∀ e ∈ entries, e.1.calls ≤ n ∧ e.2.calls ≤ n := by
  induction entries with
  | nil => simp [callsAll]
  | cons e rest ih =>
    obtain ⟨k, v⟩ := e
    rw [callsAll, Nat.max_le, ih, List.forall_mem_cons, callsEntry, Nat.max_le]

theorem widthAll_lt {entries : List (Data × Data)} {n : Nat} (few : entries.length < n) :
    widthAll entries < n ↔ ∀ e ∈ entries, e.1.width < n ∧ e.2.width < n := by
  obtain ⟨n, rfl⟩ : ∃ m, n = m + 1 := ⟨n - 1, by omega⟩
  simp only [Nat.lt_succ_iff, widthAll_le]

mutual

/-- A call for each level, and two more at a string in the deepest one. -/
theorem calls_le : ∀ d : Data, d.calls ≤ d.depth + 2
  | .nil | .boolean _ | .integer _ | .double _ => by simp [calls, depth]
  | .string s => by
    rw [calls, Quoting.calls]
    split <;> simp [depth]
  | .table entries => by
    have all := callsAll_le_depthAll entries
    rw [calls, depth]
    omega

theorem callsAll_le_depthAll : ∀ entries : List (Data × Data),
    callsAll entries ≤ depthAll entries + 2
  | [] => Nat.zero_le _
  | e :: rest => by
    have first := callsEntry_le_depthEntry e
    have others := callsAll_le_depthAll rest
    rw [callsAll, depthAll]
    omega

theorem callsEntry_le_depthEntry : ∀ e : Data × Data, callsEntry e ≤ depthEntry e + 2
  | (k, v) => by
    have key := calls_le k
    have item := calls_le v
    rw [callsEntry, depthEntry]
    omega

end

theorem sorted_of_perm {texts texts' : List (List UInt8)} (perm : texts.Perm texts') :
    sorted texts = sorted texts' :=
  Sorting.eq_sorted ((sorted_perm _).trans perm) (Sorting.pairwise_sorted _)

theorem render_of_perm {entries entries' : List (Data × Data)} (perm : entries.Perm entries') :
    (table entries).render = (table entries').render := by
  rw [render, render, renderAll_eq_map, renderAll_eq_map, sorted_of_perm (perm.map _)]

end Data

open DumpChunk

/-- The text of a value below the tables of a path, with so many calls left. -/
inductive Shows (h : Heap) : List TableId → Nat → Value → List UInt8 → Prop
  | flat {path : List TableId} {calls : Nat} {v : Value} {d : Data} (means : Represents h v d)
    (flat : ∀ id, v ≠ .table id)
      (room : d.calls ≤ calls) : Shows h path calls v d.render
  | table {path : List TableId} {calls : Nat} {id : TableId} {t : Table} (texts : Value × Value →
      List UInt8 × List UInt8)
      (stored : h.tables[id]? = some t) (walked : h.Walked t) (off : id ∉ path)
      (few : t.live.length < 0x7FFFFFFF)
      (keys : ∀ e ∈ t.live, Shows h (id :: path) calls e.1 (texts e).1)
      (items : ∀ e ∈ t.live, Shows h (id :: path) calls e.2 (texts e).2) :
      Shows h path (calls + 1) (.table id)
        (123 :: (Data.joined (Data.sorted (t.live.map fun e => entryText (texts e))) ++ [125]))

namespace DumpChunk

/-- The marks while the routine is below the tables of a path. -/
def marksOf : List TableId → Value → Value
  | [] => fun _ => .nil
  | id :: path => marking (marksOf path) id

theorem marksOf_table {id : TableId} (path : List TableId) :
    marksOf path (.table id) = if id ∈ path then .boolean true else .nil := by
  induction path with
  | nil => rfl
  | cons top path ih =>
    by_cases same : id = top
    · subst same
      have key : (Value.table id).toKey = .table id := rfl
      rw [marksOf, marking, if_pos key, if_pos List.mem_cons_self]
    · have other : ¬(Value.table id).toKey = .table top := fun eq => same (Value.table.inj eq)
      rw [marksOf, marking, if_neg other, ih]
      simp only [List.mem_cons, same, false_or]

section Rendering

variable {base : Heap} {dumpId quoteId : ClosureId} {visiting : TableId} {marks : Value → Value}
  {calls nested : Nat} {v : Value} {text : List UInt8}

theorem Renderable.mono {calls' : Nat}
    (r : Renderable base dumpId quoteId visiting marks calls nested v text)
    (le : calls ≤ calls') : Renderable base dumpId quoteId visiting marks calls' nested v text :=
  fun depth h ready marked room => r depth h ready marked (room.mono le (Nat.le_refl nested))

theorem doubleLiteral_eq {x y : Double} (same : x = y ∨ x.isNaN = true ∧ y.isNaN = true) :
    Format.doubleLiteral x = Format.doubleLiteral y := by
  rcases same with rfl | ⟨x_nan, y_nan⟩
  · rfl
  · exact (if_pos x_nan).trans (if_pos y_nan).symm

theorem renderable_flat {d : Data} (r : Represents base v d) (flat : ∀ id, v ≠ .table id) :
    Renderable base dumpId quoteId visiting marks d.calls 1 v d.render := by
  intro depth h ready marked room
  cases r with
  | nil =>
    exact renders_plain ready marked (room.mono (Nat.le_refl 1) (Nat.zero_le 1)) rfl fun _ _ =>
      Builtin.run_tostring_nil
  | boolean b =>
    exact renders_plain ready marked (room.mono (Nat.le_refl 1) (Nat.zero_le 1))
      (by cases b <;> rfl) fun _ _ => Builtin.run_tostring_boolean b
  | integer m =>
    exact renders_number ready marked (room.mono (Nat.le_refl 1) (Nat.zero_le 1)) rfl rfl
  | @double x y same =>
    refine renders_number ready marked (room.mono (Nat.le_refl 1) (Nat.zero_le 1)) rfl ?_
    rw [Data.render]
    exact congrArg some (doubleLiteral_eq same)
  | string s => exact renders_string ready marked room
  | table => exact absurd rfl (flat _)

end Rendering

end DumpChunk

namespace Shows

variable {h h' : Heap} {path : List TableId} {calls : Nat} {v : Value}
  {text : List UInt8} {d : Data}

theorem mono (shows : Shows h path calls v text)
    (kept : ∀ (id : TableId) (t : Table), h.tables[id]? = some t → h'.tables[id]? = some t) :
    Shows h' path calls v text := by
  induction shows with
  | flat means flat room => exact .flat (means.mono kept) flat room
  | table texts stored walked off few _ _ keys items =>
    exact .table texts (kept _ _ stored) (walked.mono kept) off few keys items

theorem printable (shows : Shows h path calls v text) : Printable text := by
  induction shows with
  | @flat path calls v d _ _ _ => exact d.printable_render
  | table texts _ _ _ _ _ _ keys items =>
    refine .cons (by decide) (.append (.joined fun text mem => ?_) (by decide))
    obtain ⟨e, live, rfl⟩ := List.mem_map.1 ((Data.sorted_perm _).mem_iff.1 mem)
    exact .cons (by decide)
      (.append (keys e live) (.cons (by decide) (.cons (by decide) (items e live))))

theorem renderable {dumpId quoteId : ClosureId} {visiting : TableId}
    (shows : Shows h path calls v text) :
    Renderable h dumpId quoteId visiting (marksOf path) calls 1 v text := by
  induction shows with
  | flat means flat room => exact (renderable_flat means flat).mono room
  | @table path calls id t texts stored walked off few _ _ keys items =>
    intro depth h' ready marked room
    have unmarked : marksOf path (.table id) = .nil := by rw [marksOf_table, if_neg off]
    have perm := t.tour_perm h.circumstances.rank
    let qs := (t.tour h.circumstances.rank).map fun e => (e, texts e)
    have all : t.tour h.circumstances.rank = qs.map (·.1) := by
      rw [List.map_map]
      exact (List.map_id _).symm
    have rendered := renders_table stored walked unmarked all
      (List.forall_mem_map.2 fun e mem => keys e (perm.subset mem))
      (List.forall_mem_map.2 fun e mem => items e (perm.subset mem)) ready marked room
      (by rwa [List.length_map, perm.length_eq])
    rwa [List.map_map, Data.sorted_of_perm (perm.map _)] at rendered

section Entries

variable {es : List (Value × Value)}

/-- The texts of the entries of a table, if there is one for each key and each item. -/
theorem exists_texts (parts : ∀ e ∈ es, (∃ text, Shows h path calls e.1 text) ∧ ∃ text,
    Shows h path calls e.2 text) :
    ∃ texts : Value × Value → List UInt8 × List UInt8,
      (∀ e ∈ es, Shows h path calls e.1 (texts e).1) ∧ ∀ e ∈ es,
        Shows h path calls e.2 (texts e).2 := by
  have beside : ∀ e ∈ es, ∃ texts : List UInt8 × List UInt8, Shows h path calls e.1 texts.1 ∧
      Shows h path calls e.2 texts.2 := by
    intro e mem
    obtain ⟨⟨kt, key⟩, it, item⟩ := parts e mem
    exact ⟨(kt, it), key, item⟩
  choose! texts shown using beside
  exact ⟨texts, fun e mem => (shown e mem).1, fun e mem => (shown e mem).2⟩

theorem exists_table {id : TableId} {t : Table} (stored : h.tables[id]? = some t)
    (walked : h.Walked t) (off : id ∉ path) (few : t.live.length < 0x7FFFFFFF)
    (parts : ∀ e ∈ t.live, (∃ text, Shows h (id :: path) calls e.1 text) ∧ ∃ text,
      Shows h (id :: path) calls e.2 text) :
    ∃ text, Shows h path (calls + 1) (.table id) text := by
  obtain ⟨texts, keys, items⟩ := exists_texts parts
  exact ⟨_, .table texts stored walked off few keys items⟩

end Entries
end Shows

namespace Represents

variable {h : Heap} {path : List TableId} {calls : Nat} {v : Value} {text : List UInt8} {d e : Data}

/-- What a value says besides tables has one text, and needs one number of calls. -/
theorem flat_unique (r : Represents h v d) (s : Represents h v e) (flat : ∀ id, v ≠ .table id) :
    d.render = e.render ∧ d.calls = e.calls := by
  cases r with
  | double same =>
    cases s with
    | double same' => exact ⟨(doubleLiteral_eq same).symm.trans (doubleLiteral_eq same'), rfl⟩
  | table => exact absurd rfl (flat _)
  | _ => cases s; exact ⟨rfl, rfl⟩

def Above (h : Heap) (path : List TableId) (d : Data) : Prop :=
  ∀ id ∈ path, ∀ e, Represents h (.table id) e → d.depth < e.depth

theorem Above.off {id : TableId} (above : Above h path d)
    (r : Represents h (.table id) d) : id ∉ path :=
  fun onPath => Nat.lt_irrefl _ (above id onPath d r)

theorem Above.cons {id : TableId} (above : Above h path d) (r : Represents h (.table id) d)
    (below : e.depth < d.depth) :
    Above h (id :: path) e := by
  intro j mem f s
  rcases List.mem_cons.1 mem with rfl | mem
  · rw [← r.depth_unique s]
    exact below
  · exact Nat.lt_trans below (above j mem f s)

theorem of_shows (r : Represents h v d) (shows : Shows h path calls v text) :
    text = d.render ∧ d.calls ≤ calls ∧ d.width < 0x7FFFFFFF := by
  induction shows generalizing d with
  | flat means flat room =>
    obtain ⟨same, equal⟩ := means.flat_unique r flat
    refine ⟨same, equal ▸ room, ?_⟩
    cases r with
    | table => exact absurd rfl (flat _)
    | _ => exact (by decide : 0 < 0x7FFFFFFF)
  | @table path calls id t texts stored _ off few _ _ keys items =>
    obtain ⟨entries, rfl⟩ : ∃ entries, d = .table entries := by
      cases r with
      | table => exact ⟨_, rfl⟩
    obtain ⟨u, qs, stored', -, all, perm, means, means'⟩ := r.live_pairs
    rw [stored] at stored'
    cases stored'
    have key : ∀ q ∈ qs, _ := fun q mem => keys q.1 (all ▸ List.mem_map_of_mem mem) (means q mem)
    have item : ∀ q ∈ qs, _ := fun q mem => items q.1 (all ▸ List.mem_map_of_mem mem) (means' q mem)
    have text : (t.live.map fun e => entryText (texts e)) = Data.renderAll (qs.map (·.2)) := by
      rw [all, Data.renderAll_eq_map, List.map_map, List.map_map]
      refine List.map_congr_left fun q mem => ?_
      rw [Function.comp_apply, Function.comp_apply, ← entryText_render,
        ← (key q mem).1, ← (item q mem).1]
    have listed : ∀ e ∈ entries, ∃ q ∈ qs, q.2 = e := fun e mem =>
      List.mem_map.1 (perm.mem_iff.2 mem)
    have count : entries.length < 0x7FFFFFFF := by
      rwa [← perm.length_eq, List.length_map, ← List.length_map (f := Prod.fst), ← all]
    refine ⟨?_, Nat.succ_le_succ (Data.callsAll_le.2 fun e mem => ?_),
      Nat.max_lt.2 ⟨count, (Data.widthAll_lt count).2 fun e mem => ?_⟩⟩
    · rw [← Data.render_of_perm perm, Data.render, text]
    · obtain ⟨q, among, rfl⟩ := listed e mem
      exact ⟨(key q among).2.1, (item q among).2.1⟩
    · obtain ⟨q, among, rfl⟩ := listed e mem
      exact ⟨(key q among).2.2, (item q among).2.2⟩

theorem length_live {t : Table} {pairs : List ((Value × Value) × (Data × Data))}
    (all : t.live.Perm (pairs.map (·.1))) :
    t.live.length = (pairs.map (·.2)).length := by
  rw [all.length_eq, List.length_map, List.length_map]

/-- What says something shows a text, below tables that say what is deeper. -/
theorem exists_shows (r : Represents h v d) (above : Above h path d) (room : d.calls ≤ calls)
    (narrow : d.width < 0x7FFFFFFF) :
    ∃ text, Shows h path calls v text := by
  induction r generalizing path calls with
  | @table id t pairs stored plain all means means' keys items =>
    have r : Represents h (.table id) (.table (pairs.map (·.2))) :=
      .table pairs stored plain all means means'
    obtain ⟨calls, rfl⟩ : ∃ m, calls = m + 1 := ⟨calls - 1, by rw [Data.calls] at room; omega⟩
    obtain ⟨count, narrower⟩ := Nat.max_lt.1 narrow
    have rooms := Data.callsAll_le.1 (Nat.le_of_succ_le_succ room)
    have widths := (Data.widthAll_lt count).1 narrower
    have depths := Data.depthAll_le.1 (Nat.le_refl (Data.depthAll (pairs.map (·.2))))
    refine Shows.exists_table stored (Heap.walked_of_plain plain) (above.off r)
      (by rwa [length_live all]) fun e mem => ?_
    obtain ⟨p, among, rfl⟩ := List.mem_map.1 (all.mem_iff.1 mem)
    have image := List.mem_map_of_mem (f := Prod.snd) among
    exact ⟨keys p among (above.cons r (Nat.lt_succ_of_le (depths _ image).1))
      (rooms _ image).1 (widths _ image).1,
      items p among (above.cons r (Nat.lt_succ_of_le (depths _ image).2))
      (rooms _ image).2 (widths _ image).2⟩
  | nil => exact ⟨_, .flat .nil (fun _ => Value.noConfusion) room⟩
  | boolean b => exact ⟨_, .flat (.boolean b) (fun _ => Value.noConfusion) room⟩
  | integer n => exact ⟨_, .flat (.integer n) (fun _ => Value.noConfusion) room⟩
  | double same => exact ⟨_, .flat (.double same) (fun _ => Value.noConfusion) room⟩
  | string s => exact ⟨_, .flat (.string s) (fun _ => Value.noConfusion) room⟩

/-- What a value says is what it shows, as far as it can be rendered. -/
theorem shows_iff (r : Represents h v d) (above : Above h path d) :
    Shows h path calls v text ↔ text = d.render ∧ d.calls ≤ calls ∧ d.width < 0x7FFFFFFF := by
  refine ⟨r.of_shows, ?_⟩
  rintro ⟨rfl, room, narrow⟩
  obtain ⟨text, shows⟩ := r.exists_shows above room narrow
  rwa [(r.of_shows shows).1] at shows

end Represents
end SealedLua.Lua
