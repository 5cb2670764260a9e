import SealedLua.Lua.Library.Tables
import SealedLua.Proofs.Lua.Sequences
import SealedLua.Proofs.Lua.Runs

/-!
# Lists of a script

A table of a heap that holds a sequence is a list of the script.  Reading,
measuring and storing by position touch no other table, and nothing else.
-/

namespace SealedLua.Lua

/-- A refused argument raises a text, whatever is known of the call. -/
theorem Native.badArgument_eq {α : Type} (number : Nat) (reason : ByteArray)
    (c : CallContext) (h : Heap) :
    ∃ s, (badArgument number reason : Native α) c h = .raise (.string s) h := by
  obtain ⟨_ | ⟨kind, name⟩, function, caller⟩ := c
  · exact ⟨_, rfl⟩
  cases kind with
  | method =>
    by_cases self : number = 1
    · exact ⟨_, congrArg (fun x : Native α => x ⟨some ⟨.method, name⟩, function, caller⟩ h)
        (if_pos self)⟩
    · exact ⟨_, congrArg (fun x : Native α => x ⟨some ⟨.method, name⟩, function, caller⟩ h)
        (if_neg self)⟩
  | _ => exact ⟨_, rfl⟩

namespace Heap

/-- Nothing but one table is different. -/
structure ChangesOnly (id : TableId) (h h' : Heap) : Prop where
  rest : h' = { h with tables := h'.tables }
  size : h'.tables.size = h.tables.size
  others : ∀ j, j ≠ id → h'.tables[j]? = h.tables[j]?

namespace ChangesOnly

variable {id : TableId} {h h₁ h₂ : Heap}

theorem refl (id : TableId) (h : Heap) : ChangesOnly id h h := ⟨rfl, rfl, fun _ _ => rfl⟩

theorem trans (first : ChangesOnly id h h₁) (second : ChangesOnly id h₁ h₂) :
    ChangesOnly id h h₂ := by
  refine ⟨?_, second.size.trans first.size, fun j ne =>
    (second.others j ne).trans (first.others j ne)⟩
  have rest := second.rest
  rw [first.rest] at rest
  exact rest

theorem set (id : TableId) (h : Heap) (key value : Value) :
    ChangesOnly id h (h.set id key value) := by
  refine ⟨rfl, by simp [Heap.set], fun j ne => ?_⟩
  simp [Heap.set, Array.getElem?_modify, ne.symm]

end ChangesOnly

theorem table_eq {h : Heap} {id : TableId} {t : Table} (stored : h.tables[id]? = some t) :
    h.table id = t := by
  rw [table, stored, Option.getD_some]

theorem get_eq {h : Heap} {id : TableId} {t : Table} (stored : h.tables[id]? = some t)
    (key : Value) :
    h.get id key = t.get key := by rw [get, table_eq stored]

theorem get_of_tables {h h' : Heap} (same : h'.tables = h.tables) : h'.get = h.get := by
  funext id key
  rw [get, get, table, table, same]

theorem closure_eq {h : Heap} {id : ClosureId} {f : Closure} (stored : h.closures[id]? = some f) :
    h.closure id = f := by
  rw [closure, stored, Option.getD_some]

theorem tables_set {h : Heap} {id : TableId} {t : Table} (stored : h.tables[id]? = some t)
    (key value : Value) :
    (h.set id key value).tables[id]? = some (t.set key value) := by
  simp [set, Array.getElem?_modify, stored]

theorem metamethod_of_plain {h : Heap} {id : TableId} {t : Table} (stored : h.tables[id]? = some t)
    (plain : t.metatable = none) (event : ByteArray) : h.metamethod (.table id) event = .nil := by
  rw [metamethod, metatableOf, table_eq stored, plain]

def Lists (h : Heap) (id : TableId) (vs : List Value) : Prop :=
  ∃ t, h.tables[id]? = some t ∧ t.IsSequence vs

end Heap

theorem index_present {h : Heap} {id : TableId} {key : Value} (there : (h.get id key).isNil = false)
    (here : Option Position) (naming : Option Naming) :
    index here (.table id) key naming h = .done (h.get id key) h := by
  have first : chainLimit = 1999 + 1 := rfl
  rw [index, first, indexChain]
  simp [Action.bind_eq, Action.gets, Step.bind, there]

theorem index_plain {h : Heap} {id : TableId} {t : Table} (stored : h.tables[id]? = some t)
    (plain : t.metatable = none) (key : Value) (here : Option Position) (naming : Option Naming) :
    index here (.table id) key naming h = .done (t.get key) h := by
  by_cases there : (t.get key).isNil = true
  · have first : chainLimit = 1999 + 1 := rfl
    have nothing : Value.isNil .nil = true := rfl
    rw [index, first, indexChain]
    simp [Action.bind_eq, Action.gets, Step.bind, Heap.get_eq stored,
      Heap.metamethod_of_plain stored plain, nothing, Value.eq_nil_of_isNil there]
  · have entry : (h.get id key).isNil = false := by rw [Heap.get_eq stored]; simpa using there
    have found := index_present entry here naming
    rwa [Heap.get_eq stored] at found

theorem store_of_isKey {key : Value} (proper : key.toKey.isKey = true)
    (id : TableId) (value : Value) (here : Option Position) (h : Heap) :
    store here id key value h = .done () (h.set id key value) := by
  cases key with
  | nil => cases proper
  | double x =>
    have number : x.isNaN = false := by
      cases exact : Value.exactInteger? x with
      | none =>
        rw [Value.toKey, exact] at proper
        simp only [Value.isKey, Bool.and_eq_true, Bool.not_eq_true'] at proper
        exact proper.1
      | some n => exact Value.isNaN_of_exactInteger? exact
    simp only [store, number]
    rfl
  | _ => rfl

theorem setIndex_plain {h : Heap} {id : TableId} {t : Table} (stored : h.tables[id]? = some t)
    (plain : t.metatable = none) {key : Value} (proper : key.toKey.isKey = true) (value : Value)
    (here : Option Position) (naming : Option Naming) :
    setIndex here (.table id) key value naming h = .done () (h.set id key value) := by
  have first : chainLimit = 1999 + 1 := rfl
  have nothing : Value.isNil .nil = true := rfl
  rw [setIndex, first, setIndexChain]
  simp [Action.bind_eq, Action.gets, Step.bind, Heap.metamethod_of_plain stored plain,
    nothing, store_of_isKey proper]

namespace Heap.Lists

variable {h : Heap} {id : TableId} {vs : List Value} {v : Value} {i : Nat}

theorem get_eq (l : h.Lists id vs) (inside : i < vs.length) (small : i < arrayLimit) :
    h.get id (.ofNat (i + 1)) = vs[i] := by
  obtain ⟨t, stored, seq⟩ := l
  rw [Heap.get_eq stored, seq.get small, List.getElem?_eq_getElem inside, Option.getD_some]

theorem there (l : h.Lists id vs) (inside : i < vs.length) : vs[i].isNil = false := by
  obtain ⟨t, -, seq⟩ := l
  exact seq.there _ (List.getElem_mem inside)

theorem replace (l : h.Lists id vs) (inside : i < vs.length) (small : i < arrayLimit)
    (there : v.isNil = false) :
    (h.set id (.ofNat (i + 1)) v).Lists id (vs.set i v) := by
  obtain ⟨t, stored, seq⟩ := l
  exact ⟨_, tables_set stored _ _, seq.replace inside small there⟩

theorem append (l : h.Lists id vs) (small : vs.length < 2 ^ 62) (there : v.isNil = false) :
    (h.set id (.ofNat (vs.length + 1)) v).Lists id (vs ++ [v]) := by
  obtain ⟨t, stored, seq⟩ := l
  exact ⟨_, tables_set stored _ _, seq.append small there⟩

theorem length (l : h.Lists id vs) (small : vs.length < 2 ^ 62) (here : Option Position)
    (naming : Option Naming) :
    Lua.length here (.table id) naming h = .done (.ofNat vs.length) h := by
  obtain ⟨t, stored, seq⟩ := l
  have nothing : Value.isNil .nil = true := rfl
  simp only [Lua.length, Action.bind_eq, Action.gets, Step.bind,
    metamethod_of_plain stored seq.metatable, nothing, if_true, table_eq stored,
    seq.length_eq small, Value.ofNat]

theorem size_done (l : h.Lists id vs) (small : vs.length < 2 ^ 62) {c : CallContext} :
    Tables.size (.table id) c h = .done (Int64.ofNat vs.length) h := by
  obtain ⟨rest, unfolded, counted⟩ : ∃ rest, Tables.size (.table id) c h =
      (Lua.length none (.table id) none h).bind rest ∧
      ∀ n h, rest (.integer n) h = .done n h := ⟨_, rfl, fun _ _ => rfl⟩
  rw [unfolded, l.length small, Step.bind]
  exact counted _ _

theorem get_done (l : h.Lists id vs) (inside : i < vs.length) (small : i < arrayLimit)
    {c : CallContext} :
    Tables.get (.table id) ((i + 1 : Nat) : Int) c h = .done vs[i] h := by
  have key : Value.integer (Int64.ofInt ((i + 1 : Nat) : Int)) = .ofNat (i + 1) := by
    rw [Int64.ofInt_eq_ofNat, Value.ofNat]
  have entry := l.get_eq inside small
  have there : (h.get id (.ofNat (i + 1))).isNil = false := by rw [entry]; exact l.there inside
  have found := index_present there none none
  rw [entry, ← key] at found
  exact found

end Heap.Lists

end SealedLua.Lua
