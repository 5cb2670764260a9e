import SealedLua.Lua.Table
import Mathlib.Data.List.Nodup
import Mathlib.Tactic.Common

/-!
# What a table holds

Looking up sees one entry for each key, whatever the layout: storing changes
the entry of one key, and laying the table out again changes none.  The list of
the entries that are there has each key once, and traversal goes through it.
-/

namespace SealedLua.Lua

namespace Value

theorem toKey_of_isKey {k : Value} (h : k.isKey = true) : k.toKey = k := by
  cases k with
  | double x =>
    have inexact : exactInteger? x = none := by
      simp only [isKey, Bool.and_eq_true, Option.isNone_iff_eq_none] at h
      exact h.2
    simp [toKey, inexact]
  | _ => rfl

theorem isNaN_of_exactInteger? {x : Double} {n : Int64} (exact : exactInteger? x = some n) :
    x.isNaN = false := by
  by_contra nan
  have infinite : x.isFinite = false := by
    simp only [Double.isNaN, Bool.and_eq_true, beq_iff_eq, Bool.not_eq_false] at nan
    simp [Double.isFinite, nan.1]
  simp [exactInteger?, Double.toInt?, infinite] at exact

theorem eq_nil_of_isNil {v : Value} (h : v.isNil = true) : v = .nil := by
  cases v <;> first | rfl | cases h

@[simp] theorem isKey_integer (n : Int64) : (Value.integer n).isKey = true := rfl

@[simp] theorem isKey_ofNat (n : Nat) : (Value.ofNat n).isKey = true := rfl

@[simp] theorem isKey_string (s : ByteArray) : (Value.string s).isKey = true := rfl

@[simp] theorem isKey_table (id : TableId) : (Value.table id).isKey = true := rfl

theorem isNil_of_isKey {k : Value} (h : k.isKey = true) : k.isNil = false := by
  cases k with
  | nil => cases h
  | _ => rfl

end Value

namespace Table

theorem itemIndex?_eq_some {size i : Nat} {k : Value} :
    itemIndex? size k = some i ↔ ∃ n : Int64, k = .integer n ∧ n.toInt = i + 1 ∧ i < size := by
  constructor
  · intro h
    cases k with
    | integer n =>
      simp only [itemIndex?, Bool.and_eq_true, decide_eq_true_eq, Int64.le_iff_toInt_le] at h
      split at h
      · next bounds =>
        have one : (1 : Int64).toInt = 1 := rfl
        have : i = n.toInt.toNat - 1 := (Option.some.inj h).symm
        exact ⟨n, rfl, by omega, by omega⟩
      · cases h
    | _ => cases h
  · rintro ⟨n, rfl, eq, lt⟩
    have one : (1 : Int64).toInt = 1 := rfl
    have bounds : 1 ≤ n ∧ n.toInt ≤ size := by
      rw [Int64.le_iff_toInt_le]
      omega
    simp only [itemIndex?, bounds, decide_true, Bool.and_self, if_true, Option.some.injEq]
    omega

theorem toInt_ofNat {n : Nat} (h : n ≤ arrayLimit) : (Int64.ofNat n).toInt = n := by
  rw [arrayLimit] at h
  exact Int64.toInt_ofNat_of_lt (by omega)

theorem itemIndex?_ofNat {size i : Nat} (fits : size ≤ arrayLimit) (h : i < size) :
    itemIndex? size (.ofNat (i + 1)) = some i :=
  itemIndex?_eq_some.2 ⟨_, rfl, by rw [toInt_ofNat (by omega)]; rfl, h⟩

theorem eq_of_itemIndex? {size i : Nat} {k : Value} (h : itemIndex? size k = some i) :
    k = .ofNat (i + 1) := by
  obtain ⟨n, rfl, eq, -⟩ := itemIndex?_eq_some.1 h
  have : n = Int64.ofInt (i + 1 : Nat) := by
    rw [Int.natCast_add, Int.natCast_one, ← eq, Int64.ofInt_toInt]
  rw [this, Int64.ofInt_eq_ofNat, Value.ofNat]

variable (t : Table) {k l v w : Value}

theorem look_put (k v l : Value) :
    (t.put k v).look l = if l = k ∧ k.isKey then v else t.look l := by
  unfold put
  split
  next i out =>
    obtain ⟨n, rfl, eq, inside⟩ := itemIndex?_eq_some.1 out
    simp only [look, Array.set!_eq_setIfInBounds, Array.size_setIfInBounds,
      Value.isKey_integer, and_true]
    by_cases same : l = .integer n
    · subst same
      simp [out, inside]
    · rw [if_neg same]
      split
      · next j lies =>
        have ne : i ≠ j := by
          rintro rfl
          exact same ((eq_of_itemIndex? lies).trans (eq_of_itemIndex? out).symm)
        rw [Array.getElem?_setIfInBounds_ne ne]
      · rfl
  next out =>
    split
    next i present =>
      have proper : k.isKey = true := by
        obtain ⟨v, h⟩ := t.listing.found.1 present
        exact t.listing.isKey h
      obtain ⟨old, stored⟩ := t.listing.found.1 present
      have inside : i < t.entries.size := (Array.getElem?_eq_some_iff.1 stored).1
      simp only [look, Array.set!_eq_setIfInBounds, proper, and_true]
      by_cases same : l = k
      · subst same
        simp [out, present, inside]
      · rw [if_neg same]
        cases itemIndex? t.items.size l with
        | some j => rfl
        | none =>
          cases found : t.position[l]? with
          | none => rfl
          | some j =>
            have ne : i ≠ j := by
              rintro rfl
              obtain ⟨_, h⟩ := t.listing.found.1 found
              rw [stored] at h
              cases h
              exact same rfl
            simp only [Array.getElem?_setIfInBounds_ne ne]
    next absent =>
      split
      next proper =>
        simp only [look, proper, and_true, Std.HashMap.getElem?_insert, Array.getElem?_push]
        by_cases same : l = k
        · subst same
          simp [out]
        · have ne : (k == l) = false := by
            rw [beq_eq_false_iff_ne]
            exact fun h => same h.symm
          rw [if_neg same]
          simp only [ne, Bool.false_eq_true, if_false]
          cases itemIndex? t.items.size l with
          | some j => rfl
          | none =>
            cases found : t.position[l]? with
            | none => rfl
            | some j =>
              obtain ⟨_, h⟩ := t.listing.found.1 found
              have inside : j < t.entries.size := (Array.getElem?_eq_some_iff.1 h).1
              simp [Nat.ne_of_lt inside]
      next improper => simp [improper]

theorem look_putAll_of_nil {es : List (Value × Value)} (h : ∀ e ∈ es, e.1 = k → e.2.isNil = true) :
    (t.putAll es).look k = t.look k := by
  induction es generalizing t with
  | nil => rfl
  | cons e es ih =>
    have rest := fun t => ih t fun e he => h e (List.mem_cons_of_mem _ he)
    rw [putAll, List.foldl_cons, ← putAll, rest]
    split
    · rfl
    · next here =>
      rw [look_put, if_neg]
      rintro ⟨rfl, -⟩
      exact here (h e List.mem_cons_self rfl)

theorem look_putAll_of_mem {es : List (Value × Value)} (distinct : (es.map (·.1)).Nodup)
    (mem : (k, v) ∈ es)
    (proper : k.isKey = true) (there : v.isNil = false) : (t.putAll es).look k = v := by
  induction es generalizing t with
  | nil => cases mem
  | cons e es ih =>
    rw [List.map_cons, List.nodup_cons] at distinct
    rw [putAll, List.foldl_cons, ← putAll]
    rcases List.mem_cons.1 mem with rfl | mem
    · have fresh : ∀ e ∈ es, e.1 = k → e.2.isNil = true := fun e he eq =>
        absurd (eq ▸ List.mem_map_of_mem he : k ∈ es.map (·.1)) distinct.1
      rw [look_putAll_of_nil _ fresh]
      simp [there, look_put, proper]
    · exact ih _ distinct.2 mem

@[simp] theorem length_slots : t.slots.length = t.items.size + t.entries.size := by
  simp [slots]

theorem getElem?_slots_items {i : Nat} (h : i < t.items.size) :
    t.slots[i]? = some (.ofNat (i + 1), t.items[i]) := by
  rw [slots, List.getElem?_append_left (by simpa using h)]
  simp [h]

theorem getElem?_slots_entries (i : Nat) : t.slots[t.items.size + i]? = t.entries[i]? := by
  rw [slots, List.getElem?_append_right (by simp)]
  simp

/-- A place in the order of traversal is an item or an entry beside the array. -/
theorem slots_cases {i : Nat} (h : t.slots[i]? = some (k, v)) :
    (∃ inside : i < t.items.size, k = .ofNat (i + 1) ∧ v = t.items[i]) ∨
      ∃ j, i = t.items.size + j ∧ t.entries[j]? = some (k, v) := by
  by_cases inside : i < t.items.size
  · rw [getElem?_slots_items t inside] at h
    cases h
    exact .inl ⟨inside, rfl, rfl⟩
  · obtain ⟨j, rfl⟩ := Nat.exists_eq_add_of_le (Nat.not_lt.1 inside)
    rw [getElem?_slots_entries] at h
    exact .inr ⟨j, rfl, h⟩

theorem isKey_of_slot {i : Nat} (h : t.slots[i]? = some (k, v)) : k.isKey = true := by
  rcases slots_cases t h with ⟨_, rfl, -⟩ | ⟨j, -, h⟩
  · rfl
  · exact t.listing.isKey h

theorem look_of_slot {i : Nat} (h : t.slots[i]? = some (k, v)) : t.look k = v := by
  rcases slots_cases t h with ⟨inside, rfl, rfl⟩ | ⟨j, -, h⟩
  · simp [look, itemIndex?_ofNat t.fits inside, inside]
  · simp [look, t.listing.outside h, t.listing.found.2 ⟨v, h⟩, h]

theorem exists_slot_of_look (there : (t.look k).isNil = false) :
    ∃ i : Nat, t.slots[i]? = some (k, t.look k) := by
  generalize found : t.look k = v at *
  unfold look at found
  split at found
  next i lies =>
    obtain ⟨_, -, -, inside⟩ := itemIndex?_eq_some.1 lies
    refine ⟨i, ?_⟩
    rw [getElem?_slots_items t inside, eq_of_itemIndex? lies, ← found]
    simp [inside]
  next =>
    split at found
    next i lies =>
      obtain ⟨w, h⟩ := t.listing.found.1 lies
      refine ⟨t.items.size + i, ?_⟩
      rw [getElem?_slots_entries, h]
      simp [h] at found
      rw [found]
    next =>
      subst found
      cases there

theorem slots_injective {i j : Nat} (hi : t.slots[i]? = some (k, v))
    (hj : t.slots[j]? = some (k, w)) : i = j := by
  rcases slots_cases t hi with ⟨inside, rfl, -⟩ | ⟨a, rfl, ha⟩
  · have here := itemIndex?_ofNat t.fits inside
    rcases slots_cases t hj with ⟨inside', eq, -⟩ | ⟨b, rfl, hb⟩
    · rw [eq, itemIndex?_ofNat t.fits inside'] at here
      exact (Option.some.inj here).symm
    · rw [t.listing.outside hb] at here
      cases here
  · rcases slots_cases t hj with ⟨inside', rfl, -⟩ | ⟨b, rfl, hb⟩
    · have there := itemIndex?_ofNat t.fits inside'
      rw [t.listing.outside ha] at there
      cases there
    · have same : some a = some b :=
        (t.listing.found.2 ⟨v, ha⟩).symm.trans (t.listing.found.2 ⟨w, hb⟩)
      rw [Option.some.inj same]

theorem nodup_slots : (t.slots.map (·.1)).Nodup := by
  rw [List.Nodup, List.pairwise_iff_getElem]
  intro i j hi hj lt eq
  rw [List.length_map] at hi hj
  rw [List.getElem_map, List.getElem_map] at eq
  have at_i : t.slots[i]? = some (t.slots[i].1, t.slots[i].2) := List.getElem?_eq_getElem hi
  have at_j : t.slots[j]? = some (t.slots[i].1, t.slots[j].2) := eq ▸ List.getElem?_eq_getElem hj
  exact Nat.ne_of_lt lt (slots_injective t at_i at_j)

theorem mem_live : (k, v) ∈ t.live ↔ v.isNil = false ∧ t.look k = v := by
  rw [live, List.mem_filter, Bool.not_eq_true', and_comm]
  refine and_congr_right fun there => ⟨fun mem => ?_, fun found => ?_⟩
  · obtain ⟨i, h⟩ := List.mem_iff_getElem?.1 mem
    exact look_of_slot t h
  · subst found
    exact List.mem_iff_getElem?.2 (exists_slot_of_look t there)

theorem nodup_live : (t.live.map (·.1)).Nodup := t.nodup_slots.sublist (List.filter_sublist.map _)

theorem isKey_of_mem_live (h : (k, v) ∈ t.live) : k.isKey = true := by
  obtain ⟨i, h⟩ := List.mem_iff_getElem?.1 (List.mem_of_mem_filter h)
  exact isKey_of_slot t h

theorem getElem?_itemsOf (size i : Nat) :
    (t.itemsOf size)[i]? = if i < size then some (t.items[i]?.getD .nil) else none := by
  unfold itemsOf
  rw [Array.getElem?_append, Array.size_extract, Array.getElem?_extract, Array.getElem?_replicate]
  split
  · next h =>
    rw [Nat.zero_add, if_pos (by omega), Array.getElem?_eq_getElem (by omega)]
    rfl
  · next h =>
    by_cases inside : i < size
    · rw [if_pos (by omega), if_pos inside, Array.getElem?_eq_none (by omega)]
      rfl
    · rw [if_neg (by omega), if_neg inside]

theorem look_ofItems (items : Array Value) (fits room metatable) :
    (ofItems items fits room metatable).look k =
      ((itemIndex? items.size k).bind fun i => items[i]?).getD .nil := by
  unfold look ofItems
  cases itemIndex? items.size k <;> simp

/-- An array that was cut or filled up holds what it shares with the old one. -/
theorem look_kept {size : Nat} (fits room metatable) (v : Value) (there : v.isNil = false) :
    (ofItems (t.itemsOf size) fits room metatable).look k = v ↔
      ∃ i < min size t.items.size, t.slots[i]? = some (k, v) := by
  rw [look_ofItems, size_itemsOf]
  constructor
  · intro h
    cases lies : itemIndex? size k with
    | none =>
      rw [lies] at h
      subst h
      cases there
    | some i =>
      obtain ⟨_, -, -, inside⟩ := itemIndex?_eq_some.1 lies
      rw [lies, Option.bind_some, getElem?_itemsOf, if_pos inside, Option.getD_some] at h
      by_cases old : i < t.items.size
      · refine ⟨i, by omega, ?_⟩
        rw [getElem?_slots_items t old, eq_of_itemIndex? lies, ← h, Array.getElem?_eq_getElem old]
        rfl
      · rw [Array.getElem?_eq_none (by omega)] at h
        subst h
        cases there
  · rintro ⟨i, lt, h⟩
    rw [getElem?_slots_items t (by omega)] at h
    cases h
    have small : i < size := by omega
    have inside : i < t.items.size := by omega
    have lies : itemIndex? size (.ofNat (i + 1)) = some i := by
      obtain ⟨n, eq, val, -⟩ := itemIndex?_eq_some.1 (itemIndex?_ofNat t.fits inside)
      exact itemIndex?_eq_some.2 ⟨n, eq, val, small⟩
    rw [lies, Option.bind_some, getElem?_itemsOf, if_pos small, Array.getElem?_eq_getElem inside]
    rfl

@[simp] theorem look_resized (size spare : Nat) : (t.resized size spare).look k = t.look k := by
  simp only [resized]
  have kept := fun v => t.look_kept (k := k) (t.fits_itemsOf size) (roomFor spare) t.metatable v
  generalize ofItems (t.itemsOf (min size arrayLimit)) _ _ _ = fresh at kept ⊢
  generalize min (min size arrayLimit) t.items.size = start at *
  by_cases moved : ∃ i v, t.slots[start + i]? = some (k, v) ∧ v.isNil = false
  · obtain ⟨i, v, h, there⟩ := moved
    have mem : (k, v) ∈ t.slots.drop start :=
      List.mem_iff_getElem?.2 ⟨i, by rw [List.getElem?_drop, h]⟩
    have distinct : ((t.slots.drop start).map (·.1)).Nodup :=
      t.nodup_slots.sublist ((List.drop_sublist start t.slots).map _)
    rw [look_putAll_of_mem fresh distinct mem (isKey_of_slot t h) there, look_of_slot t h]
  · have stays : (fresh.putAll (t.slots.drop start)).look k = fresh.look k := by
      apply look_putAll_of_nil
      rintro ⟨l, v⟩ mem rfl
      obtain ⟨i, h⟩ := List.mem_iff_getElem?.1 mem
      rw [List.getElem?_drop] at h
      by_contra there
      exact moved ⟨i, v, h, by simpa using there⟩
    rw [stays]
    by_cases there : (t.look k).isNil = false
    · obtain ⟨i, h⟩ := exists_slot_of_look t there
      refine (kept _ there).2 ⟨i, ?_, h⟩
      by_contra beyond
      obtain ⟨j, rfl⟩ := Nat.exists_eq_add_of_le (Nat.not_lt.1 beyond)
      exact moved ⟨j, _, h, there⟩
    · by_cases fresh_there : (fresh.look k).isNil = false
      · obtain ⟨i, -, h⟩ := (kept _ fresh_there).1 rfl
        exact (look_of_slot t h).symm
      · have gone : t.look k = .nil := Value.eq_nil_of_isNil (by simpa using there)
        have fresh_gone : fresh.look k = .nil := Value.eq_nil_of_isNil (by simpa using fresh_there)
        rw [gone, fresh_gone]

theorem get_empty (k : Value) : Table.empty.get k = .nil := by
  by_contra there
  have found : (Table.empty.look k.toKey).isNil = false := by
    cases entry : Table.empty.look k.toKey with
    | nil => exact absurd entry there
    | _ => rfl
  obtain ⟨i, slot⟩ := exists_slot_of_look _ found
  cases slot

theorem look_of_not_hasPlace (h : t.hasPlace k = false) : t.look k = .nil := by
  rw [hasPlace, Bool.or_eq_false_iff] at h
  have beyond : itemIndex? t.items.size k = none := by simpa using h.1
  have absent : t.position[k]? = none := by simpa using h.2
  simp [look, beyond, absent]

theorem get_set (proper : k.toKey.isKey = true) (v l : Value) :
    (t.set k v).get l = if l.toKey = k.toKey then v else t.get l := by
  unfold get set
  generalize l.toKey = l
  generalize k.toKey = k at *
  simp only
  split
  · rw [look_put]
    simp [proper]
  · next absent =>
    split
    · next nothing =>
      split
      · next same =>
        rw [same, look_of_not_hasPlace t (by simpa using absent), Value.eq_nil_of_isNil nothing]
      · rfl
    · split <;> simp [look_put, proper, grown]

@[simp] theorem metatable_put (k v : Value) : (t.put k v).metatable = t.metatable := by
  unfold put
  repeat' split
  all_goals rfl

theorem metatable_putAll (es : List (Value × Value)) : (t.putAll es).metatable = t.metatable := by
  induction es generalizing t with
  | nil => rfl
  | cons e es ih =>
    rw [putAll, List.foldl_cons, ← putAll, ih]
    split <;> simp

@[simp] theorem metatable_resized (size spare : Nat) :
    (t.resized size spare).metatable = t.metatable := by
  rw [resized, metatable_putAll]
  rfl

@[simp] theorem metatable_set (k v : Value) : (t.set k v).metatable = t.metatable := by
  unfold set
  simp only
  repeat' split
  all_goals simp [grown]

theorem mem_live_iff_get : (k, v) ∈ t.live ↔ k.isKey = true ∧ v.isNil = false ∧ t.get k = v := by
  constructor
  · intro mem
    have proper := isKey_of_mem_live t mem
    rw [get, Value.toKey_of_isKey proper]
    exact ⟨proper, (mem_live t).1 mem⟩
  · rintro ⟨proper, found⟩
    rw [get, Value.toKey_of_isKey proper] at found
    exact (mem_live t).2 found

theorem live_empty : Table.empty.live = [] := rfl

/-- Storing an entry with a new key adds it to the entries that are there. -/
theorem live_set (proper : k.isKey = true) (new : t.get k = .nil) (there : v.isNil = false) :
    (t.set k v).live.Perm ((k, v) :: t.live) := by
  have same := Value.toKey_of_isKey proper
  have absent : (k, v) ∉ t.live := by
    intro mem
    have found := ((mem_live_iff_get t).1 mem).2.2
    rw [new] at found
    subst found
    cases there
  refine (List.perm_ext_iff_of_nodup (nodup_live _).of_map
    (List.nodup_cons.2 ⟨absent, (nodup_live t).of_map⟩)).2 fun ⟨l, w⟩ => ?_
  rw [List.mem_cons, mem_live_iff_get, mem_live_iff_get, get_set t (by rwa [same]), same,
    Prod.mk.injEq]
  constructor
  · rintro ⟨key, present, found⟩
    rw [Value.toKey_of_isKey key] at found
    split at found
    · next eq => exact .inl ⟨eq, found.symm⟩
    · exact .inr ⟨key, present, found⟩
  · rintro (⟨rfl, rfl⟩ | ⟨key, present, found⟩)
    · exact ⟨proper, there, if_pos same⟩
    · refine ⟨key, present, ?_⟩
      rw [Value.toKey_of_isKey key, if_neg, found]
      rintro rfl
      rw [new] at found
      subst found
      cases present

theorem drop_slots {i : Nat} {s : Value × Value} (h : t.slots[i]? = some s) :
    t.slots.drop i = s :: t.slots.drop (i + 1) := by
  obtain ⟨inside, rfl⟩ := List.getElem?_eq_some_iff.1 h
  exact List.drop_eq_getElem_cons inside

theorem entryFrom_eq (i : Nat) : t.entryFrom i = (t.slots.drop i).find? fun s => !s.2.isNil := by
  fun_induction entryFrom t i with
  | case1 i inside v nothing ih =>
    rw [ih, drop_slots t (getElem?_slots_items t inside),
      List.find?_cons_of_neg (by simpa using nothing)]
  | case2 i inside v there =>
    rw [drop_slots t (getElem?_slots_items t inside), List.find?_cons_of_pos (by simpa using there)]
  | case3 i beyond inside k v lies nothing ih =>
    have slot : t.slots[i]? = some (k, v) := by
      obtain ⟨j, rfl⟩ := Nat.exists_eq_add_of_le (Nat.not_lt.1 beyond)
      rw [getElem?_slots_entries, Array.getElem?_eq_getElem (by omega), ← lies]
      simp
    rw [ih, drop_slots t slot, List.find?_cons_of_neg (by simpa using nothing)]
  | case4 i beyond inside k v lies there =>
    have slot : t.slots[i]? = some (k, v) := by
      obtain ⟨j, rfl⟩ := Nat.exists_eq_add_of_le (Nat.not_lt.1 beyond)
      rw [getElem?_slots_entries, Array.getElem?_eq_getElem (by omega), ← lies]
      simp
    rw [drop_slots t slot, List.find?_cons_of_pos (by simpa using there)]
  | case5 i beyond outside =>
    rw [List.drop_eq_nil_of_le (by rw [length_slots]; omega)]
    rfl

theorem placeAfter?_of_slot {i : Nat} (h : t.slots[i]? = some (k, v)) :
    t.placeAfter? k = some (i + 1) := by
  have proper := isKey_of_slot t h
  unfold placeAfter?
  rw [Value.toKey_of_isKey proper]
  split
  · cases proper
  · rcases slots_cases t h with ⟨inside, rfl, -⟩ | ⟨j, rfl, listed⟩
    · rw [itemIndex?_ofNat t.fits inside]
    · rw [t.listing.outside listed, t.listing.found.2 ⟨v, listed⟩]
      rfl

/-- All places in the order of a traversal. -/
def path (rank : Option (ByteArray → Nat)) : List (Value × Value) := rank.elim t.slots t.ranked

/-- The entries that are there in the order of a traversal. -/
def tour (rank : Option (ByteArray → Nat)) : List (Value × Value) :=
  (t.path rank).filter fun s => !s.2.isNil

def ahead? (rank : Option (ByteArray → Nat)) (key : Value) : Option (List (Value × Value)) :=
  rank.elim ((t.placeAfter? key).map t.slots.drop) fun r => after? (t.ranked r) key

variable (rank : Option (ByteArray → Nat))

theorem path_perm : (t.path rank).Perm t.slots := by
  cases rank with
  | none => exact .refl _
  | some r => exact List.mergeSort_perm _ _

theorem tour_perm : (t.tour rank).Perm t.live := (t.path_perm rank).filter _

theorem entryAfter?_eq (key : Value) :
    t.entryAfter? rank key = (t.ahead? rank key).map (·.find? fun s => !s.2.isNil) := by
  cases rank with
  | none =>
    have same : t.entryFrom = fun i => (t.slots.drop i).find? fun s =>
      !s.2.isNil := funext t.entryFrom_eq
    simp only [entryAfter?, ahead?, Option.elim_none, Option.map_map, same]
    rfl
  | some r => rfl

theorem after?_of_split {slots before after : List (Value × Value)} (proper : k.isKey = true)
    (split : slots = before ++ (k, v) :: after) (distinct : (slots.map (·.1)).Nodup) :
    after? slots k = some after := by
  have other : ∀ s ∈ before, (s.1 != k) = true := by
    intro s mem
    subst split
    rw [List.map_append, List.nodup_append] at distinct
    have apart := distinct.2.2 s.1 (List.mem_map_of_mem mem) k (by simp)
    simpa using apart
  have dropped : slots.dropWhile (·.1 != k) = (k, v) :: after := by
    rw [split, List.dropWhile_append_of_pos other, List.dropWhile_cons_of_neg (by simp)]
  unfold after?
  rw [Value.toKey_of_isKey proper]
  split
  · cases proper
  · rw [dropped]
    rfl

theorem after?_suffix {slots later : List (Value × Value)} {key : Value}
    (found : after? slots key = some later) :
    later <:+ slots := by
  unfold after? at found
  split at found
  · cases found
    exact List.suffix_rfl
  · refine List.IsSuffix.trans ?_
      (List.dropWhile_suffix (fun s : Value × Value => s.1 != key.toKey))
    cases dropped : slots.dropWhile (·.1 != key.toKey) with
    | nil =>
      rw [dropped] at found
      cases found
    | cons s rest =>
      rw [dropped] at found
      cases found
      exact List.suffix_cons s _

theorem ahead?_suffix {key : Value} {later : List (Value × Value)}
    (found : t.ahead? rank key = some later) :
    later <:+ t.path rank := by
  cases rank with
  | none =>
    obtain ⟨start, -, rfl⟩ := Option.map_eq_some_iff.1 found
    exact List.drop_suffix _ _
  | some r => exact after?_suffix found

theorem mem_live_of_entryAfter? {key : Value}
    (found : t.entryAfter? rank key = some (some (k, v))) : (k, v) ∈ t.live := by
  rw [entryAfter?_eq] at found
  obtain ⟨later, ahead, here⟩ := Option.map_eq_some_iff.1 found
  refine (t.tour_perm rank).subset (List.mem_filter.2 ⟨?_, by simpa using List.find?_some here⟩)
  exact (t.ahead?_suffix rank ahead).subset (List.mem_of_find?_eq_some here)

theorem ahead?_of_split {before after : List (Value × Value)}
    (split : t.path rank = before ++ (k, v) :: after) :
    t.ahead? rank k = some after := by
  cases rank with
  | none =>
    have slot : t.slots[before.length]? = some (k, v) := by
      change t.slots = _ at split
      rw [split, List.getElem?_append_right (Nat.le_refl _), Nat.sub_self]
      rfl
    have rest : t.slots.drop (before.length + 1) = after := by
      change t.slots = _ at split
      rw [split]
      simp
    exact (congrArg (Option.map _) (placeAfter?_of_slot t slot)).trans (congrArg some rest)
  | some r =>
    have there : (k, v) ∈ t.slots := (t.path_perm (some r)).subset (by rw [split]; simp)
    obtain ⟨i, slot⟩ := List.mem_iff_getElem?.1 there
    exact after?_of_split (t.isKey_of_slot slot)
      split (((t.path_perm (some r)).map _).nodup_iff.2 t.nodup_slots)

/-- A walk that has come to a key has these live entries ahead of it. -/
def Walks (k : Value) (rest : List (Value × Value)) : Prop :=
  ∃ later, t.ahead? rank k = some later ∧ later.filter (fun s => !s.2.isNil) = rest

namespace Walks

variable {t rank} {rest : List (Value × Value)}

theorem start (t : Table) (rank : Option (ByteArray → Nat)) : t.Walks rank .nil (t.tour rank) := by
  cases rank with
  | none => exact ⟨t.slots, rfl, rfl⟩
  | some r => exact ⟨t.ranked r, rfl, rfl⟩

theorem entryAfter? (w : t.Walks rank k rest) : t.entryAfter? rank k = some rest.head? := by
  obtain ⟨later, found, rfl⟩ := w
  rw [entryAfter?_eq, found, Option.map_some, List.head?_filter]

theorem next {l : Value} (w : t.Walks rank k ((l, v) :: rest)) : t.Walks rank l rest := by
  obtain ⟨later, found, eq⟩ := w
  obtain ⟨before, after, rfl, passed, there, rfl⟩ := List.filter_eq_cons_iff.1 eq
  obtain ⟨passed', split⟩ := t.ahead?_suffix rank found
  exact ⟨after, t.ahead?_of_split rank (by rw [← split, List.append_assoc]), rfl⟩

end Walks

end Table
end SealedLua.Lua
