import SealedLua.Proofs.Lua.Tables

/-!
# Tables that were filled from the front

A table whose keys `1 … n` came in order has them all in its array, which is
the smallest power of two that holds them, and nothing beside it.  Appending
and replacing keep it so, and its length is `n`.
-/

namespace SealedLua.Lua.Table

theorem roomFor_eq {n k : Nat} (below : 2 ^ k < 2 * n) (above : n ≤ 2 ^ k) : roomFor n = 2 ^ k := by
  unfold roomFor
  have pos : 0 < 2 ^ k := Nat.two_pow_pos k
  split
  · omega
  split
  · next one =>
    subst one
    cases k with
    | zero => rfl
    | succ k =>
      have : 0 < 2 ^ k := Nat.two_pow_pos k
      rw [Nat.pow_succ] at below
      omega
  · cases k with
    | zero => omega
    | succ k =>
      rw [Nat.pow_succ] at below above
      have : (n - 1).log2 = k :=
        (Nat.log2_eq_iff (by omega)).2 ⟨by omega, by rw [Nat.pow_succ]; omega⟩
      rw [this]

/-- The room for some entries is a power of two that they more than half fill. -/
theorem exists_roomFor {n : Nat} (pos : 0 < n) : ∃ k, roomFor n = 2 ^ k ∧
    2 ^ k < 2 * n ∧ n ≤ 2 ^ k := by
  obtain rfl | more : n = 1 ∨ 1 < n := by omega
  · exact ⟨0, rfl, by omega, by omega⟩
  · have low : 2 ^ (n - 1).log2 ≤ n - 1 := Nat.log2_self_le (by omega)
    have high : n - 1 < 2 ^ ((n - 1).log2 + 1) := Nat.lt_log2_self
    have step : 2 ^ ((n - 1).log2 + 1) = 2 ^ (n - 1).log2 * 2 := Nat.pow_succ _ _
    have bounds : 2 ^ ((n - 1).log2 + 1) < 2 * n ∧ n ≤ 2 ^ ((n - 1).log2 + 1) := by omega
    exact ⟨_, roomFor_eq bounds.1 bounds.2, bounds⟩

theorem le_roomFor (n : Nat) : n ≤ roomFor n := by
  rcases Nat.eq_zero_or_pos n with rfl | pos
  · exact Nat.le_refl 0
  · obtain ⟨k, eq, -, above⟩ := exists_roomFor pos
    omega

theorem roomFor_lt {n : Nat} (pos : 0 < n) : roomFor n < 2 * n := by
  obtain ⟨k, eq, below, -⟩ := exists_roomFor pos
  omega

theorem roomFor_succ_of_lt {n : Nat} (h : n < roomFor n) : roomFor (n + 1) = roomFor n := by
  rcases Nat.eq_zero_or_pos n with rfl | pos
  · cases h
  · obtain ⟨k, eq, below, -⟩ := exists_roomFor pos
    rw [eq] at h ⊢
    exact roomFor_eq (by omega) h

theorem itemIndex?_ofNat_of_le {size i : Nat} (h : i < arrayLimit) :
    itemIndex? size (.ofNat (i + 1)) = if i < size then some i else none := by
  have value : (Int64.ofNat (i + 1)).toInt = (i : Int) + 1 := by
    rw [toInt_ofNat h]
    rfl
  split
  · next inside => exact itemIndex?_eq_some.2 ⟨_, rfl, value, inside⟩
  · next outside =>
    rw [Option.eq_none_iff_forall_ne_some]
    intro j lies
    obtain ⟨n, eq, same, lt⟩ := itemIndex?_eq_some.1 lies
    cases eq
    omega

def ordinals (n : Nat) : List Value := (List.range n).map fun i => .ofNat (i + 1)

theorem ordinals_succ (n : Nat) : ordinals (n + 1) = ordinals n ++ [.ofNat (n + 1)] := by
  simp [ordinals, List.range_succ]

theorem taken_ordinals {n : Nat} (h : n ≤ arrayLimit) (size : Nat) :
    taken (ordinals n) size = min n size := by
  induction n with
  | zero => simp [taken, ordinals]
  | succ n ih =>
    have here : (itemIndex? size (.ofNat (n + 1))).isSome = decide (n < size) := by
      rw [itemIndex?_ofNat_of_le h]
      split <;> simp [*]
    rw [ordinals_succ, taken, List.countP_append, ← taken, ih (by omega),
      List.countP_singleton, here]
    by_cases lt : n < size <;> simp [lt] <;> omega

theorem taken_perm {ks ls : List Value} (h : ks.Perm ls) (size : Nat) :
    taken ks size = taken ls size := h.countP_eq _

theorem foldl_range_last {α : Type} {p : Nat → Bool} {f : Nat → α} {m n : Nat} (b : α) (lt : m < n)
    (h : ∀ i < n, p i = true ↔ i ≤ m) :
    (List.range n).foldl (fun best i => if p i then f i else best) b = f m := by
  induction n with
  | zero => omega
  | succ n ih =>
    rw [List.range_succ, List.foldl_append, List.foldl_cons, List.foldl_nil]
    by_cases here : n ≤ m
    · have : n = m := by omega
      rw [if_pos ((h n (by omega)).2 here), this]
    · rw [if_neg fun there => here ((h n (by omega)).1 there)]
      exact ih (by omega) fun i lt => h i (by omega)

theorem bestSize_ordinals {ks : List Value} {n : Nat} (pos : 0 < n) (small : n ≤ 2 ^ 62)
    (h : ks.Perm (ordinals n)) :
    bestSize ks = roomFor n := by
  obtain ⟨m, eq, below, above⟩ := exists_roomFor pos
  have limit : n ≤ arrayLimit := by rw [arrayLimit]; omega
  have m_lt : m < 64 := by
    have : 2 ^ m < 2 ^ 64 := by omega
    exact (Nat.pow_lt_pow_iff_right (by omega)).1 this
  rw [bestSize, eq]
  refine foldl_range_last (f := fun i => 2 ^ i) 0 m_lt fun i _ => ?_
  simp only [taken_perm h, taken_ordinals limit, Bool.and_eq_true, decide_eq_true_eq]
  have whole : min n (2 ^ 63) = n := by omega
  rw [whole]
  cases i with
  | zero => simp; omega
  | succ i =>
    have half : 2 ^ (i + 1) / 2 = 2 ^ i := by rw [Nat.pow_succ]; omega
    have grows : 2 ^ i < 2 ^ (i + 1) := Nat.pow_lt_pow_right (by omega) (by omega)
    have iff : i + 1 ≤ m ↔ 2 ^ i < n := by
      constructor
      · intro le
        have : 2 ^ (i + 1) ≤ 2 ^ m := Nat.pow_le_pow_right (by omega) le
        rw [Nat.pow_succ] at this
        omega
      · intro lt
        have : 2 ^ i < 2 ^ m := by omega
        exact (Nat.pow_lt_pow_iff_right (by omega)).1 this
    rw [half, iff]
    omega

theorem toList_itemsOf (t : Table) {size : Nat} (h : t.items.size ≤ size) :
    (t.itemsOf size).toList = t.items.toList ++ List.replicate (size - t.items.size) .nil := by
  have all : t.items.extract 0 size = t.items := Array.extract_eq_self_of_le h
  simp only [itemsOf, all, Array.toList_append, Array.toList_replicate]

/-- The table holds the items of a list under the keys from one on, in its
array, and nothing else. -/
structure IsSequence (t : Table) (vs : List Value) : Prop where
  items : t.items.toList = vs ++ List.replicate (roomFor vs.length - vs.length) .nil
  entries : t.entries = #[]
  room : t.room = 0
  metatable : t.metatable = none
  there : ∀ v ∈ vs, v.isNil = false

namespace IsSequence

variable {t : Table} {vs : List Value} {v : Value} {i : Nat}

theorem size_items (h : IsSequence t vs) : t.items.size = roomFor vs.length := by
  rw [← Array.length_toList, h.items, List.length_append, List.length_replicate]
  have := le_roomFor vs.length
  omega

theorem getElem?_items (h : IsSequence t vs) (inside : i < roomFor vs.length) :
    t.items[i]? = some (vs[i]?.getD .nil) := by
  rw [← Array.getElem?_toList, h.items, List.getElem?_append]
  split
  · next lt => rw [List.getElem?_eq_getElem lt, Option.getD_some]
  · next beyond =>
    rw [List.getElem?_eq_none (Nat.not_lt.1 beyond), List.getElem?_replicate_of_lt (by omega),
      Option.getD_none]

theorem new (t : Table) (items : t.items = #[]) (entries : t.entries = #[]) (room : t.room = 0)
    (plain : t.metatable = none) : IsSequence t [] := by
  refine ⟨?_, entries, room, plain, by simp⟩
  rw [items]
  rfl

theorem position (h : IsSequence t vs) (k : Value) : t.position[k]? = none := by
  rw [Option.eq_none_iff_forall_ne_some]
  intro j lies
  obtain ⟨_, stored⟩ := t.listing.found.1 lies
  simp [h.entries] at stored

theorem get (h : IsSequence t vs) (small : i < arrayLimit) :
    t.get (.ofNat (i + 1)) = vs[i]?.getD .nil := by
  have key : (Value.ofNat (i + 1)).toKey = .ofNat (i + 1) := rfl
  rw [Table.get, key, look, h.size_items, itemIndex?_ofNat_of_le small]
  by_cases inside : i < roomFor vs.length
  · simp [inside, h.getElem?_items inside]
  · have beyond : vs[i]? = none := List.getElem?_eq_none (by have := le_roomFor vs.length; omega)
    simp [inside, h.position, beyond]

theorem put_item {k : Value} (lies : itemIndex? t.items.size k = some i) (v : Value) :
    (t.put k v).items = t.items.set! i v ∧ (t.put k v).entries = t.entries ∧
      (t.put k v).room = t.room := by
  unfold put
  split
  · next j eq =>
    rw [lies] at eq
    cases eq
    exact ⟨rfl, rfl, rfl⟩
  · next eq =>
    rw [lies] at eq
    cases eq

theorem set_present (h : IsSequence t vs) (inside : i < roomFor vs.length)
    (small : i < arrayLimit) (v : Value) :
    (t.set (.ofNat (i + 1)) v).items = t.items.set! i v ∧
      (t.set (.ofNat (i + 1)) v).entries = t.entries ∧
      (t.set (.ofNat (i + 1)) v).room = t.room := by
  have lies : itemIndex? t.items.size (.ofNat (i + 1)) = some i := by
    rw [h.size_items, itemIndex?_ofNat_of_le small, if_pos inside]
  have key : (Value.ofNat (i + 1)).toKey = .ofNat (i + 1) := rfl
  have placed : t.hasPlace (.ofNat (i + 1)) = true := by simp [hasPlace, lies]
  simp only [Table.set, key, placed, if_true]
  exact put_item lies v

theorem replace (h : IsSequence t vs) (inside : i < vs.length) (small : i < arrayLimit)
    (there : v.isNil = false) :
    IsSequence (t.set (.ofNat (i + 1)) v) (vs.set i v) := by
  have fits := le_roomFor vs.length
  obtain ⟨items, entries, room⟩ := h.set_present (by omega) small v
  refine ⟨?_, entries.trans h.entries, room.trans h.room, (metatable_set t _ _).trans h.metatable,
    fun w mem => ?_⟩
  · rw [items, Array.set!_eq_setIfInBounds, Array.toList_setIfInBounds, h.items,
      List.set_append_left _ _ inside, List.length_set]
  · rcases List.mem_or_eq_of_mem_set mem with mem | rfl
    · exact h.there w mem
    · exact there

theorem keys_of_full (h : IsSequence t vs) (full : roomFor vs.length = vs.length) :
    t.live.map (·.1) = ordinals vs.length := by
  have items : t.items.toList = vs := by simpa [full] using h.items
  have all : t.live = t.slots := by
    rw [live, List.filter_eq_self]
    intro s mem
    obtain ⟨i, lies⟩ := List.mem_iff_getElem?.1 mem
    rcases slots_cases t lies with ⟨inside, -, value⟩ | ⟨j, -, stored⟩
    · have mem : t.items[i] ∈ vs := by
        rw [← items]
        exact Array.getElem_mem_toList inside
      rw [value]
      simp [h.there _ mem]
    · simp [h.entries] at stored
  rw [all, slots, items, h.entries, Array.toList_empty, List.append_nil, ordinals]
  refine List.ext_getElem (by simp) fun i _ _ => by simp

/-- A full sequence is laid out again with an array of twice the size. -/
theorem grown_full (h : IsSequence t vs) (small : vs.length < 2 ^ 62)
    (full : roomFor vs.length = vs.length) :
    let grown := t.grown (.ofNat (vs.length + 1))
    grown.items = t.itemsOf (roomFor (vs.length + 1)) ∧ grown.entries = #[] ∧ grown.room = 0 := by
  have limit : vs.length + 1 ≤ arrayLimit := by rw [arrayLimit]; omega
  have fits := le_roomFor (vs.length + 1)
  have bound : roomFor (vs.length + 1) ≤ arrayLimit := by
    have : roomFor (vs.length + 1) < 2 * (vs.length + 1) := roomFor_lt (Nat.succ_pos _)
    rw [arrayLimit]
    omega
  have keys : (Value.ofNat (vs.length + 1) :: t.live.map (·.1)).Perm
      (ordinals (vs.length + 1)) := by
    rw [h.keys_of_full full, ordinals_succ]
    exact (List.perm_append_singleton _ _).symm
  have spare : (Value.ofNat (vs.length + 1) :: t.live.map (·.1)).length = vs.length + 1 := by
    rw [keys.length_eq]
    simp [ordinals]
  have rest : t.slots.drop (min (roomFor (vs.length + 1)) t.items.size) = [] := by
    apply List.drop_eq_nil_of_le
    rw [length_slots, h.entries, h.size_items]
    simp
    omega
  simp only [grown, bestSize_ordinals (Nat.succ_pos _) small keys, taken_perm keys,
    taken_ordinals limit, spare, Nat.min_eq_left fits, Nat.sub_self, resized, Nat.min_eq_left bound,
    rest, putAll, List.foldl_nil]
  exact ⟨rfl, rfl, rfl⟩

theorem append (h : IsSequence t vs) (small : vs.length < 2 ^ 62) (there : v.isNil = false) :
    IsSequence (t.set (.ofNat (vs.length + 1)) v) (vs ++ [v]) := by
  have limit : vs.length < arrayLimit := by rw [arrayLimit]; omega
  have fits := le_roomFor vs.length
  have all : ∀ w ∈ vs ++ [v], w.isNil = false := by
    intro w mem
    rcases List.mem_append.1 mem with mem | mem
    · exact h.there w mem
    · rw [List.mem_singleton.1 mem, there]
  have plain := (metatable_set t (.ofNat (vs.length + 1)) v).trans h.metatable
  have length : (vs ++ [v]).length = vs.length + 1 := by simp
  rcases Nat.lt_or_eq_of_le fits with room | full
  · obtain ⟨items, entries, same⟩ := h.set_present room limit v
    refine ⟨?_, entries.trans h.entries, same.trans h.room, plain, all⟩
    obtain ⟨more, eq⟩ : ∃ more, roomFor vs.length - vs.length = more + 1 :=
      ⟨_, (Nat.sub_add_cancel (by omega)).symm⟩
    rw [items, Array.set!_eq_setIfInBounds, Array.toList_setIfInBounds, h.items, length,
      roomFor_succ_of_lt room, Nat.sub_add_eq, eq, List.set_append_right _ _ (Nat.le_refl _),
      Nat.sub_self, List.replicate_succ, List.set_cons_zero,
      Nat.add_sub_cancel, List.append_assoc, List.singleton_append]
  · obtain ⟨items, entries, empty⟩ := h.grown_full small full.symm
    have outside : t.hasPlace (.ofNat (vs.length + 1)) = false := by
      have beyond : itemIndex? t.items.size (.ofNat (vs.length + 1)) = none := by
        rw [h.size_items, itemIndex?_ofNat_of_le limit, if_neg (by omega)]
      have absent : t.position.contains (.ofNat (vs.length + 1)) = false := by
        rw [Std.HashMap.contains_eq_isSome_getElem?, h.position]
        rfl
      simp [hasPlace, beyond, absent]
    have crowded : ¬t.entries.size < t.room := by simp [h.entries, h.room]
    have room := le_roomFor (vs.length + 1)
    have set_eq : t.set (.ofNat (vs.length + 1)) v = (t.grown (.ofNat (vs.length + 1))).put
        (.ofNat (vs.length + 1)) v := by
      have key : (Value.ofNat (vs.length + 1)).toKey = .ofNat (vs.length + 1) := rfl
      simp only [Table.set, key, outside, there, Bool.false_eq_true, if_false, crowded]
    have lies : itemIndex? (t.grown (.ofNat (vs.length + 1))).items.size (.ofNat (vs.length + 1)) =
        some vs.length := by
      rw [items, size_itemsOf, itemIndex?_ofNat_of_le limit, if_pos (by omega)]
    obtain ⟨items', entries', room'⟩ := put_item lies v
    rw [set_eq]
    refine ⟨?_, entries'.trans entries, room'.trans empty, set_eq ▸ plain, all⟩
    have old : t.items.toList = vs := by simpa [← full] using h.items
    have size : t.items.size = vs.length := by rw [h.size_items, ← full]
    obtain ⟨more, eq⟩ : ∃ more, roomFor (vs.length + 1) - vs.length = more + 1 :=
      ⟨_, (Nat.sub_add_cancel (by omega)).symm⟩
    rw [items', items, Array.set!_eq_setIfInBounds, Array.toList_setIfInBounds,
      toList_itemsOf t (by omega), old, size, length, Nat.sub_add_eq, eq,
      List.set_append_right _ _ (Nat.le_refl _), Nat.sub_self, List.replicate_succ,
      List.set_cons_zero, Nat.add_sub_cancel, List.append_assoc, List.singleton_append]

theorem searchBorder_eq {present : Nat → Bool} {n low high : Nat}
    (above : low ≤ n) (below : n < high)
    (border : ∀ m, low < m → m < high → (present m = true ↔ m ≤ n)) :
    searchBorder present low high = n := by
  fun_induction searchBorder present low high with
  | case1 low high room middle here ih =>
    have le : middle ≤ n := (border middle (by omega) (by omega)).1 here
    exact ih le below fun m lower upper => border m (by omega) upper
  | case2 low high room middle here ih =>
    have lt : n < middle := by
      by_contra le
      exact here ((border middle (by omega) (by omega)).2 (by omega))
    exact ih above lt fun m lower upper => border m lower (by omega)
  | case3 low high narrow => omega

theorem length_eq (h : IsSequence t vs) (small : vs.length < 2 ^ 62) : t.length = vs.length := by
  have fits := le_roomFor vs.length
  have bound : roomFor vs.length ≤ arrayLimit := by
    rcases Nat.eq_zero_or_pos vs.length with eq | pos
    · rw [eq]
      exact Nat.zero_le _
    · have := roomFor_lt pos
      rw [arrayLimit]
      omega
  have present : ∀ m, 0 < m → m ≤ roomFor vs.length →
      ((t.getNat m).isNil = false ↔ m ≤ vs.length) := by
    intro m pos le
    obtain ⟨i, rfl⟩ := Nat.exists_eq_add_one.2 pos
    rw [getNat, h.get (by omega)]
    by_cases inside : i < vs.length
    · rw [List.getElem?_eq_getElem inside, Option.getD_some]
      simp [h.there _ (List.getElem_mem inside), Nat.succ_le_of_lt inside]
    · rw [List.getElem?_eq_none (Nat.not_lt.1 inside)]
      simp [Value.isNil, Nat.not_le_of_lt (Nat.lt_succ_of_le (Nat.not_lt.1 inside))]
  simp only [Table.length, h.size_items, h.room]
  by_cases short : vs.length < roomFor vs.length
  · have gone : (t.getNat (roomFor vs.length)).isNil = true := by
      by_contra there
      exact absurd ((present _ (by omega) (Nat.le_refl _)).1 (by simpa using there)) (by omega)
    have pos : roomFor vs.length > 0 := by omega
    simp only [gone, Bool.not_true, Bool.not_false, Bool.and_true, decide_eq_true_eq, if_pos pos]
    split
    · next last =>
      simp only [Bool.and_eq_true, decide_eq_true_eq, Bool.not_eq_true'] at last
      have := (present _ (by omega) (by omega)).1 last.2
      omega
    · refine searchBorder_eq (Nat.zero_le _) short fun m lower upper => ?_
      rw [Bool.not_eq_true']
      exact present m lower (by omega)
  · have full : roomFor vs.length = vs.length := by omega
    rw [full]
    have there : 0 < vs.length → (t.getNat vs.length).isNil = false := fun pos =>
      (present _ pos fits).2 (Nat.le_refl _)
    rcases Nat.eq_zero_or_pos vs.length with eq | pos
    · simp [eq]
    · simp [pos, there pos]

end IsSequence

end SealedLua.Lua.Table
