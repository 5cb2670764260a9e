import SealedLua.Proofs.Lua.Tables
import SealedLua.Lua.Heap

/-!
# Renaming the objects of a heap

Two heaps can hold the same objects at different places.  A renaming says where
each object of one heap is in the other, which may hold more objects besides;
what is made later is made in both.  Values, tables and whole heaps correspond
along a renaming, and whatever can be asked of them has corresponding answers.
-/

open Function (Injective)

namespace SealedLua.Lua

/-- The elements of an array are in another one at the places that `f` says, and
what is added to the ends of both is at corresponding places as well. -/
structure Carried {α : Type} (f : Nat → Nat) (same : α → α → Prop) (a b : Array α) : Prop where
  present {i : Nat} {x : α} : a[i]? = some x → ∃ y, b[f i]? = some y ∧ same x y
  added (k : Nat) : f (a.size + k) = b.size + k

namespace Carried

variable {α : Type} {f : Nat → Nat} {same : α → α → Prop} {a b : Array α} {i : Nat} {x y : α}

theorem absent (c : Carried f same a b) (h : a[i]? = none) : b[f i]? = none := by
  obtain ⟨k, rfl⟩ := Nat.exists_eq_add_of_le (Array.getElem?_eq_none_iff.1 h)
  rw [c.added, Array.getElem?_eq_none (Nat.le_add_right _ _)]

theorem getD (c : Carried f same a b) (h : same x y) (i : Nat) :
    same (a[i]?.getD x) (b[f i]?.getD y) := by
  cases found : a[i]? with
  | none =>
    rw [c.absent found]
    exact h
  | some z =>
    obtain ⟨w, there, hsame⟩ := c.present found
    rw [there]
    exact hsame

theorem place_size (c : Carried f same a b) : f a.size = b.size := c.added 0

theorem push (c : Carried f same a b) (h : same x y) : Carried f same (a.push x) (b.push y) where
  present {i z} found := by
    rw [Array.getElem?_push] at found
    split at found
    · next heq =>
      cases found
      exact ⟨y, by rw [heq, c.place_size, Array.getElem?_push_size], h⟩
    · obtain ⟨w, there, hsame⟩ := c.present found
      have inside : f i < b.size := (Array.getElem?_eq_some_iff.1 there).1
      exact ⟨w, by rw [Array.getElem?_push, if_neg (Nat.ne_of_lt inside), there], hsame⟩
  added k := by
    rw [Array.size_push, Array.size_push, Nat.add_assoc, Nat.add_assoc, c.added]

theorem modify {g g' : α → α} (c : Carried f same a b) (inj : Injective f) (i : Nat)
    (h : ∀ x y, same x y → same (g x) (g' y)) :
    Carried f same (a.modify i g) (b.modify (f i) g') where
  present {j z} found := by
    rw [Array.getElem?_modify] at found
    rw [Array.getElem?_modify]
    by_cases heq : i = j
    · subst heq
      rw [if_pos rfl] at found ⊢
      obtain ⟨x, there, rfl⟩ := Option.map_eq_some_iff.1 found
      obtain ⟨y, there', hsame⟩ := c.present there
      exact ⟨g' y, by rw [there']; rfl, h x y hsame⟩
    · rw [if_neg heq] at found
      rw [if_neg fun hplace => heq (inj hplace)]
      exact c.present found
  added k := by
    rw [Array.size_modify, Array.size_modify, c.added]

theorem set (c : Carried f same a b) (inj : Injective f) (i : Nat) (h : same x y) :
    Carried f same (a.set! i x) (b.set! (f i) y) where
  present {j z} found := by
    rw [Array.set!_eq_setIfInBounds, Array.getElem?_setIfInBounds] at found
    rw [Array.set!_eq_setIfInBounds, Array.getElem?_setIfInBounds]
    by_cases heq : i = j
    · subst heq
      rw [if_pos rfl] at found ⊢
      split at found
      · next inside =>
        cases found
        obtain ⟨w, there, -⟩ := c.present (Array.getElem?_eq_getElem inside)
        exact ⟨y, by rw [if_pos (Array.getElem?_eq_some_iff.1 there).1], h⟩
      · cases found
    · rw [if_neg heq] at found
      rw [if_neg fun hplace => heq (inj hplace)]
      exact c.present found
  added k := by
    simp only [Array.set!_eq_setIfInBounds, Array.size_setIfInBounds, c.added]

end Carried

/-- Where the objects of a heap are in another one.  The libraries and the first
variable, which an address outside a scope stands for, have the same places in
all heaps. -/
structure Renaming where
  cell : CellId → CellId
  table : TableId → TableId
  closure : ClosureId → ClosureId
  matcher : MatcherId → MatcherId
  failure : Nat → Nat
  cell_injective : Injective cell
  table_injective : Injective table
  closure_injective : Injective closure
  matcher_injective : Injective matcher
  failure_injective : Injective failure
  library : ∀ id ≤ Heap.stringMetatable, table id = id
  firstCell : cell 0 = 0

namespace Renaming

variable (ρ : Renaming)

/-- A value that refers to objects of one heap as a value that refers to those of the other. -/
def value : Value → Value
  | .nil => .nil
  | .boolean b => .boolean b
  | .integer n => .integer n
  | .double x => .double x
  | .string s => .string s
  | .table id => .table (ρ.table id)
  | .closure id => .closure (ρ.closure id)
  | .builtin b => .builtin b
  | .matcher id => .matcher (ρ.matcher id)
  | .host id => .host id
  | .failure e => .failure ⟨ρ.failure e.serial, e.message⟩

@[simp] theorem value_nil : ρ.value .nil = .nil := rfl

@[simp] theorem value_boolean (b : Bool) : ρ.value (.boolean b) = .boolean b := rfl

@[simp] theorem value_integer (n : Int64) : ρ.value (.integer n) = .integer n := rfl

@[simp] theorem value_double (x : Double) : ρ.value (.double x) = .double x := rfl

@[simp] theorem value_string (s : ByteArray) : ρ.value (.string s) = .string s := rfl

@[simp] theorem value_table (id : TableId) : ρ.value (.table id) = .table (ρ.table id) := rfl

@[simp] theorem value_closure (id : ClosureId) :
    ρ.value (.closure id) = .closure (ρ.closure id) := rfl

@[simp] theorem value_builtin (b : Builtin) : ρ.value (.builtin b) = .builtin b := rfl

@[simp] theorem value_matcher (id : MatcherId) :
    ρ.value (.matcher id) = .matcher (ρ.matcher id) := rfl

@[simp] theorem value_host (id : HostId) : ρ.value (.host id) = .host id := rfl

@[simp] theorem value_failure (e : Failure) :
    ρ.value (.failure e) = .failure ⟨ρ.failure e.serial, e.message⟩ := rfl

abbrev values (vs : List Value) : List Value := vs.map ρ.value

section Values

variable (v w : Value)

theorem value_injective : Injective ρ.value := by
  intro v w h
  cases v with
  | table id =>
    cases w with
    | table id' => exact congrArg Value.table (ρ.table_injective (Value.table.inj h))
    | _ => cases h
  | closure id =>
    cases w with
    | closure id' => exact congrArg Value.closure (ρ.closure_injective (Value.closure.inj h))
    | _ => cases h
  | matcher id =>
    cases w with
    | matcher id' => exact congrArg Value.matcher (ρ.matcher_injective (Value.matcher.inj h))
    | _ => cases h
  | failure e =>
    cases w with
    | failure e' =>
      obtain ⟨hserial, hmessage⟩ := Failure.mk.inj (Value.failure.inj h)
      obtain ⟨serial, message⟩ := e
      obtain ⟨serial', message'⟩ := e'
      cases ρ.failure_injective hserial
      cases hmessage
      rfl
    | _ => cases h
  | _ => cases w <;> first | exact h | cases h

@[simp] theorem value_inj : ρ.value v = ρ.value w ↔ v = w := ρ.value_injective.eq_iff

variable {v} in
theorem value_eq_string {ρ : Renaming} {s : ByteArray} (h : ρ.value v = .string s) :
    v = .string s :=
  ρ.value_injective (h.trans (ρ.value_string s).symm)

variable {v} in
theorem value_eq_integer {ρ : Renaming} {n : Int64} (h : ρ.value v = .integer n) : v = .integer n :=
  ρ.value_injective (h.trans (ρ.value_integer n).symm)

@[simp] theorem beq_value : (ρ.value v == ρ.value w) = (v == w) := by
  rw [Bool.eq_iff_iff, beq_iff_eq, beq_iff_eq, value_inj]

@[simp] theorem isNil_value : (ρ.value v).isNil = v.isNil := by cases v <;> rfl

@[simp] theorem truthy_value : (ρ.value v).truthy = v.truthy := by cases v <;> rfl

@[simp] theorem isFunction_value : (ρ.value v).isFunction = v.isFunction := by cases v <;> rfl

@[simp] theorem typeName_value : (ρ.value v).typeName = v.typeName := by cases v <;> rfl

@[simp] theorem number?_value : (ρ.value v).number? = v.number? := by cases v <;> rfl

@[simp] theorem integer?_value : (ρ.value v).integer? = v.integer? := by cases v <;> rfl

@[simp] theorem double?_value : (ρ.value v).double? = v.double? := by cases v <;> rfl

@[simp] theorem coerced?_value : (ρ.value v).coerced? = v.coerced? := by cases v <;> rfl

@[simp] theorem coercedInteger?_value : (ρ.value v).coercedInteger? = v.coercedInteger? := by
  rw [Value.coercedInteger?, Value.coercedInteger?, coerced?_value]

@[simp] theorem coercedDouble?_value : (ρ.value v).coercedDouble? = v.coercedDouble? := by
  rw [Value.coercedDouble?, Value.coercedDouble?, coerced?_value]

@[simp] theorem text?_value : (ρ.value v).text? = v.text? := by cases v <;> rfl

@[simp] theorem isKey_value : (ρ.value v).isKey = v.isKey := by cases v <;> rfl

@[simp] theorem value_ofNumber (n : Number) : ρ.value (.ofNumber n) = .ofNumber n := by
  cases n <;> rfl

@[simp] theorem value_ofLiteral (l : Literal) : ρ.value (.ofLiteral l) = .ofLiteral l := by
  cases l with
  | number n => exact ρ.value_ofNumber n
  | _ => rfl

@[simp] theorem value_ofNat (n : Nat) : ρ.value (.ofNat n) = .ofNat n := rfl

@[simp] theorem value_ofAscii (text : String) : ρ.value (.ofAscii text) = .ofAscii text := rfl

@[simp] theorem value_ofText (text : String) : ρ.value (.ofText text) = .ofText text := rfl

theorem toKey_value : (ρ.value v).toKey = ρ.value v.toKey := by
  cases v with
  | double x =>
    simp only [value, Value.toKey]
    split <;> rfl
  | _ => rfl

@[simp] theorem itemIndex?_value (size : Nat) :
    itemIndex? size (ρ.value v) = itemIndex? size v := by cases v <;> rfl

@[simp] theorem rawEq_value : (ρ.value v).rawEq (ρ.value w) = v.rawEq w := by
  have hbeq := ρ.beq_value v w
  cases v <;> cases w <;> first | rfl | exact hbeq

end Values

theorem adjust_values (count : Nat) (vs : List Value) :
    adjust count (ρ.values vs) = ρ.values (adjust count vs) := by
  simp [adjust, List.map_take]

theorem headD_values (vs : List Value) : (ρ.values vs).headD .nil = ρ.value (vs.headD .nil) := by
  cases vs <;> rfl

theorem values_integers {α : Type} (l : List α) (f : α → Int64) :
    ρ.values (l.map fun a => .integer (f a)) = l.map fun a => .integer (f a) := by
  simp [Function.comp_def]

def entry (e : Value × Value) : Value × Value := (ρ.value e.1, ρ.value e.2)

/-- A table that holds what another one holds, in the same layout. -/
structure SameTable (t u : Table) : Prop where
  items : u.items = t.items.map ρ.value
  entries : u.entries = t.entries.map ρ.entry
  room : u.room = t.room
  metatable : u.metatable = t.metatable.map ρ.table

theorem placeAfter?_eq (t : Table) (k : Value) :
    t.placeAfter? k = if k.toKey.isNil then some 0
      else ((itemIndex? t.items.size k.toKey).map (· + 1)).or (t.position[k.toKey]?.map fun i =>
        t.items.size + i + 1) := by
  unfold Table.placeAfter?
  generalize k.toKey = key
  cases key with
  | nil => rfl
  | integer n => cases h : itemIndex? t.items.size (.integer n) <;> simp [Value.isNil, h]
  | _ => rfl

theorem after?_entries (slots : List (Value × Value)) (k : Value) :
    Table.after? (slots.map ρ.entry) (ρ.value k) = (Table.after? slots k).map (·.map ρ.entry) := by
  have other : ((fun s : Value × Value => s.1 != ρ.value k.toKey) ∘ ρ.entry) =
      fun s => s.1 != k.toKey := by
    funext s
    simp [entry, bne]
  have dropped : ((slots.map ρ.entry).dropWhile (·.1 != ρ.value k.toKey)).tail? =
      (slots.dropWhile (·.1 != k.toKey)).tail?.map (·.map ρ.entry) := by
    rw [List.dropWhile_map, other]
    cases slots.dropWhile (·.1 != k.toKey) <;> rfl
  unfold Table.after?
  rw [ρ.toKey_value]
  generalize k.toKey = key at dropped
  cases key with
  | nil => rfl
  | _ => exact dropped

namespace SameTable

open Table

variable {ρ} {t u : Table} (h : ρ.SameTable t u) (k v : Value)

theorem ofItems {items items' : Array Value} (hitems : items' = items.map ρ.value) (fits fits' room)
    {metatable metatable' : Option TableId} (hmetatable : metatable' = metatable.map ρ.table) :
    ρ.SameTable (Table.ofItems items fits room metatable)
      (Table.ofItems items' fits' room metatable') where
  items := hitems
  entries := by simp [Table.ofItems]
  room := rfl
  metatable := hmetatable

theorem empty : ρ.SameTable Table.empty Table.empty := ofItems (by simp) _ _ _ rfl

include h

theorem size_items : u.items.size = t.items.size := by
  rw [h.items, Array.size_map]

theorem position : u.position[ρ.value k]? = t.position[k]? := by
  apply Option.ext
  intro i
  rw [u.listing.found, t.listing.found, h.entries]
  simp only [Array.getElem?_map, Option.map_eq_some_iff]
  constructor
  · rintro ⟨_, ⟨k', v⟩, found, heq⟩
    rw [← ρ.value_injective (Prod.mk.inj heq).1]
    exact ⟨v, found⟩
  · rintro ⟨v, found⟩
    exact ⟨ρ.value v, (k, v), found, rfl⟩

theorem slots : u.slots = t.slots.map ρ.entry := by
  have hitems : u.items.toList.mapIdx (fun i v => (Value.ofNat (i + 1), v)) =
      (t.items.toList.mapIdx fun i v => (Value.ofNat (i + 1), v)).map ρ.entry := by
    apply List.ext_getElem?
    intro i
    simp [h.items, entry, Function.comp_def]
  simp [Table.slots, hitems, h.entries]

theorem live : u.live = t.live.map ρ.entry := by
  rw [Table.live, Table.live, h.slots, List.filter_map]
  congr 2
  funext e
  simp [entry]

theorem look : u.look (ρ.value k) = ρ.value (t.look k) := by
  unfold Table.look
  rw [itemIndex?_value, h.size_items, h.position]
  cases itemIndex? t.items.size k with
  | some i => cases found : t.items[i]? <;> simp [h.items, found]
  | none =>
    cases t.position[k]? with
    | none => rfl
    | some i => cases found : t.entries[i]? <;> simp [h.entries, found, entry]

theorem get : u.get (ρ.value k) = ρ.value (t.get k) := by
  rw [Table.get, Table.get, ρ.toKey_value, h.look]

theorem hasPlace : u.hasPlace (ρ.value k) = t.hasPlace k := by
  simp only [Table.hasPlace, Std.HashMap.contains_eq_isSome_getElem?, h.position,
    itemIndex?_value, h.size_items]

theorem put : ρ.SameTable (t.put k v) (u.put (ρ.value k) (ρ.value v)) := by
  have hindex : itemIndex? u.items.size (ρ.value k) = itemIndex? t.items.size k := by
    rw [itemIndex?_value, h.size_items]
  have hposition := h.position k
  unfold Table.put
  split
  · next i out =>
    rw [out] at hindex
    split
    · next j out' =>
      cases hindex.symm.trans out'
      exact ⟨by simp [h.items], h.entries, h.room, h.metatable⟩
    · next out' => cases hindex.symm.trans out'
  · next out =>
    rw [out] at hindex
    split
    · next i present =>
      rw [present] at hposition
      split
      · next out' => cases hindex.symm.trans out'
      · split
        · next present' =>
          cases hposition.symm.trans present'
          exact ⟨h.items, by simp [h.entries, entry], h.room, h.metatable⟩
        · next absent' => cases hposition.symm.trans absent'
    · next absent =>
      rw [absent] at hposition
      split
      · next proper =>
        split
        · next out' => cases hindex.symm.trans out'
        · split
          · next present' => cases hposition.symm.trans present'
          · rw [dif_pos (by rwa [isKey_value])]
            exact ⟨h.items, by simp [h.entries, entry], h.room, h.metatable⟩
      · next improper =>
        split
        · next out' => cases hindex.symm.trans out'
        · split
          · next present' => cases hposition.symm.trans present'
          · rw [dif_neg (by rwa [isKey_value])]
            exact h

theorem itemsOf (size : Nat) : u.itemsOf size = (t.itemsOf size).map ρ.value := by
  simp [Table.itemsOf, h.items]

theorem putAll (es : List (Value × Value)) :
    ρ.SameTable (t.putAll es) (u.putAll (es.map ρ.entry)) := by
  induction es generalizing t u with
  | nil => exact h
  | cons e es ih =>
    have hnil : (ρ.entry e).2.isNil = e.2.isNil := ρ.isNil_value e.2
    rw [List.map_cons, Table.putAll, Table.putAll, List.foldl_cons, List.foldl_cons, hnil]
    cases e.2.isNil with
    | true => exact ih h
    | false => exact ih (h.put e.1 e.2)

theorem resized (size spare : Nat) : ρ.SameTable (t.resized size spare) (u.resized size spare) := by
  unfold Table.resized
  simp only
  rw [h.slots, ← List.map_drop, h.size_items]
  exact (ofItems (h.itemsOf _) _ _ _ h.metatable).putAll _

theorem grown : ρ.SameTable (t.grown k) (u.grown (ρ.value k)) := by
  have htaken : ∀ (keys : List Value) (size : Nat),
      taken (ρ.values keys) size = taken keys size := by
    intro keys size
    simp [taken, List.countP_map, Function.comp_def]
  have hkeys : ρ.value k :: u.live.map (·.1) = ρ.values (k :: t.live.map (·.1)) := by
    rw [h.live]
    simp [entry, Function.comp_def]
  have hbest : bestSize (ρ.values (k :: t.live.map (·.1))) = bestSize (k :: t.live.map (·.1)) := by
    simp only [bestSize, htaken]
  simp only [Table.grown, hkeys, hbest, htaken, List.length_map]
  exact h.resized _ _

theorem set : ρ.SameTable (t.set k v) (u.set (ρ.value k) (ρ.value v)) := by
  have hsize : u.entries.size = t.entries.size := by rw [h.entries, Array.size_map]
  simp only [Table.set, ρ.toKey_value, h.hasPlace, isNil_value, hsize, h.room]
  split
  · exact h.put _ _
  · split
    · exact h
    · split
      · exact h.put _ _
      · exact (h.grown _).put _ _

theorem length : u.length = t.length := by
  have hpresent : ∀ n, (u.getNat n).isNil = (t.getNat n).isNil := by
    intro n
    have hget : u.getNat n = ρ.value (t.getNat n) := h.get (.ofNat n)
    rw [hget, isNil_value]
  simp only [Table.length, hpresent, h.size_items, h.room]

theorem entryFrom (start : Nat) : u.entryFrom start = (t.entryFrom start).map ρ.entry := by
  have hnil : ((fun s : Value × Value => !s.2.isNil) ∘ ρ.entry) = fun s => !s.2.isNil := by
    funext s
    simp [entry]
  rw [entryFrom_eq, entryFrom_eq, h.slots, ← List.map_drop, List.find?_map, hnil]

theorem placeAfter? : u.placeAfter? (ρ.value k) = t.placeAfter? k := by
  rw [placeAfter?_eq, placeAfter?_eq, ρ.toKey_value, isNil_value, itemIndex?_value,
    h.size_items, h.position]

theorem ranked (rank : ByteArray → Nat) : u.ranked rank = (t.ranked rank).map ρ.entry := by
  have same : ∀ a : Value × Value, keyRank rank (ρ.entry a).1 = keyRank rank a.1 := by
    rintro ⟨k, v⟩
    cases k <;> rfl
  unfold Table.ranked
  rw [h.slots, List.map_mergeSort]
  intro a _ b _
  rw [same, same]

theorem entryAfter? (rank : Option (ByteArray → Nat)) :
    u.entryAfter? rank (ρ.value k) = (t.entryAfter? rank k).map (·.map ρ.entry) := by
  have live : ((fun s : Value × Value => !s.2.isNil) ∘ ρ.entry) = fun s => !s.2.isNil := by
    funext s
    simp [entry]
  cases rank with
  | none =>
    have found : u.entryFrom = fun i => (t.entryFrom i).map ρ.entry := funext h.entryFrom
    simp only [Table.entryAfter?, h.placeAfter?, found, Option.map_map]
    rfl
  | some r =>
    simp only [Table.entryAfter?, h.ranked, after?_entries, Option.map_map]
    congr 1
    funext later
    exact List.find?_map.trans (congrArg (fun p => (later.find? p).map ρ.entry) live)

end SameTable

end Renaming
end SealedLua.Lua
