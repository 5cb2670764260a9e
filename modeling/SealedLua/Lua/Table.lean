import SealedLua.Lua.Value
import Std.Data.HashMap

/-!
# Tables

A table keeps the entries of the keys `1 … n` in an array and all others in a
list of entries in the order in which they came.  The list has a number of
places, a power of two; an entry that was set to `nil` keeps its place.  When a
new key finds no place the table is laid out again: the array becomes the
largest power of two of which more than half is used, and the list is made
just large enough for the rest.

Looking up and storing do not show the layout.  The length of a table with
holes does, because it is some border that is found by halving, starting from
the array's end; so the layout follows the rule above exactly.
-/

namespace SealedLua.Lua

def arrayLimit : Nat := 2 ^ 63 - 1

/-- The index in an array of `size` items of a key that belongs there. -/
def itemIndex? (size : Nat) : Value → Option Nat
  | .integer n => if 1 ≤ n && n.toInt ≤ size then some (n.toInt.toNat - 1) else none
  | _ => none

/-- Entries beside an array of `size` items: their keys do not belong in the
array, and each is at the place that is kept for its key. -/
structure Listing (size : Nat) (entries : Array (Value × Value))
    (position : Std.HashMap Value Nat) : Prop where
  isKey {i : Nat} {k v : Value} : entries[i]? = some (k, v) → k.isKey = true
  outside {i : Nat} {k v : Value} : entries[i]? = some (k, v) → itemIndex? size k = none
  found {i : Nat} {k : Value} : position[k]? = some i ↔ ∃ v, entries[i]? = some (k, v)

namespace Listing

variable {size : Nat} {entries : Array (Value × Value)} {position : Std.HashMap Value Nat}
  {key : Value} {i : Nat}

theorem empty (size : Nat) : Listing size #[] {} where
  isKey h := absurd h (by simp)
  outside h := absurd h (by simp)
  found := by simp

theorem overwrite (l : Listing size entries position) (lies : position[key]? = some i)
    (value : Value) :
    Listing size (entries.set! i (key, value)) position := by
  obtain ⟨old, present⟩ := l.found.1 lies
  have same : ∀ {j : Nat} {k v : Value}, (entries.set! i (key, value))[j]? = some (k, v) → ∃ w,
      entries[j]? = some (k, w) := by
    intro j k v h
    rw [Array.set!_eq_setIfInBounds, Array.getElem?_setIfInBounds] at h
    by_cases eq : i = j
    · subst eq
      simp only [if_true] at h
      split at h
      · cases h
        exact ⟨old, present⟩
      · cases h
    · rw [if_neg eq] at h
      exact ⟨v, h⟩
  refine ⟨fun h => (same h).elim fun _ => l.isKey, fun h => (same h).elim fun _ =>
    l.outside, fun {j k} => ?_⟩
  refine l.found.trans ⟨fun ⟨v, h⟩ => ?_, fun ⟨_, h⟩ => same h⟩
  rw [Array.set!_eq_setIfInBounds, Array.getElem?_setIfInBounds]
  by_cases eq : i = j
  · subst eq
    rw [present] at h
    cases h
    have inside : i < entries.size := (Array.getElem?_eq_some_iff.1 present).1
    exact ⟨value, by rw [if_pos rfl, if_pos inside]⟩
  · exact ⟨v, by rw [if_neg eq, h]⟩

theorem push (l : Listing size entries position) (proper : key.isKey = true)
    (out : itemIndex? size key = none) (new : position[key]? = none) (value : Value) :
    Listing size (entries.push (key, value)) (position.insert key entries.size) := by
  have pushed : ∀ {j : Nat} {k v : Value}, (entries.push (key, value))[j]? = some (k, v) →
      j = entries.size ∧ k = key ∨ entries[j]? = some (k, v) := by
    intro j k v h
    rw [Array.getElem?_push] at h
    split at h
    · next eq => cases h; exact .inl ⟨eq, rfl⟩
    · exact .inr h
  refine ⟨fun h => ?_, fun h => ?_, fun {j k} => ?_⟩
  · rcases pushed h with ⟨_, rfl⟩ | h
    · exact proper
    · exact l.isKey h
  · rcases pushed h with ⟨_, rfl⟩ | h
    · exact out
    · exact l.outside h
  · rw [Std.HashMap.getElem?_insert]
    by_cases eq : key = k
    · subst eq
      simp only [BEq.rfl, if_true, Option.some.injEq]
      constructor
      · rintro rfl
        exact ⟨value, by simp⟩
      · rintro ⟨v, h⟩
        rcases pushed h with ⟨rfl, _⟩ | h
        · rfl
        · rw [l.found.2 ⟨v, h⟩] at new
          cases new
    · have ne : (key == k) = false := by simp [eq]
      simp only [ne, Bool.false_eq_true, if_false]
      refine l.found.trans ⟨fun ⟨v, h⟩ => ⟨v, ?_⟩, fun ⟨v, h⟩ => ?_⟩
      · have inside : j < entries.size := (Array.getElem?_eq_some_iff.1 h).1
        rw [Array.getElem?_push, if_neg (by omega), h]
      · rcases pushed h with ⟨_, rfl⟩ | h
        · exact absurd rfl eq
        · exact ⟨v, h⟩

end Listing

structure Table where
  /-- The entries of the keys `1 … items.size`. -/
  items : Array Value
  /-- All other entries, in the order in which their keys came. -/
  entries : Array (Value × Value)
  /-- Where each key of `entries` is. -/
  position : Std.HashMap Value Nat
  /-- How many entries fit before the table is laid out again. -/
  room : Nat
  metatable : Option TableId
  fits : items.size ≤ arrayLimit
  listing : Listing items.size entries position

namespace Table

/-- A table whose array holds these items and whose list is empty. -/
def ofItems (items : Array Value) (fits : items.size ≤ arrayLimit) (room : Nat)
    (metatable : Option TableId) : Table :=
  ⟨items, #[], {}, room, metatable, fits, .empty _⟩

def empty : Table := ofItems #[] (Nat.zero_le _) 0 none

instance : Inhabited Table := ⟨empty⟩

def look (t : Table) (key : Value) : Value :=
  match itemIndex? t.items.size key with
  | some i => t.items[i]?.getD .nil
  | none =>
    match t.position[key]? with
    | some i => (t.entries[i]?.map (·.2)).getD .nil
    | none => .nil

/-- The entry of a key, `nil` if it has none. -/
def get (t : Table) (key : Value) : Value := t.look key.toKey

def getNat (t : Table) (n : Nat) : Value := t.get (.ofNat n)

/-- The smallest power of two that is at least `n`, and none for zero. -/
def roomFor (n : Nat) : Nat := if n = 0 then 0 else if n = 1 then 1 else 2 ^ ((n - 1).log2 + 1)

/-- All places for entries in the order of traversal: the array first, then the list. -/
def slots (t : Table) : List (Value × Value) :=
  t.items.toList.mapIdx (fun i v => (.ofNat (i + 1), v)) ++ t.entries.toList

/-- The entries that are there, in the order of traversal. -/
def live (t : Table) : List (Value × Value) := t.slots.filter fun s => !s.2.isNil

/-- Stores an entry in its place of the present layout, making a place for it.
What cannot be a key has no place. -/
def put (t : Table) (key value : Value) : Table :=
  match out : itemIndex? t.items.size key with
  | some i =>
    { t with
      items := t.items.set! i value
      fits := by rw [Array.set!_eq_setIfInBounds, Array.size_setIfInBounds]; exact t.fits
      listing := by rw [Array.set!_eq_setIfInBounds, Array.size_setIfInBounds]; exact t.listing }
  | none =>
    match present : t.position[key]? with
    | some i =>
      { t with entries := t.entries.set! i (key, value), listing :=
        t.listing.overwrite present value }
    | none =>
      if proper : key.isKey then
        let position := t.position.insert key t.entries.size
        { t with
          entries := t.entries.push (key, value)
          position := position
          listing := t.listing.push proper out present value }
      else t

/-- The items of an array that is cut or filled up to a size. -/
def itemsOf (t : Table) (size : Nat) : Array Value :=
  let kept := t.items.extract 0 size
  kept ++ Array.replicate (size - kept.size) .nil

theorem size_itemsOf (t : Table) (size : Nat) : (t.itemsOf size).size = size := by
  simp only [itemsOf, Array.size_append, Array.size_extract, Array.size_replicate]
  omega

theorem fits_itemsOf (t : Table) (size : Nat) :
    (t.itemsOf (min size arrayLimit)).size ≤ arrayLimit := by
  rw [size_itemsOf]
  exact Nat.min_le_right _ _

def putAll (t : Table) (entries : List (Value × Value)) : Table :=
  entries.foldl (fun t e => if e.2.isNil then t else t.put e.1 e.2) t

/-- Lays the table out with an array of `size` items and a list of at least
`spare` places. -/
def resized (t : Table) (size spare : Nat) : Table :=
  let fit := min size arrayLimit
  let fresh := ofItems (t.itemsOf fit) (t.fits_itemsOf size) (roomFor spare) t.metatable
  fresh.putAll (t.slots.drop (min fit t.items.size))

def taken (keys : List Value) (size : Nat) : Nat := keys.countP fun k => (itemIndex? size k).isSome

/-- The largest power of two of which more than half is taken by keys. -/
def bestSize (keys : List Value) : Nat :=
  let positive := taken keys (2 ^ 63)
  let used := fun (size : Nat) => size / 2 < positive && size / 2 < taken keys size
  (List.range 64).foldl (fun best i => if used (2 ^ i) then 2 ^ i else best) 0

/-- Lays the table out so that a new key has a place. -/
def grown (t : Table) (key : Value) : Table :=
  let keys := key :: t.live.map (·.1)
  let size := bestSize keys
  t.resized size (keys.length - taken keys size)

def hasPlace (t : Table) (key : Value) : Bool :=
  (itemIndex? t.items.size key).isSome || t.position.contains key

/-- Stores an entry.  A value that cannot be a key is passed over. -/
def set (t : Table) (key value : Value) : Table :=
  let key := key.toKey
  if t.hasPlace key then t.put key value
  else if value.isNil then t
  else if t.entries.size < t.room then t.put key value
  else (t.grown key).put key value

/-- Narrows a border between `low`, present or zero, and `high`, absent. -/
def searchBorder (present : Nat → Bool) (low high : Nat) : Nat :=
  if _h : low + 1 < high then
    let middle := (low + high) / 2
    if present middle then searchBorder present middle high else searchBorder present low middle
  else low
termination_by high - low

/-- Doubles a present index until it meets an absent one, then halves between them. -/
def doubleBorder (present : Nat → Bool) : Nat → Nat → Nat
  | 0, low => low
  | fuel + 1, low =>
    if low ≤ (2 ^ 63 - 1) / 2 then
      if present (low * 2) then doubleBorder present fuel (low * 2)
        else searchBorder present low (low * 2)
    else if present (2 ^ 63 - 1) then 2 ^ 63 - 1
    else searchBorder present low (2 ^ 63 - 1)

/-- A border of the table: a present index, or zero, whose successor is absent. -/
def length (t : Table) : Nat :=
  let present := fun n => !(t.getNat n).isNil
  let size := t.items.size
  if size > 0 && !present size then
    if size ≥ 2 && present (size - 1) then size - 1 else searchBorder present 0 size
  else if t.room = 0 || !present (size + 1) then size
  else doubleBorder present 64 (if size = 0 then 1 else size)

/-- The first entry at or after a place in the order of traversal: the array
first, then the list. -/
def entryFrom (t : Table) (start : Nat) : Option (Value × Value) :=
  if _h : start < t.items.size then
    let v := t.items[start]
    if v.isNil then entryFrom t (start + 1) else some (.ofNat (start + 1), v)
  else if _h : start - t.items.size < t.entries.size then
    let (k, v) := t.entries[start - t.items.size]
    if v.isNil then entryFrom t (start + 1) else some (k, v)
  else none
termination_by t.items.size + t.entries.size - start

/-- The place after a key in the order of traversal, if the table has that key. -/
def placeAfter? (t : Table) (key : Value) : Option Nat :=
  match key.toKey with
  | .nil => some 0
  | key =>
    match itemIndex? t.items.size key with
    | some i => some (i + 1)
    | none => t.position[key]?.map fun i => t.items.size + i + 1

/-- The rank of a key in a traversal in which strings come by rank, after all other keys. -/
def keyRank (rank : ByteArray → Nat) : Value → Nat
  | .string s => rank s + 1
  | _ => 0

def ranked (t : Table) (rank : ByteArray → Nat) : List (Value × Value) :=
  t.slots.mergeSort fun a b => decide (keyRank rank a.1 ≤ keyRank rank b.1)

/-- The places after a key, if it has one; all are after `nil`. -/
def after? (slots : List (Value × Value)) (key : Value) : Option (List (Value × Value)) :=
  match key.toKey with
  | .nil => some slots
  | key => (slots.dropWhile (·.1 != key)).tail?

/-- The first entry after a key in the order of a traversal.  If the table does
not have the key there is no answer. -/
def entryAfter? (t : Table) (rank : Option (ByteArray → Nat)) (key : Value) :
    Option (Option (Value × Value)) :=
  match rank with
  | none => (t.placeAfter? key).map t.entryFrom
  | some rank => (after? (t.ranked rank) key).map (·.find? fun s => !s.2.isNil)

end Table
end SealedLua.Lua
