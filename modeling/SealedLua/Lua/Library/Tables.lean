import SealedLua.Lua.Native

/-!
# The table functions

They read and store through metamethods, so a table may be anything that
behaves like one.  Sorting is quicksort with the median of three; an order that
contradicts itself is noticed when a scan runs past the part that is sorted.
-/

namespace SealedLua.Lua.Tables

open Native

/-- What a function does to its table: a value that is no table needs the
metamethods for it. -/
structure Use where
  reads : Bool
  writes : Bool
  measures : Bool

def checkTable (args : List Value) (number : Nat) (use : Use) : Native Value := do
  let v := arg args number
  let fit ← Action.gets fun h =>
    let has := fun (event : String) => !(h.metamethod v (eventKey event)).isNil
    match v with
    | .table _ => true
    | _ =>
      (h.metatableOf v).isSome && (!use.reads || has "index") && (!use.writes || has "newindex") &&
        (!use.measures || has "len")
  if fit then return v else wrongType args number "table"

/-- The length of a table, as its metamethod sees it. -/
def size (v : Value) : Native Int64 := do
  let n ← length none v none
  match n.coercedInteger? with
  | some n => return n
  | none => failText "object length is not an integer"

def get (t : Value) (i : Int) : Native Value := lookup t (.integer (Int64.ofInt i))

def put (t : Value) (i : Int) (v : Value) : Native Unit := assign t (.integer (Int64.ofInt i)) v

/-- Joins the entries from `i` on, `more` of them after the first. -/
def join (t : Value) (separator : ByteArray) : Nat → Int → ByteArray → Native ByteArray
  | more, i, text => do
    let v ← get t i
    match v.text? with
    | none =>
      fail (bytes (ascii "invalid value (" ++ ascii v.typeName ++
        ascii ") at index " ++ Ascii.decimal i ++
        ascii " in table for 'concat'"))
    | some s =>
      match more with
      | 0 => return text ++ s
      | more + 1 => join t separator more (i + 1) (text ++ s ++ separator)

def concat (args : List Value) : Native (List Value) := do
  let t ← checkTable args 1 ⟨true, false, true⟩
  let last ← size t
  let separator ← stringArgOr args 2 (bytes [])
  let first ← integerArgOr args 3 1
  let last ← integerArgOr args 4 last
  if last < first then return [.string (bytes [])]
  else return [.string (← join t separator (last.toInt - first.toInt).toNat first.toInt (bytes []))]

def shiftUp (t : Value) : Nat → Int → Native Unit
  | 0, _ => return ()
  | n + 1, i => do
    put t i (← get t (i - 1))
    shiftUp t n (i - 1)

def shiftDown (t : Value) : Nat → Int → Native Unit
  | 0, _ => return ()
  | n + 1, i => do
    put t i (← get t (i + 1))
    shiftDown t n (i + 1)

def insert (args : List Value) : Native (List Value) := do
  let t ← checkTable args 1 ⟨true, true, true⟩
  let next := (← size t) + 1
  match args.length with
  | 2 =>
    put t next.toInt (arg args 2)
    return []
  | 3 =>
    let position ← integerArg args 2
    if (position - 1).toUInt64 < next.toUInt64 then
      shiftUp t (next.toInt - position.toInt).toNat next.toInt
      put t position.toInt (arg args 3)
      return []
    else badArgumentText 2 "position out of bounds"
  | _ => failText "wrong number of arguments to 'insert'"

def remove (args : List Value) : Native (List Value) := do
  let t ← checkTable args 1 ⟨true, true, true⟩
  let n ← size t
  let position ← integerArgOr args 2 n
  if position != n && n.toUInt64 < (position - 1).toUInt64 then
    badArgumentText 2 "position out of bounds"
  let v ← get t position.toInt
  let moved := (n.toInt - position.toInt).toNat
  shiftDown t moved position.toInt
  put t (position.toInt + moved) .nil
  return [v]

def copyUp (source target : Value) : Nat → Int → Int → Native Unit
  | 0, _, _ => return ()
  | n + 1, i, j => do
    put target j (← get source i)
    copyUp source target n (i + 1) (j + 1)

def copyDown (source target : Value) : Nat → Int → Int → Native Unit
  | 0, _, _ => return ()
  | n + 1, i, j => do
    put target (j + n) (← get source (i + n))
    copyDown source target n i j

def move (args : List Value) : Native (List Value) := do
  let first ← integerArg args 2
  let last ← integerArg args 3
  let place ← integerArg args 4
  let number := if absent args 5 then 1 else 5
  let source ← checkTable args 1 ⟨true, false, false⟩
  let target ← checkTable args number ⟨false, true, false⟩
  if first ≤ last then
    let n := last.toInt - first.toInt + 1
    if !(0 < first.toInt || last.toInt < 2 ^ 63 - 1 + first.toInt) then
      badArgumentText 3 "too many elements to move"
    if place.toInt > 2 ^ 63 - 1 - n + 1 then badArgumentText 4 "destination wrap around"
    let apart ← if last < place || place ≤ first then pure true
      else if number = 1 then pure false
      else (do return !(← (equal none source target : Action Bool)) : Native Bool)
    if apart then copyUp source target n.toNat first.toInt place.toInt
    else copyDown source target n.toNat first.toInt place.toInt
  return [target]

def pack (args : List Value) : Native (List Value) := do
  let empty := Table.empty.resized args.length 1
  let filled := (args.foldl (fun (t, n) v => (t.set (.ofNat n) v, n + 1)) (empty, 1)).1
  let t := filled.set (.ofAscii "n") (.integer (Int64.ofNat args.length))
  return [← Action.newTable t]

def unpackLimit : Nat := 1000000

def unpackFrom (t : Value) : Nat → Int → Native (List Value)
  | 0, _ => return []
  | n + 1, i => do
    let v ← get t i
    return v :: (← unpackFrom t n (i + 1))

def unpack (args : List Value) : Native (List Value) := do
  let t := arg args 1
  let first ← integerArgOr args 2 1
  let last ← if absent args 3 then size t else integerArg args 3
  if last < first then return []
  else
    let n := last.toInt - first.toInt + 1
    if n ≥ unpackLimit then failText "too many results to unpack"
    else unpackFrom t n.toNat first.toInt

/-- Whether a value comes before another in the order of a sort. -/
def before (order : Value) (a b : Value) : Native Bool :=
  if order.isNil then (lessThan none a b : Action Bool) else return (← call₁ order [a, b]).truthy

def put₂ (t : Value) (i j : Int) (a b : Value) : Native Unit := do
  put t i a
  put t j b

/-- The first place after `i` whose entry does not come before the pivot. -/
def scanUp (t order pivot : Value) (stop : Int) : Nat → Int → Native (Int × Value)
  | 0, i => return (i, .nil)
  | budget + 1, i => do
    let i := i + 1
    let v ← get t i
    if ← before order v pivot then
      if i = stop then failText "invalid order function for sorting"
      scanUp t order pivot stop budget i
    else return (i, v)

/-- The last place before `j` whose entry the pivot does not come before. -/
def scanDown (t order pivot : Value) (start : Int) : Nat → Int → Native (Int × Value)
  | 0, j => return (j, .nil)
  | budget + 1, j => do
    let j := j - 1
    let v ← get t j
    if ← before order pivot v then
      if j < start then failText "invalid order function for sorting"
      scanDown t order pivot start budget j
    else return (j, v)

/-- Parts the entries between two places around a pivot, which stands before
the upper one, and gives the place where the pivot ends up. -/
def partition (t order pivot : Value) (up : Int) : Nat → Int → Int → Native Int
  | 0, i, _ => return i
  | budget + 1, i, j => do
    let room := (up - i).toNat + 1
    let (i, a) ← scanUp t order pivot (up - 1) room i
    let (j, b) ← scanDown t order pivot i (room + (j - i).natAbs + 1) j
    if j < i then
      put₂ t (up - 1) i a pivot
      return i
    else
      put₂ t i j b a
      partition t order pivot up budget i j

def orderEnds (t order : Value) (lo up : Int) : Native Unit := do
  let a ← get t lo
  let b ← get t up
  if ← before order b a then put₂ t lo up b a

/-- Puts an entry in order with those at the ends of its range, which are in order. -/
def orderMiddle (t order : Value) (lo p up : Int) : Native Unit := do
  let m ← get t p
  let a ← get t lo
  if ← before order m a then put₂ t p lo a m
  else
    let b ← get t up
    if ← before order b m then put₂ t p up b m

/-- Takes an entry as the pivot and moves it before the upper end of its range. -/
def movePivot (t : Value) (p up : Int) : Native Value := do
  let pivot ← get t p
  let b ← get t (up - 1)
  put₂ t p (up - 1) b pivot
  return pivot

/-- Orders a range of up to three entries; a wider one is parted, and the place
of the pivot given. -/
def part (t order : Value) (lo up : Int) : Native (Option Int) := do
  orderEnds t order lo up
  if up - lo = 1 then return none
  else do
    let p := (lo + up) / 2
    orderMiddle t order lo p up
    if up - lo = 2 then return none
    else do
      let pivot ← movePivot t p up
      return some (← partition t order pivot up ((up - lo).toNat + 1) lo (up - 1))

/-- Sorts the entries between two places, the shorter part of them first. -/
def sortRange (t order : Value) : Nat → Int → Int → Native Unit
  | 0, _, _ => return ()
  | budget + 1, lo, up =>
    if lo < up then do
      match ← part t order lo up with
      | none => return ()
      | some p =>
        if p - lo < up - p then do
          sortRange t order budget lo (p - 1)
          sortRange t order budget (p + 1) up
        else do
          sortRange t order budget (p + 1) up
          sortRange t order budget lo (p - 1)
    else return ()

def sort (args : List Value) : Native (List Value) := do
  let t ← checkTable args 1 ⟨true, true, true⟩
  let n ← size t
  if 1 < n then
    if n ≥ 0x7FFFFFFF then badArgumentText 1 "array too big"
    if !absent args 2 && !(arg args 2).isFunction then wrongType args 2 "function"
    sortRange t (arg args 2) (n.toInt.toNat + 1) 1 n.toInt
  return []

end SealedLua.Lua.Tables
