import SealedLua.Lua.Step

/-!
# Operators

What the operators do to values.  Numbers, strings and plain tables are handled
here; any other operand is asked for a metamethod, and if there is none the
operation fails with a message that names the operand at fault.

`here` is the place of the operation in a chunk.  Built-in functions use the
same operators without a place; their failures name neither place nor operand.
-/

namespace SealedLua.Lua

open SealedLua.Lua.Action

def eventKey (event : String) : ByteArray := bytes (ascii ("__" ++ event))

namespace ArithOp

/-- The event of an operator, which is also its word in messages. -/
def event : ArithOp → String
  | .add => "add" | .sub => "sub" | .mul => "mul" | .mod => "mod" | .pow => "pow" | .div => "div"
  | .idiv => "idiv" | .band => "band" | .bor => "bor" | .bxor =>
    "bxor" | .shl => "shl" | .shr => "shr"

def bitwise : ArithOp → Bool
  | .band | .bor | .bxor | .shl | .shr => true
  | _ => false

end ArithOp

/-- A failure of arithmetic on two proper operands. -/
inductive ArithError where
  | divisionByZero
  | moduloByZero
deriving DecidableEq

namespace ArithError

def message : ArithError → String
  | .divisionByZero => "attempt to divide by zero"
  | .moduloByZero => "attempt to perform 'n%0'"

end ArithError

namespace Integer

/-- Shifts left by a signed amount; all bits leave after 64 places. -/
def shiftLeft (a b : Int64) : Int64 :=
  if 0 ≤ b then (if b < 64 then (a.toUInt64 <<< b.toUInt64).toInt64 else 0)
  else if -64 < b then (a.toUInt64 >>> (-b).toUInt64).toInt64 else 0

/-- The quotient rounded down; the one quotient that is out of range wraps. -/
def floorDiv (a b : Int64) : Int64 := Int64.ofInt (Int.fdiv a.toInt b.toInt)

def floorMod (a b : Int64) : Int64 := Int64.ofInt (Int.fmod a.toInt b.toInt)

/-- Integer arithmetic, which wraps; none of the operators that leave the integers. -/
def arith? (op : ArithOp) (a b : Int64) : Option (Except ArithError Int64) :=
  match op with
  | .add => some (.ok (a + b))
  | .sub => some (.ok (a - b))
  | .mul => some (.ok (a * b))
  | .idiv => some (if b = 0 then .error .divisionByZero else .ok (floorDiv a b))
  | .mod => some (if b = 0 then .error .moduloByZero else .ok (floorMod a b))
  | .band => some (.ok (a &&& b))
  | .bor => some (.ok (a ||| b))
  | .bxor => some (.ok (a ^^^ b))
  | .shl => some (.ok (shiftLeft a b))
  | .shr => some (.ok (shiftLeft a (if b = Int64.minValue then 64 else -b)))
  | .div | .pow => none

end Integer

namespace Double

/-- Floating-point arithmetic; none of the bitwise operators. -/
def arith? (op : ArithOp) (x y : Double) : Option Double :=
  match op with
  | .add => some (x.add y)
  | .sub => some (x.sub y)
  | .mul => some (x.mul y)
  | .div => some (x.div y)
  | .mod => some (x.modulo y)
  | .idiv => some (x.div y).floor
  | .pow => some (x.pow y)
  | _ => none

end Double

namespace Value

/-- Arithmetic on numbers, or `none` if an operand is not a proper one. -/
def arith? (op : ArithOp) (a b : Value) : Option (Except ArithError Value) :=
  let doubles := fun (_ : Unit) => do
    let r ← Double.arith? op (← a.double?) (← b.double?)
    return .ok (.double r)
  let integers := fun (m n : Int64) => (Integer.arith? op m n).map fun r => r.map .integer
  match a, b with
  | .integer m, .integer n => (integers m n).orElse doubles
  | _, _ =>
    if op.bitwise then do integers (← a.integer?) (← b.integer?)
    else doubles ()

theorem integer_or_double_of_arith? {op : ArithOp} {a b v : Value}
    (h : arith? op a b = some (.ok v)) :
    (∃ n, v = .integer n) ∨ ∃ x, v = .double x := by
  have integers : ∀ x : Option (Except ArithError Int64),
      x.map (fun r => r.map Value.integer) = some (.ok v) → (∃ n, v = .integer n) ∨
        ∃ x, v = .double x := by
    intro x h
    obtain ⟨r, -, hr⟩ := Option.map_eq_some_iff.1 h
    cases r with
    | error e => cases hr
    | ok n =>
      cases hr
      exact .inl ⟨n, rfl⟩
  have doubles : (do
      let r ← Double.arith? op (← a.double?) (← b.double?)
      return .ok (.double r) : Option (Except ArithError Value)) = some (.ok v) →
        (∃ n, v = .integer n) ∨ ∃ x, v = .double x := by
    intro h
    simp only [Option.bind_eq_bind, Option.bind_eq_some_iff] at h
    obtain ⟨_, -, _, -, x, -, h⟩ := h
    cases h
    exact .inr ⟨x, rfl⟩
  unfold arith? at h
  dsimp only at h
  split at h
  · rcases Option.or_eq_some_iff.1 ((Option.orElse_eq_or ..).symm.trans h) with h | ⟨-, h⟩
    · exact integers _ h
    · exact doubles h
  · split at h
    · obtain ⟨_, -, h⟩ := Option.bind_eq_some_iff.1 h
      obtain ⟨_, -, h⟩ := Option.bind_eq_some_iff.1 h
      exact integers _ h
    · exact doubles h

def numberLt : Number → Number → Bool
  | .integer m, .integer n => m < n
  | .double x, .double y => x.lt y
  | .integer n, .double x =>
    if x.isNaN then false else if x.isInfinite then !x.negative else n.toInt < x.ceilInt
  | .double x, .integer n =>
    if x.isNaN then false else if x.isInfinite then x.negative else x.floorInt < n.toInt

def numberLe : Number → Number → Bool
  | .integer m, .integer n => m ≤ n
  | .double x, .double y => x.le y
  | .integer n, .double x =>
    if x.isNaN then false else if x.isInfinite then !x.negative else n.toInt ≤ x.floorInt
  | .double x, .integer n =>
    if x.isNaN then false else if x.isInfinite then x.negative else x.ceilInt ≤ n.toInt

/-- The order of byte strings from an offset, as in a dictionary. -/
def bytesLtFrom (a b : ByteArray) (i : Nat) : Bool :=
  if h : i < b.size then
    if g : i < a.size then
      if a[i] < b[i] then true else if b[i] < a[i] then false else bytesLtFrom a b (i + 1)
    else true
  else false
termination_by b.size - i

def bytesLt (a b : ByteArray) : Bool := bytesLtFrom a b 0

end Value

/-- The place and the name of an operation's function, as the function sees them. -/
def metamethodSite (here : Option Position) (event : String) : Site :=
  ⟨here, here.map fun _ => ⟨.metamethod, bytes (ascii event)⟩⟩

def namingText : Option Naming → ByteArray
  | some n => bytes (ascii (" (" ++ n.kind.word ++ " '")) ++ n.name ++ bytes (ascii "')")
  | none => bytes []

/-- Fails because a value has the wrong type for an operation. -/
def typeError {α : Type} (here : Option Position) (operation : String) (v : Value)
    (naming : Option Naming) : Action α := do
  let h ← get
  fail here (bytes (ascii ("attempt to " ++ operation ++ " a ")) ++ h.typeName v ++
    bytes (ascii " value") ++ namingText naming)

/-- The metamethod of two operands: that of the first that has one. -/
def binaryMetamethod (event : String) (a b : Value) : Action Value := do
  let f ← gets (·.metamethod a (eventKey event))
  if f.isNil then gets (·.metamethod b (eventKey event)) else return f

/-- Of two operands the first that is not a number, with its name. -/
def culprit (a b : Value) (na nb : Option Naming) : Value × Option Naming :=
  if a.number?.isSome then (b, nb) else (a, na)

def arith (here : Option Position) (op : ArithOp) (a b : Value) (na nb : Option Naming) :
    Action Value :=
  match Value.arith? op a b with
  | some (.ok v) => pure v
  | some (.error e) => fail here (bytes (ascii e.message))
  | none => do
    let f ← binaryMetamethod op.event a b
    if !f.isNil then call₁ f [a, b] (metamethodSite here op.event)
    else if op.bitwise then
      if a.number?.isSome && b.number?.isSome then
        let n := if a.integer?.isNone then na else nb
        fail here (bytes (ascii "number") ++ namingText n ++
          bytes (ascii " has no integer representation"))
      else
        let (v, n) := culprit a b na nb
        typeError here "perform bitwise operation on" v n
    else
      let (v, n) := culprit a b na nb
      typeError here "perform arithmetic on" v n

def negate (here : Option Position) (v : Value) (naming : Option Naming) : Action Value :=
  match v with
  | .integer n => pure (.integer (-n))
  | .double x => pure (.double x.neg)
  | _ => do
    let f ← binaryMetamethod "unm" v v
    if f.isNil then typeError here "perform arithmetic on" v naming
    else call₁ f [v, v] (metamethodSite here "unm")

def complement (here : Option Position) (v : Value) (naming : Option Naming) : Action Value :=
  match v.integer? with
  | some n => pure (.integer (~~~n))
  | none => do
    let f ← binaryMetamethod "bnot" v v
    if !f.isNil then call₁ f [v, v] (metamethodSite here "bnot")
    else if v.number?.isSome then
      fail here (bytes (ascii "number") ++ namingText naming ++
        bytes (ascii " has no integer representation"))
    else typeError here "perform bitwise operation on" v naming

def length (here : Option Position) (v : Value) (naming : Option Naming) : Action Value := do
  let f ← gets (·.metamethod v (eventKey "len"))
  match v with
  | .string s => pure (.integer (Int64.ofNat s.size))
  | .table id =>
    if f.isNil then gets fun h => .integer (Int64.ofNat (h.table id).length)
    else call₁ f [v, v] (metamethodSite here "len")
  | _ =>
    if f.isNil then typeError here "get length of" v naming
    else call₁ f [v, v] (metamethodSite here "len")

def concat (here : Option Position) (a b : Value) (na nb : Option Naming) : Action Value :=
  match a.text?, b.text? with
  | some s, some t => pure (.string (s ++ t))
  | text, _ => do
    let f ← binaryMetamethod "concat" a b
    if f.isNil then
      if text.isSome then typeError here "concatenate" b nb else typeError here "concatenate" a na
    else call₁ f [a, b] (metamethodSite here "concat")

/-- Equality; two different tables may have a metamethod for it. -/
def equal (here : Option Position) (a b : Value) : Action Bool :=
  if a.rawEq b then pure true
  else
    match a, b with
    | .table _, .table _ => do
      let f ← binaryMetamethod "eq" a b
      if f.isNil then pure false else return (← call₁ f [a, b] (metamethodSite here "eq")).truthy
    | _, _ => pure false

/-- Fails because two values have no order. -/
def orderError {α : Type} (here : Option Position) (a b : Value) : Action α := do
  let h ← get
  let s := h.typeName a
  let t := h.typeName b
  fail here <|
    if s == t then bytes (ascii "attempt to compare two ") ++ s ++ bytes (ascii " values")
    else bytes (ascii "attempt to compare ") ++ s ++ bytes (ascii " with ") ++ t

def lessThan (here : Option Position) (a b : Value) : Action Bool :=
  match a.number?, b.number?, a, b with
  | some m, some n, _, _ => pure (Value.numberLt m n)
  | _, _, .string s, .string t => pure (Value.bytesLt s t)
  | _, _, _, _ => do
    let f ← binaryMetamethod "lt" a b
    if f.isNil then orderError here a b
      else return (← call₁ f [a, b] (metamethodSite here "lt")).truthy

/-- `a ≤ b`.  Values without a metamethod for it are compared by `not b < a`. -/
def lessEqual (here : Option Position) (a b : Value) : Action Bool :=
  match a.number?, b.number?, a, b with
  | some m, some n, _, _ => pure (Value.numberLe m n)
  | _, _, .string s, .string t => pure (!Value.bytesLt t s)
  | _, _, _, _ => do
    let f ← binaryMetamethod "le" a b
    if !f.isNil then return (← call₁ f [a, b] (metamethodSite here "le")).truthy
    else
      let g ← binaryMetamethod "lt" b a
      if g.isNil then orderError here a b
        else return !(← call₁ g [b, a] (metamethodSite here "lt")).truthy

def compare (here : Option Position) (op : CompareOp) (a b : Value) : Action Bool :=
  match op with
  | .eq => equal here a b
  | .ne => return !(← equal here a b)
  | .lt => lessThan here a b
  | .le => lessEqual here a b
  | .gt => lessThan here b a
  | .ge => lessEqual here b a

/-- How many metamethods a look-up or a store may pass through. -/
def chainLimit : Nat := 2000

/-- Looks up an entry; `rounds` bounds the chain of `__index` entries. -/
def indexChain (here : Option Position) : Nat → Value → Value → Option Naming → Action Value
  | 0, _, _, _ => fail here (bytes (ascii "'__index' chain too long; possibly a loop"))
  | rounds + 1, object, key, naming => do
    let v ← gets fun h => match object with
      | .table id => h.get id key
      | _ => .nil
    if !v.isNil then return v
    let f ← gets (·.metamethod object (eventKey "index"))
    if f.isNil then
      match object with
      | .table _ => return .nil
      | _ => typeError here "index" object naming
    else if f.isFunction then call₁ f [object, key] (metamethodSite here "index")
    else indexChain here rounds f key none

def index (here : Option Position) (object key : Value) (naming : Option Naming) : Action Value :=
  indexChain here chainLimit object key naming

def store (here : Option Position) (id : TableId) (key value : Value) : Action Unit :=
  match key with
  | .nil => fail here (bytes (ascii "table index is nil"))
  | .double x => if x.isNaN then fail here (bytes (ascii "table index is NaN"))
    else modify (·.set id key value)
  | _ => modify (·.set id key value)

/-- Stores an entry; `rounds` bounds the chain of `__newindex` entries. -/
def setIndexChain (here : Option Position) : Nat → Value → Value → Value →
    Option Naming → Action Unit
  | 0, _, _, _, _ => fail here (bytes (ascii "'__newindex' chain too long; possibly a loop"))
  | rounds + 1, object, key, value, naming => do
    let f ← gets (·.metamethod object (eventKey "newindex"))
    let present ← gets fun h => match object with
      | .table id => !(h.get id key).isNil
      | _ => false
    if f.isNil || present then
      match object with
      | .table id => store here id key value
      | _ => typeError here "index" object naming
    else if f.isFunction then
      let _ ← call f [object, key, value] (metamethodSite here "newindex")
      pure ()
    else setIndexChain here rounds f key value none

def setIndex (here : Option Position) (object key value : Value) (naming : Option Naming) :
    Action Unit :=
  setIndexChain here chainLimit object key value naming

end SealedLua.Lua
