import SealedLua.Lua.Collecting

/-!
# Built-in functions: their arguments and their failures

A built-in function sees its arguments, how the place of the call names it, and
where its callers are.  A failure says where the caller is; a bad argument is
named by its number and by the name of the function at the place of the call,
or, if the function was called by another built-in one, by the name under which
a library holds it.
-/

namespace SealedLua.Lua

/-- What a built-in function can tell about its call. -/
structure CallContext where
  naming : Option Naming
  /-- The function itself. -/
  function : Value
  /-- The place of the caller at a level; the direct caller has level one. -/
  caller : Nat → Option Position

abbrev Native := ReaderT CallContext Action

namespace Native

variable {α : Type}

/-- Text that goes in front of the message of an error at a level. -/
def place (level : Nat) : Native ByteArray := do
  return Action.fail.place ((← read).caller level)

def fail (message : ByteArray) : Native α := do
  let p ← place 1
  Action.raise (.string (p ++ message))

def failText (message : String) : Native α := fail (bytes (ascii message))

/-- The libraries that functions are looked for in, with their names. -/
def libraries : List (String × TableId) :=
  [("", Heap.globals), ("string.", Heap.stringLibrary), ("table.", Heap.tableLibrary),
    ("math.", Heap.mathLibrary),
    ("utf8.", Heap.utf8Library)]

def libraryName? (h : Heap) (function : Value) : Option ByteArray :=
  libraries.findSome? fun (library, id) =>
    (h.table id).entries.findSome? fun (k, v) =>
      match k with
      | .string name => if v == function then some (bytes (ascii library) ++ name) else none
      | _ => none

/-- Fails because of an argument, by its number. -/
def badArgument (number : Nat) (reason : ByteArray) : Native α := do
  let c ← read
  let h ← Action.get
  let describe := fun (number : Nat) (name : ByteArray) =>
    bytes (ascii "bad argument #" ++ Ascii.numeral 10 number ++ ascii " to '") ++
      name ++ bytes (ascii "' (") ++
      reason ++ bytes (ascii ")")
  match c.naming with
  | some ⟨.method, name⟩ =>
    if number = 1 then
      fail (bytes (ascii "calling '") ++ name ++ bytes (ascii "' on bad self (") ++
        reason ++ bytes (ascii ")"))
    else fail (describe (number - 1) name)
  | some ⟨_, name⟩ => fail (describe number name)
  | none => fail (describe number ((libraryName? h c.function).getD (bytes (ascii "?"))))

def badArgumentText (number : Nat) (reason : String) : Native α :=
  badArgument number (bytes (ascii reason))

def argumentType (h : Heap) (v : Option Value) : ByteArray :=
  match v with
  | some v => h.typeName v
  | none => bytes (ascii "no value")

def given (args : List Value) (number : Nat) : Option Value := args[number - 1]?

def arg (args : List Value) (number : Nat) : Value := (given args number).getD .nil

/-- Fails because an argument has the wrong type. -/
def wrongType (args : List Value) (number : Nat) (expected : String) : Native α := do
  let h ← Action.get
  badArgument number (bytes (ascii (expected ++ " expected, got ")) ++
    argumentType h (given args number))

def absent (args : List Value) (number : Nat) : Bool := (arg args number).isNil

def anyArg (args : List Value) (number : Nat) : Native Value :=
  match given args number with
  | some v => pure v
  | none => badArgumentText number "value expected"

def tableArg (args : List Value) (number : Nat) : Native TableId :=
  match given args number with
  | some (.table id) => pure id
  | _ => wrongType args number "table"

def integerArg (args : List Value) (number : Nat) : Native Int64 :=
  let v := arg args number
  match v.coercedInteger? with
  | some n => pure n
  | none =>
    if v.coerced?.isSome then badArgumentText number "number has no integer representation"
    else wrongType args number "number"

def integerArgOr (args : List Value) (number : Nat) (default : Int64) : Native Int64 :=
  if absent args number then pure default else integerArg args number

def numberArg (args : List Value) (number : Nat) : Native Number :=
  match (arg args number).coerced? with
  | some n => pure n
  | none => wrongType args number "number"

def doubleArg (args : List Value) (number : Nat) : Native Double := do
  match ← numberArg args number with
  | .integer n => return Double.ofInt n.toInt
  | .double x => return x

def doubleArgOr (args : List Value) (number : Nat) (default : Double) : Native Double :=
  if absent args number then pure default else doubleArg args number

def stringArg (args : List Value) (number : Nat) : Native ByteArray :=
  match (arg args number).text? with
  | some s => pure s
  | none => wrongType args number "string"

def stringArgOr (args : List Value) (number : Nat) (default : ByteArray) : Native ByteArray :=
  if absent args number then pure default else stringArg args number

/-- Calls a function as a built-in one does. -/
def call (f : Value) (args : List Value) : Native (List Value) := Action.call f args Site.native

def call₁ (f : Value) (args : List Value) : Native Value := Action.call₁ f args Site.native

def lookup (object key : Value) : Native Value := Lua.index none object key none

def assign (object key value : Value) : Native Unit := Lua.setIndex none object key value none

def objectNumber : Value → Nat
  | .table id => 4 * id
  | .closure id => 4 * id + 1
  | .matcher id => 4 * id + 2
  | .host id => 4 * id + 3
  | .builtin b => 2 ^ 20 + (hash b).toNat % 2 ^ 20
  | _ => 0

def addressText (h : Heap) (v : Value) : List UInt8 :=
  ascii "0x" ++ Ascii.numeral 16 (h.circumstances.address (objectNumber v))

/-- The text of a value; a metatable can decide it. -/
def display (v : Value) : Native ByteArray := do
  let f ← Action.gets (·.metamethod v (eventKey "tostring"))
  if !f.isNil then
    match (← call₁ f [v]).text? with
    | some s => return s
    | none => failText "'__tostring' must return a string"
  else
    match v with
    | .nil => return bytes (ascii "nil")
    | .boolean b => return bytes (ascii (if b then "true" else "false"))
    | .failure f => return f.message.toUTF8
    | _ =>
      match v.text? with
      | some s => return s
      | none =>
        let h ← Action.get
        return h.typeName v ++ bytes (ascii ": " ++ addressText h v)

end Native
end SealedLua.Lua
