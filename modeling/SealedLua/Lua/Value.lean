import SealedLua.Lua.Syntax

/-!
# Values of scripts

Tables, closures and pattern iterators have an identity and live in the heap;
their values are their places there.  Built-in functions are known by name.
Functions of the host are known by the number under which they were bound.
-/

namespace SealedLua.Lua

abbrev TableId := Nat
abbrev ClosureId := Nat
abbrev MatcherId := Nat
abbrev HostId := Nat
abbrev CellId := Nat

/-- The built-in functions.  No library holds `errorText`, which shows an error
that no script has caught. -/
inductive Builtin where
  | errorText
  | assert | collectgarbage | dofile | error | getmetatable | ipairs | ipairsNext | load | loadfile
  | next | pairs | pcall | print | rawequal | rawget | rawlen | rawset | select | setmetatable
  | tonumber | tostring | type | warn | xpcall
  | stringByte | stringChar | stringDump | stringFind | stringFormat | stringGmatch | stringGsub
  | stringLen | stringLower | stringMatch | stringPack | stringPacksize | stringRep | stringReverse
  | stringSub | stringUnpack | stringUpper | stringArith (op : ArithOp) | stringNegate
  | tableConcat | tableInsert | tableMove | tablePack | tableRemove | tableSort | tableUnpack
  | mathAbs | mathAcos | mathAsin | mathAtan | mathCeil | mathCos | mathCosh | mathDeg | mathExp
  | mathFloor | mathFmod | mathFrexp | mathLdexp | mathLog | mathLog10 | mathMax | mathMin
  | mathModf | mathPow | mathRad | mathRandom | mathRandomseed | mathSin | mathSinh | mathSqrt
  | mathTan | mathTanh | mathTointeger | mathType | mathUlt
  | utf8Char | utf8Codepoint | utf8Codes | utf8CodesNext (lax : Bool) | utf8Len | utf8Offset
deriving DecidableEq, Hashable, Repr

/-- An error that a function of the host raised.  Two failures are the same
object only if they have the same serial number. -/
structure Failure where
  serial : Nat
  message : String
deriving DecidableEq, Hashable

inductive Value where
  | nil
  | boolean (b : Bool)
  | integer (n : Int64)
  | double (x : Double)
  | string (s : ByteArray)
  | table (id : TableId)
  | closure (id : ClosureId)
  | builtin (b : Builtin)
  | matcher (id : MatcherId)
  | host (id : HostId)
  | failure (f : Failure)
deriving DecidableEq, Hashable, Inhabited

namespace Value

/-- A string value with these ASCII characters. -/
def ofAscii (text : String) : Value := .string (bytes (ascii text))

/-- A string value with the UTF-8 form of a text. -/
def ofText (text : String) : Value := .string text.toUTF8

/-- A natural number as an integer. -/
def ofNat (n : Nat) : Value := .integer (Int64.ofNat n)

def ofNumber : Number → Value
  | .integer n => .integer n
  | .double x => .double x

def ofLiteral : Literal → Value
  | .nil => .nil
  | .boolean b => .boolean b
  | .number n => ofNumber n
  | .string s => .string s

def isNil : Value → Bool
  | .nil => true
  | _ => false

/-- Everything but `nil` and `false` counts as true in a condition. -/
def truthy : Value → Bool
  | .nil => false
  | .boolean b => b
  | _ => true

def isFunction : Value → Bool
  | .closure _ | .builtin _ | .matcher _ | .host _ => true
  | _ => false

def typeName : Value → String
  | .nil => "nil"
  | .boolean _ => "boolean"
  | .integer _ | .double _ => "number"
  | .string _ => "string"
  | .table _ => "table"
  | .closure _ | .builtin _ | .matcher _ | .host _ => "function"
  | .failure _ => "userdata"

def number? : Value → Option Number
  | .integer n => some (.integer n)
  | .double x => some (.double x)
  | _ => none

/-- A double as a 64-bit integer, if it is whole and in range. -/
def exactInteger? (x : Double) : Option Int64 :=
  match x.toInt? with
  | some n => if -(2 ^ 63) ≤ n && n < 2 ^ 63 then some (Int64.ofInt n) else none
  | none => none

/-- A value as an operand of integer arithmetic: a whole double converts, a
string does not. -/
def integer? : Value → Option Int64
  | .integer n => some n
  | .double x => exactInteger? x
  | _ => none

/-- A value as an operand of floating-point arithmetic; a string does not convert. -/
def double? : Value → Option Double
  | .integer n => some (Double.ofInt n.toInt)
  | .double x => some x
  | _ => none

def coerced? : Value → Option Number
  | .string s => Number.read? (codes s)
  | v => v.number?

/-- The integer that a value is or that a string spells. -/
def coercedInteger? (v : Value) : Option Int64 := v.coerced?.bind fun n => (ofNumber n).integer?

def coercedDouble? (v : Value) : Option Double := v.coerced?.bind fun n => (ofNumber n).double?

def text? : Value → Option ByteArray
  | .string s => some s
  | .integer n => some (bytes (Number.text (.integer n)))
  | .double x => some (bytes (Number.text (.double x)))
  | _ => none

/-- Equality without metamethods: numbers compare by value, all else by identity. -/
def rawEq : Value → Value → Bool
  | .double x, .double y => Double.eq x y
  | .integer n, .double x => exactInteger? x == some n
  | .double x, .integer n => exactInteger? x == some n
  | a, b => a == b

/-- A value as a table key: a whole double is the integer of the same value. -/
def toKey : Value → Value
  | .double x =>
    match exactInteger? x with
    | some n => .integer n
    | none => .double x
  | v => v

/-- Whether a value is the key of an entry in its canonical form: neither `nil`
nor NaN nor a whole double. -/
def isKey : Value → Bool
  | .nil => false
  | .double x => !x.isNaN && (exactInteger? x).isNone
  | _ => true

end Value

/-- The values of a list that a pattern of `count` variables takes, with `nil`
for those that are missing. -/
def adjust (count : Nat) (values : List Value) : List Value :=
  values.take count ++ List.replicate (count - values.length) .nil

@[simp] theorem length_adjust (count : Nat) (values : List Value) :
    (adjust count values).length = count := by
  simp [adjust]; omega

end SealedLua.Lua
