import SealedLua.Lua.Circumstances
import SealedLua.Lua.Table

/-!
# The heap of an interpreter

Everything with an identity lives here: variables, tables, closures and pattern
iterators.  The six tables that every interpreter starts with have fixed places.
-/

namespace SealedLua.Lua

/-- A function together with the variables that were in scope where it was made. -/
structure Closure where
  function : Function
  /-- The variables in scope, the last declared first. -/
  scope : List CellId
  /-- The name of the chunk that it was read from, as messages show it. -/
  chunk : ByteArray
deriving Inhabited

/-- The state of an iteration over the matches of a pattern. -/
structure Matcher where
  subject : ByteArray
  pattern : ByteArray
  position : Nat
  /-- Where the last match ended; a match that ends there again is passed over. -/
  lastEnd : Option Nat
deriving Inhabited

structure Heap where
  cells : Array Value := #[]
  tables : Array Table := #[]
  closures : Array Closure := #[]
  matchers : Array Matcher := #[]
  /-- How many failures of the host have become values. -/
  failures : Nat := 0
  /-- The state of the generator of random numbers. -/
  randomState : List UInt64 := []
  /-- How often the generator was started without words from a script. -/
  seeds : Nat := 0
  /-- What was printed and is still to be passed on. -/
  output : ByteArray := bytes []
  collector : Collector := {}
  circumstances : Circumstances := {}
deriving Inhabited

namespace Heap

/-- The place of the table of globals. -/
def globals : TableId := 0
def stringLibrary : TableId := 1
def tableLibrary : TableId := 2
def mathLibrary : TableId := 3
def utf8Library : TableId := 4
def stringMetatable : TableId := 5

def table (h : Heap) (id : TableId) : Table := h.tables[id]?.getD .empty

def cell (h : Heap) (id : CellId) : Value := h.cells[id]?.getD .nil

def closure (h : Heap) (id : ClosureId) : Closure := h.closures[id]?.getD default

def matcher (h : Heap) (id : MatcherId) : Matcher := h.matchers[id]?.getD default

def setTable (h : Heap) (id : TableId) (t : Table) : Heap := { h with tables := h.tables.set! id t }

def setCell (h : Heap) (id : CellId) (v : Value) : Heap := { h with cells := h.cells.set! id v }

def setMatcher (h : Heap) (id : MatcherId) (m : Matcher) : Heap :=
  { h with matchers := h.matchers.set! id m }

/-- The raw entry of a key of a table. -/
def get (h : Heap) (id : TableId) (key : Value) : Value := (h.table id).get key

/-- The first entry of a table after a key, as `Table.entryAfter?`. -/
def entryAfter? (h : Heap) (id : TableId) (key : Value) : Option (Option (Value × Value)) :=
  (h.table id).entryAfter? h.circumstances.rank key

def set (h : Heap) (id : TableId) (key value : Value) : Heap :=
  { h with tables := h.tables.modify id fun t => t.set key value }

def setMetatable (h : Heap) (id : TableId) (metatable : Option TableId) : Heap :=
  { h with tables := h.tables.modify id fun t => { t with metatable := metatable } }

def newCell (h : Heap) (v : Value) : CellId × Heap :=
  (h.cells.size, { h with cells := h.cells.push v })

def newTable (h : Heap) (t : Table) : TableId × Heap :=
  (h.tables.size, { h with tables := h.tables.push t })

def newClosure (h : Heap) (c : Closure) : ClosureId × Heap :=
  (h.closures.size, { h with closures := h.closures.push c })

def newMatcher (h : Heap) (m : Matcher) : MatcherId × Heap :=
  (h.matchers.size, { h with matchers := h.matchers.push m })

/-- Makes a value of an error that a function of the host raised. -/
def newFailure (h : Heap) (message : String) : Value × Heap :=
  (.failure ⟨h.failures, message⟩, { h with failures := h.failures + 1 })

/-- A value that the host hands to scripts.  A failure is copied, so it is none
of the objects that scripts have. -/
def pass (h : Heap) : Value → Value × Heap
  | .failure f => h.newFailure f.message
  | v => (v, h)

def passAll (h : Heap) : List Value → List Value × Heap
  | [] => ([], h)
  | v :: rest =>
    let (v, h) := h.pass v
    let (rest, h) := h.passAll rest
    (v :: rest, h)

def withCollector (h : Heap) (f : Collector → Collector) : Heap :=
  { h with collector := f h.collector }

def print (h : Heap) (text : ByteArray) : Heap := { h with output := h.output ++ text }

/-- The heap when all that was printed has been passed on. -/
def flushed (h : Heap) : Heap := { h with output := bytes [] }

def under (h : Heap) (circumstances : Circumstances) : Heap :=
  { h with circumstances := circumstances }

/-- The metatable of a value, if it has one that scripts can have an effect on. -/
def metatableOf (h : Heap) : Value → Option TableId
  | .table id => (h.table id).metatable
  | .string _ => some stringMetatable
  | _ => none

/-- The entry of a value's metatable under a name, `nil` if there is none. -/
def metamethod (h : Heap) (v : Value) (event : ByteArray) : Value :=
  match h.metatableOf v with
  | some id => h.get id (.string event)
  | none => .nil

/-- The type of a value as messages show it; a metatable can name it. -/
def typeName (h : Heap) (v : Value) : ByteArray :=
  match v with
  | .table _ =>
    match h.metamethod v (bytes (ascii "__name")) with
    | .string s => s
    | _ => bytes (ascii v.typeName)
  | _ => bytes (ascii v.typeName)

end Heap
end SealedLua.Lua
