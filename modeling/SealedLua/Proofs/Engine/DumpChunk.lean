import SealedLua.Engine.Routine
import SealedLua.Lua.Parser
import SealedLua.Proofs.Lua.Programs
import SealedLua.Proofs.Lua.Quoting

/-!
# The program of the rendering routine

The routine that renders values as the tree that its text reads as.
-/

namespace SealedLua.Lua

def readsAs (source : ByteArray) (f : Function) : Bool :=
  match Chunk.read source with
  | .ok g => g.same f
  | .error _ => false

theorem read_of_readsAs {source : ByteArray} {f : Function} (h : readsAs source f = true) :
    Chunk.read source = .ok f := by
  unfold readsAs at h
  split at h
  · next read => rw [read, Function.eq_of_same h]
  · cases h

namespace DumpChunk

def text (s : String) : Expr := .literal (.string (bytes (ascii s)))

def own (name : String) (index : Nat) : Expr := .variable ⟨bytes (ascii name), index, false⟩

/-- A variable of a function around the one that uses it. -/
def outer (name : String) (index : Nat) : Expr := .variable ⟨bytes (ascii name), index, true⟩

def global (name : String) (environment line : Nat) : Expr :=
  .index (outer "_ENV" environment) (text name) line

def member (library name : String) (environment line : Nat) : Expr :=
  .index (global library environment line) (text name) line

def encoder : Function :=
  .mk 1 false [.tailCall (member "string" "format" 3 7)
    [.literal (.string (bytes [92, 37, 48, 51, 100])),
      .call (member "string" "byte" 3 7) [own "c" 0] 7] 7]

def quote : Function :=
  .mk 1 false [.ret [.concat (text "\"") (.concat
    (.call (member "string" "gsub" 2 6) [own "text" 0, .literal (.string (bytes Quoting.pattern)),
      .function encoder] 6)
    (text "\"") 8) 6]]

def entry : List Stmt :=
  [.assign [.entry (own "entries" 2)
      (.arith .add (.unary .length (own "entries" 2) 26) (.literal (.number (.integer 1))) 26) 26]
    [.concat (text "[") (.concat (.call (outer "dump" 6) [own "key" 1, own "visiting" 4] 26)
      (.concat (text "]=") (.call (outer "dump" 6) [own "item" 0, own "visiting" 4] 26) 26) 26) 26]]

def cyclic : List Stmt :=
  [.expression
    (.call (global "error" 5 21) [text "cannot dump a table with cycles",
    .literal (.number (.integer 0))] 21)]

def loop : Stmt := .eachLoop 2 [.call (global "pairs" 6 25) [own "value" 3] 25] entry 25

def close : List Stmt :=
  [.assign [.entry (own "visiting" 2) (own "value" 3) 28] [.literal .nil],
    .expression (.call (member "table" "sort" 6 29) [own "entries" 0] 29),
    .ret [.concat (text "\x7b")
      (.concat (.call (member "table" "concat" 6 30) [own "entries" 0, text ","] 30)
      (text "\x7d") 30) 30]]

/-- What is done with a table. -/
def table : List Stmt :=
  .ifElse (.index (own "visiting" 1) (own "value" 2) 20) cyclic [] ::
    .assign [.entry (own "visiting" 1) (own "value" 2) 23] [.literal (.boolean true)] ::
    .declare 1 [.table [] 0 0] :: loop :: close

/-- What is done with `nil` and booleans, with numbers, and with strings. -/
def plain : List Stmt := [.tailCall (global "tostring" 5 14) [own "value" 2] 14]

def number : List Stmt := [.tailCall (member "string" "format" 5 16) [text "%q", own "value" 2] 16]

def string : List Stmt := [.tailCall (outer "quote" 4) [own "value" 2] 18]

def choice : Stmt :=
  .ifElse
    (.or (.compare .eq (own "kind" 0) (text "nil") 13)
    (.compare .eq (own "kind" 0) (text "boolean") 13)) plain
    [.ifElse (.compare .eq (own "kind" 0) (text "number") 15) number
      [.ifElse (.compare .eq (own "kind" 0) (text "string") 17) string
        [.ifElse (.compare .eq (own "kind" 0) (text "table") 19) table []]]]

def unknown : Stmt :=
  .expression (.call (global "error" 5 32)
    [.concat (text "cannot dump a value of type ") (own "kind" 0) 32,
      .literal (.number (.integer 0))] 32)

/-- What is done with a value. -/
def body : List Stmt :=
  [.declare 1 [.call (global "type" 4 12) [own "value" 1] 12], choice, unknown]

def dump : Function := .mk 2 false body

/-- What the chunk returns. -/
def code : List Stmt :=
  [.ret [.concat (text "return ") (.call (own "dump" 0) [.varargs, .table [] 0 0] 35) 35]]

def chunk : Function := .mk 0 true (.declareFunction quote :: .declareFunction dump :: code)

theorem read_dump : Chunk.read Routine.dump.toUTF8 = .ok chunk :=
  read_of_readsAs (by decide +kernel)

end DumpChunk
end SealedLua.Lua
