import SealedLua.Number.Numeral

/-!
# Programs of the script language

The tree of a chunk after its names have been resolved.  A variable is the
number of variables declared after it that are still in scope, over all
functions around its use; a global `x` is the entry `x` of the variable `_ENV`.
What an error message shows is kept: names, lines, and whether a variable
belongs to a function outside the one that uses it.

Two statements have no spelling of their own.  `untilTrue` ends the body of a
`repeat` loop and leaves the loop when its condition holds, so that the
condition sees the body's variables.  `labelled` holds a block with labels;
only such blocks can be the target of a `goto`.
-/

namespace SealedLua.Lua

/-- Values that are written in a program. -/
inductive Literal where
  | nil
  | boolean (b : Bool)
  | number (n : Number)
  | string (s : ByteArray)
deriving DecidableEq

/-- Operators on two numbers that have a metamethod of their own. -/
inductive ArithOp where
  | add | sub | mul | mod | pow | div | idiv | band | bor | bxor | shl | shr
deriving DecidableEq, Hashable, Repr

/-- Comparisons. -/
inductive CompareOp where
  | eq | ne | lt | le | gt | ge
deriving DecidableEq, Repr

/-- Operators on one operand. -/
inductive UnaryOp where
  | negate | complement | length | not
deriving DecidableEq, Repr

/-- A variable in scope, by its distance. -/
structure Variable where
  name : ByteArray
  index : Nat
  /-- Whether it belongs to a function around the one that uses it. -/
  outer : Bool
deriving DecidableEq

mutual

/-- Expressions; a line is kept where evaluation can fail. -/
inductive Expr where
  | literal (value : Literal)
  | varargs
  | variable (v : Variable)
  | index (object key : Expr) (line : Nat)
  | call (callee : Expr) (args : List Expr) (line : Nat)
  | method (object : Expr) (name : ByteArray) (args : List Expr) (line : Nat)
  | function (f : Function)
  | table (fields : List Field) (items pairs : Nat)
  | first (e : Expr)
  | and (left right : Expr)
  | or (left right : Expr)
  | unary (op : UnaryOp) (e : Expr) (line : Nat)
  | arith (op : ArithOp) (left right : Expr) (line : Nat)
  | concat (left right : Expr) (line : Nat)
  | compare (op : CompareOp) (left right : Expr) (line : Nat)

/-- Entries of a table constructor. -/
inductive Field where
  | item (value : Expr)
  | pair (key value : Expr) (line : Nat)

/-- What an assignment stores into. -/
inductive Target where
  | variable (v : Variable)
  | entry (object key : Expr) (line : Nat)

inductive Stmt where
  /-- Declares `count` variables with the values of the expressions. -/
  | declare (count : Nat) (values : List Expr)
  /-- Declares the function's own variable before the function is made. -/
  | declareFunction (f : Function)
  /-- Runs the rest of its block and then closes the variable at `index`. -/
  | closing (index : Nat) (name : ByteArray) (line : Nat) (rest : List Stmt)
  | assign (targets : List Target) (values : List Expr)
  | expression (e : Expr)
  | block (body : List Stmt)
  | labelled (body : List Stmt)
  /-- Marks a place in a block where `depth` variables are in scope. -/
  | label (name : ByteArray) (depth : Nat)
  | goto (name : ByteArray)
  | leave
  | ifElse (condition : Expr) (yes no : List Stmt)
  | whileLoop (condition : Expr) (body : List Stmt)
  | repeatLoop (body : List Stmt)
  | untilTrue (condition : Expr)
  | countLoop (start limit step : Expr) (body : List Stmt) (line : Nat)
  | eachLoop (count : Nat) (values : List Expr) (body : List Stmt) (line : Nat)
  | ret (values : List Expr)
  /-- Returns what a call returns, in place of the function's own activation. -/
  | tailCall (callee : Expr) (args : List Expr) (line : Nat)
  | tailMethod (object : Expr) (name : ByteArray) (args : List Expr) (line : Nat)

inductive Function where
  | mk (params : Nat) (variadic : Bool) (body : List Stmt)

end

instance : Inhabited Function := ⟨.mk 0 false []⟩

namespace Function

def params : Function → Nat | .mk n _ _ => n

def variadic : Function → Bool | .mk _ v _ => v

def body : Function → List Stmt | .mk _ _ b => b

end Function

/-- How an error message names a value. -/
inductive NameKind where
  | «local» | upvalue | global | field | method | constant | metamethod | iterator
deriving DecidableEq, Repr

namespace NameKind

def word : NameKind → String
  | .«local» => "local"
  | .upvalue => "upvalue"
  | .global => "global"
  | .field => "field"
  | .method => "method"
  | .constant => "constant"
  | .metamethod => "metamethod"
  | .iterator => "for iterator"

end NameKind

/-- A kind and a name, as in `local 'x'`. -/
structure Naming where
  kind : NameKind
  name : ByteArray
deriving DecidableEq

def environmentName : ByteArray := bytes (ascii "_ENV")

namespace Expr

/-- The variable of the running function that an expression is, if it is one.
Its value is read when it is used, after the operands that follow it. -/
def ownVariable? : Expr → Option Variable
  | .variable v => if v.outer then none else some v
  | .first e => e.ownVariable?
  | _ => none

/-- The name of a table entry, as far as the program shows it. -/
def keyName : Expr → ByteArray
  | .literal (.string s) => s
  | .literal (.number (.integer n)) =>
    if 0 ≤ n && n ≤ 255 then bytes (ascii "integer index") else bytes (ascii "?")
  | _ => bytes (ascii "?")

/-- How an error message names the value of an expression. -/
def naming? : Expr → Option Naming
  | .variable v => some ⟨if v.outer then .upvalue else .«local», v.name⟩
  | .literal (.string s) => some ⟨.constant, s⟩
  | .first e => e.naming?
  | .index object key _ =>
    match object, key with
    | .variable v, .literal (.string s) =>
      some ⟨if v.name == environmentName then .global else .field, s⟩
    | _, key => some ⟨.field, keyName key⟩
  | _ => none

end Expr
end SealedLua.Lua
