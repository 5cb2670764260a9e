import SealedLua.Lua.Token

/-!
# Reading chunks

From tokens to the tree of a chunk, in one pass that resolves names as it goes.
What a name can refer to at some place of the text is its `Scope`; it is passed
down, so that leaving a block needs no action.

A `goto` to a label that is not yet visible is handed up to the block that
shows the label, as a pending jump.  A jump must not enter the scope of a
variable; a label at the end of its block counts as being outside of the scope
of the block's variables.

The reader recurses on a budget that exceeds the number of its calls for the
number of tokens, so running out of it stands for too deep a nesting, as does
passing `nestingLimit` levels of statements and expressions.
-/

namespace SealedLua.Lua

def nestingLimit : Nat := 200

def variableLimit : Nat := 200

namespace Parser

/-- What may be done with a variable. -/
inductive VariableKind where
  | regular
  | readOnly
  /-- A name for a literal, which takes no place at run time. -/
  | literal (value : Literal)
deriving DecidableEq

structure Local where
  name : ByteArray
  kind : VariableKind
  /-- How many functions are around the declaration. -/
  level : Nat

namespace Local

def takesPlace (v : Local) : Bool :=
  match v.kind with
  | .literal _ => false
  | _ => true

end Local

structure Scope where
  /-- The variables in scope, the last declared first. -/
  locals : List Local
  /-- How many functions are around this place. -/
  level : Nat
  /-- How many variables the function has in scope, hidden ones included. -/
  active : Nat
  /-- Whether the function takes extra arguments. -/
  variadic : Bool
  /-- Whether a loop of the function is around this place. -/
  inLoop : Bool
  /-- Whether the function has a value to close when it leaves this place. -/
  closing : Bool
  /-- The labels that can be seen from here. -/
  labels : List ByteArray

namespace Scope

/-- How many variables in scope have a place at run time. -/
def depth (s : Scope) : Nat := s.locals.countP Local.takesPlace

def declare (s : Scope) (v : Local) : Scope :=
  { s with locals := v :: s.locals, active := s.active + 1 }

end Scope

/-- A jump to a label that its block has not shown yet. -/
structure Jump where
  label : ByteArray
  line : Nat
  /-- How many variables of the function are in scope at the jump. -/
  active : Nat

structure State where
  tokens : List (Token × Nat)
  /-- The line of the last token that was taken. -/
  line : Nat
  /-- How many statements and expressions are around this place. -/
  nesting : Nat

abbrev Read := StateT State (Except ChunkError)

def peek : Read Token := do return ((← get).tokens.head?.map (·.1)).getD .finish

def peekSecond : Read Token := do return (((← get).tokens.drop 1).head?.map (·.1)).getD .finish

def nextLine : Read Nat := do
  let s ← get
  return (s.tokens.head?.map (·.2)).getD s.line

def advance : Read Unit := modify fun s =>
  match s.tokens with
  | [] => s
  | (_, line) :: rest => { s with tokens := rest, line := line }

def shownName (n : ByteArray) : String := Ascii.text (codes (Token.quoted n))

def refuse {α : Type} (reason : String) : Read α := do
  throw (.malformed (← nextLine) reason (some (← peek).shown))

/-- Refuses what was read for a reason that has nothing to do with the next token. -/
def object {α : Type} (reason : String) : Read α := do throw (.malformed (← nextLine) reason none)

def accept (t : Token) : Read Bool := do
  if (← peek) == t then
    advance
    return true
  else return false

def named (t : Token) : String := Ascii.text (codes t.shown)

def expect (t : Token) : Read Unit := do
  if !(← accept t) then refuse (named t ++ " expected")

/-- Takes the token that closes what another one opened on a line. -/
def expectClosing (t opening : Token) (line : Nat) : Read Unit := do
  if !(← accept t) then
    if line = (← nextLine) then refuse (named t ++ " expected")
    else refuse (named t ++ " expected (to close " ++ named opening ++
      " at line " ++ toString line ++ ")")

def expectName : Read ByteArray := do
  match ← peek with
  | .name n => advance; return n
  | _ => refuse "<name> expected"

/-- Reads something one level deeper. -/
def nested {α : Type} (x : Read α) : Read α := do
  let s ← get
  if s.nesting + 1 ≥ nestingLimit then throw .tooDeep
  set { s with nesting := s.nesting + 1 }
  let a ← x
  modify fun s => { s with nesting := s.nesting - 1 }
  return a

def endsBlock : Token → Bool
  | .finish => true
  | .word w => w == "end" || w == "else" || w == "elseif" || w == "until"
  | _ => false

/-- The operators on two operands with their binding strength to the left and
to the right. -/
inductive BinaryOp where
  | arith (op : ArithOp)
  | concat
  | compare (op : CompareOp)
  | and
  | or

def binaryOp? : Token → Option (BinaryOp × Nat × Nat)
  | .sign "+" => some (.arith .add, 10, 10)
  | .sign "-" => some (.arith .sub, 10, 10)
  | .sign "*" => some (.arith .mul, 11, 11)
  | .sign "%" => some (.arith .mod, 11, 11)
  | .sign "^" => some (.arith .pow, 14, 13)
  | .sign "/" => some (.arith .div, 11, 11)
  | .sign "//" => some (.arith .idiv, 11, 11)
  | .sign "&" => some (.arith .band, 6, 6)
  | .sign "|" => some (.arith .bor, 4, 4)
  | .sign "~" => some (.arith .bxor, 5, 5)
  | .sign "<<" => some (.arith .shl, 7, 7)
  | .sign ">>" => some (.arith .shr, 7, 7)
  | .sign ".." => some (.concat, 9, 8)
  | .sign "==" => some (.compare .eq, 3, 3)
  | .sign "~=" => some (.compare .ne, 3, 3)
  | .sign "<" => some (.compare .lt, 3, 3)
  | .sign "<=" => some (.compare .le, 3, 3)
  | .sign ">" => some (.compare .gt, 3, 3)
  | .sign ">=" => some (.compare .ge, 3, 3)
  | .word "and" => some (.and, 2, 2)
  | .word "or" => some (.or, 1, 1)
  | _ => none

def unaryStrength : Nat := 12

def unaryOp? : Token → Option UnaryOp
  | .word "not" => some .not
  | .sign "-" => some .negate
  | .sign "~" => some .complement
  | .sign "#" => some .length
  | _ => none

def applyBinary (op : BinaryOp) (left right : Expr) (line : Nat) : Expr :=
  match op with
  | .arith op => .arith op left right line
  | .concat => .concat left right line
  | .compare op => .compare op left right line
  | .and => .and left right
  | .or => .or left right

def applyUnary (op : UnaryOp) (e : Expr) (line : Nat) : Expr :=
  match op, e with
  | .negate, .literal (.number (.integer n)) => .literal (.number (.integer (-n)))
  | .negate, .literal (.number (.double x)) =>
    if x.isZero || x.isNaN then .unary op e line else .literal (.number (.double x.neg))
  | _, _ => .unary op e line

/-- What a name stands for. -/
inductive Resolved where
  | variable (v : Variable) (kind : VariableKind)
  | literal (value : Literal)
  | global

def resolveFrom (level : Nat) (name : ByteArray) : List Local → Nat → Resolved
  | [], _ => .global
  | v :: rest, index =>
    if v.name == name then
      match v.kind with
      | .literal value => .literal value
      | kind => .variable ⟨name, index, v.level != level⟩ kind
    else resolveFrom level name rest (if v.takesPlace then index + 1 else index)

def resolve (s : Scope) (name : ByteArray) : Resolved := resolveFrom s.level name s.locals 0

/-- The variable or literal that a name in scope stands for. -/
def plainName (s : Scope) (name : ByteArray) : Option Expr :=
  match resolve s name with
  | .variable v _ => some (.variable v)
  | .literal value => some (.literal value)
  | .global => none

/-- The expression that a name is: a variable, or an entry of the globals. -/
def nameExpr (s : Scope) (name : ByteArray) (line : Nat) : Expr :=
  match plainName s name with
  | some e => e
  | none => .index ((plainName s environmentName).getD (.literal .nil))
    (.literal (.string name)) line

/-- The target that an expression is for an assignment. -/
def target (s : Scope) (e : Expr) : Read Target := do
  match e with
  | .variable v =>
    match resolve s v.name with
    | .variable _ .regular => return .variable v
    | _ => object ("attempt to assign to const variable " ++ shownName v.name)
  | .index object key line => return .entry object key line
  | _ => refuse "syntax error"

def declare (s : Scope) (name : ByteArray) (kind : VariableKind) : Read Scope := do
  if s.active + 1 > variableLimit then refuse "too many local variables"
  return s.declare ⟨name, kind, s.level⟩

def declareAll (s : Scope) : List ByteArray → Read Scope
  | [] => return s
  | n :: rest => do declareAll (← declare s n .regular) rest

def hide (s : Scope) (count : Nat) : Read Scope := do
  if s.active + count > variableLimit then refuse "too many local variables"
  return { s with active := s.active + count }

/-- Jumps as the block around sees them, where fewer variables are in scope. -/
def leaveBlock (s : Scope) (jumps : List Jump) : List Jump :=
  jumps.map fun j => { j with active := min j.active s.active }

/-- Statements in the form in which they can be the target of a jump. -/
def asBlock (body : List Stmt) : List Stmt :=
  if body.any fun
    | .label _ _ => true
    | _ => false
  then [.labelled body] else body

/-- A declared variable and what is said about it. -/
structure Declared where
  name : ByteArray
  mark : Option ByteArray

/-- The entry of a table constructor with its number of items and of pairs. -/
structure Counted where
  field : Field
  isItem : Bool

/-- Whether an expression can have any number of values. -/
def isMulti : Expr → Bool
  | .call _ _ _ | .method _ _ _ _ | .varargs => true
  | _ => false

/-- A constructor with the sizes that its table starts with.  A last item of
any number of values is not counted. -/
def constructor (fields : List Counted) : Expr :=
  let openEnded := match fields.getLast? with
    | some ⟨.item e, _⟩ => isMulti e
    | _ => false
  let items := fields.countP (·.isItem)
  .table (fields.map (·.field)) (if openEnded then items - 1 else items) (fields.length - items)

/-- A returned call takes the place of the function unless something has to be
closed first. -/
def returned (s : Scope) (values : List Expr) : Stmt :=
  match s.closing, values with
  | false, [.call callee args line] => .tailCall callee args line
  | false, [.method object name args line] => .tailMethod object name args line
  | _, _ => .ret values

/-- What ends a block besides its closing word. -/
inductive Ending where
  | plain
  /-- The condition of a `repeat` loop on a line, which belongs to the block. -/
  | condition (line : Nat)

mutual

def readExpr (s : Scope) : Nat → Nat → Read Expr
  | 0, _ => throw .tooDeep
  | n + 1, strength => nested do
    let left ← match unaryOp? (← peek) with
      | some op => do
        let line ← nextLine
        advance
        let e ← readExpr s n unaryStrength
        pure (applyUnary op e line)
      | none => readSimple s n
    readOperators s n strength left

/-- Reads operators that bind more strongly than `strength`, with their right operands. -/
def readOperators (s : Scope) : Nat → Nat → Expr → Read Expr
  | 0, _, _ => throw .tooDeep
  | n + 1, strength, left => do
    match binaryOp? (← peek) with
    | some (op, toLeft, toRight) =>
      if toLeft > strength then
        let line ← nextLine
        advance
        let right ← readExpr s n toRight
        readOperators s n strength (applyBinary op left right line)
      else return left
    | none => return left

def readSimple (s : Scope) : Nat → Read Expr
  | 0 => throw .tooDeep
  | n + 1 => do
    match ← peek with
    | .number v => advance; return .literal (.number v)
    | .string v => advance; return .literal (.string v)
    | .word "nil" => advance; return .literal .nil
    | .word "true" => advance; return .literal (.boolean true)
    | .word "false" => advance; return .literal (.boolean false)
    | .sign "..." =>
      if !s.variadic then refuse "cannot use '...' outside a vararg function"
      advance
      return .varargs
    | .sign "\x7b" => readTable s n
    | .word "function" =>
      advance
      return .function (← readFunction s n false)
    | _ => readSuffixed s n

def readPrimary (s : Scope) : Nat → Read Expr
  | 0 => throw .tooDeep
  | n + 1 => do
    match ← peek with
    | .name name =>
      let line ← nextLine
      advance
      return nameExpr s name line
    | .sign "(" =>
      let line ← nextLine
      advance
      let e ← readExpr s n 0
      expectClosing (.sign ")") (.sign "(") line
      return .first e
    | _ => refuse "unexpected symbol"

def readSuffixed (s : Scope) : Nat → Read Expr
  | 0 => throw .tooDeep
  | n + 1 => do
    let e ← readPrimary s n
    readSuffixes s n e

def readSuffixes (s : Scope) : Nat → Expr → Read Expr
  | 0, _ => throw .tooDeep
  | n + 1, e => do
    let line ← nextLine
    match ← peek with
    | .sign "." =>
      advance
      let line ← nextLine
      let name ← expectName
      readSuffixes s n (.index e (.literal (.string name)) line)
    | .sign "[" =>
      advance
      let key ← readExpr s n 0
      let line ← nextLine
      expect (.sign "]")
      readSuffixes s n (.index e key line)
    | .sign ":" =>
      advance
      let name ← expectName
      let line ← nextLine
      let args ← readArgs s n
      readSuffixes s n (.method e name args line)
    | .sign "(" | .sign "\x7b" | .string _ =>
      let args ← readArgs s n
      readSuffixes s n (.call e args line)
    | _ => return e

def readArgs (s : Scope) : Nat → Read (List Expr)
  | 0 => throw .tooDeep
  | n + 1 => do
    match ← peek with
    | .string v => advance; return [.literal (.string v)]
    | .sign "\x7b" => return [← readTable s n]
    | .sign "(" =>
      let line ← nextLine
      advance
      if ← accept (.sign ")") then return []
      let args ← readExprs s n
      expectClosing (.sign ")") (.sign "(") line
      return args
    | _ => refuse "function arguments expected"

def readExprs (s : Scope) : Nat → Read (List Expr)
  | 0 => throw .tooDeep
  | n + 1 => do
    let e ← readExpr s n 0
    if ← accept (.sign ",") then return e :: (← readExprs s n) else return [e]

def readTable (s : Scope) : Nat → Read Expr
  | 0 => throw .tooDeep
  | n + 1 => do
    let line ← nextLine
    expect (.sign "\x7b")
    let fields ← readFields s n
    expectClosing (.sign "\x7d") (.sign "\x7b") line
    return constructor fields

def readFields (s : Scope) : Nat → Read (List Counted)
  | 0 => throw .tooDeep
  | n + 1 => do
    if (← peek) == .sign "\x7d" then return []
    let field ← readField s n
    if (← accept (.sign ",")) || (← accept (.sign ";")) then return field :: (← readFields s n)
    else return [field]

def readField (s : Scope) : Nat → Read Counted
  | 0 => throw .tooDeep
  | n + 1 => do
    let line ← nextLine
    match ← peek, ← peekSecond with
    | .name name, .sign "=" =>
      advance
      advance
      return ⟨.pair (.literal (.string name)) (← readExpr s n 0) line, false⟩
    | .sign "[", _ =>
      advance
      let key ← readExpr s n 0
      expect (.sign "]")
      expect (.sign "=")
      return ⟨.pair key (← readExpr s n 0) line, false⟩
    | _, _ => return ⟨.item (← readExpr s n 0), true⟩

/-- The parameters and the body of a function, after its name. -/
def readFunction (s : Scope) : Nat → Bool → Read Function
  | 0, _ => throw .tooDeep
  | n + 1, isMethod => do
    let line ← nextLine
    expect (.sign "(")
    let (names, variadic) ← if ← accept (.sign ")") then pure ([], false) else readParams n
    let names := if isMethod then bytes (ascii "self") :: names else names
    let inner : Scope :=
      { locals := s.locals, level := s.level + 1, active := 0, variadic := variadic, inLoop := false
        closing := false, labels := [] }
    let inner ← declareAll inner names
    let body ← readBody inner n
    expectClosing (.word "end") (.word "function") line
    return .mk names.length variadic body

/-- Parameters up to the closing parenthesis, and whether they end in `...`. -/
def readParams : Nat → Read (List ByteArray × Bool)
  | 0 => throw .tooDeep
  | n + 1 => do
    if ← accept (.sign "...") then
      expect (.sign ")")
      return ([], true)
    let name ← expectName
    if ← accept (.sign ",") then
      let (names, variadic) ← readParams n
      return (name :: names, variadic)
    expect (.sign ")")
    return ([name], false)

/-- The statements of a function; no jump may be left over. -/
def readBody (s : Scope) : Nat → Read (List Stmt)
  | 0 => throw .tooDeep
  | n + 1 => do
    let (body, jumps) ← readBlock s n .plain
    match jumps with
    | [] => return body
    | j :: _ =>
      object ("no visible label " ++ shownName j.label ++ " for <goto> at line " ++ toString j.line)

/-- A block up to the word that ends it, with the jumps that leave it. -/
def readBlock (s : Scope) : Nat → Ending → Read (List Stmt × List Jump)
  | 0, _ => throw .tooDeep
  | n + 1, ending => do
    let (body, jumps) ← readStmts s n ending s.active []
    return (asBlock body, leaveBlock s jumps)

/-- The rest of a block that was entered with `entry` variables in scope.
`jumps` are those of the statements before. -/
def readStmts (s : Scope) : Nat → Ending → Nat → List Jump → Read (List Stmt × List Jump)
  | 0, _, _, _ => throw .tooDeep
  | n + 1, ending, entry, jumps => do
    let token ← peek
    if endsBlock token then
      match ending with
      | .plain => return ([], jumps)
      | .condition line =>
        expectClosing (.word "until") (.word "repeat") line
        return ([.untilTrue (← readExpr s n 0)], jumps)
    else if token == .word "return" then
      let stmt ← nested (readReturn s n)
      match ending with
      | .plain =>
        if endsBlock (← peek) then return ([stmt], jumps) else refuse "<eof> expected"
      | .condition line =>
        expectClosing (.word "until") (.word "repeat") line
        let _ ← readExpr s n 0
        return ([stmt], jumps)
    else if token == .sign "::" then readLabel s n ending entry jumps
    else if token == .word "local" then
      advance
      if ← accept (.word "function") then
        let (stmt, s) ← nested do
          let name ← expectName
          let s ← declare s name .regular
          let f ← readFunction s n false
          return (Stmt.declareFunction f, s)
        let (rest, jumps) ← readStmts s n ending entry jumps
        return (stmt :: rest, jumps)
      else readLocal s n ending entry jumps
    else
      let (stmts, more) ← nested (readStmt s n)
      let (rest, jumps) ← readStmts s n ending entry (jumps ++ more)
      return (stmts ++ rest, jumps)

def readReturn (s : Scope) : Nat → Read Stmt
  | 0 => throw .tooDeep
  | n + 1 => do
    expect (.word "return")
    let token ← peek
    let values ← if endsBlock token || token == .sign ";" then pure [] else readExprs s n
    let _ ← accept (.sign ";")
    return returned s values

/-- A label, the empty statements after it, and the rest of the block. -/
def readLabel (s : Scope) : Nat → Ending → Nat → List Jump → Read (List Stmt × List Jump)
  | 0, _, _, _ => throw .tooDeep
  | n + 1, ending, entry, jumps => do
    let names ← readLabels s n
    let atEnd := match ← peek with
      | .word "until" => false
      | t => endsBlock t
    let active := if atEnd then entry else s.active
    let reaches := fun (j : Jump) => names.contains j.label
    match jumps.find? fun j => reaches j && j.active < active with
    | some j =>
      object ("<goto " ++ Ascii.text (codes j.label) ++ "> at line " ++ toString j.line ++
        " jumps into the scope of a local")
    | none =>
      let s := { s with labels := names ++ s.labels }
      let (rest, jumps) ← readStmts s n ending entry (jumps.filter fun j => !reaches j)
      return (names.map (fun name => .label name s.depth) ++ rest, jumps)

/-- Labels and semicolons up to the next other statement. -/
def readLabels (s : Scope) : Nat → Read (List ByteArray)
  | 0 => throw .tooDeep
  | n + 1 => do
    if ← accept (.sign ";") then readLabels s n
    else if ← accept (.sign "::") then
      let name ← expectName
      expect (.sign "::")
      if s.labels.contains name then object ("label " ++ shownName name ++ " already defined")
      return name :: (← readLabels { s with labels := name :: s.labels } n)
    else return []

/-- A declaration of variables and the rest of its block. -/
def readLocal (s : Scope) : Nat → Ending → Nat → List Jump → Read (List Stmt × List Jump)
  | 0, _, _, _ => throw .tooDeep
  | n + 1, ending, entry, jumps => do
    let line ← nextLine
    let declared ← readDeclared n
    let values ← if ← accept (.sign "=") then nested (readExprs s n) else pure []
    let closed := declared.filter fun d => d.mark == some (bytes (ascii "close"))
    if closed.length > 1 then object "multiple to-be-closed variables in local list"
    let literal? := match declared, values with
      | [⟨_, some a⟩], [.literal v] => if a == bytes (ascii "const") then some v else none
      | _, _ => none
    match literal? with
    | some v =>
      let s ← declare s (declared.map (·.name) |>.headD (bytes [])) (.literal v)
      readStmts s n ending entry jumps
    | none =>
      let s ←
        declared.foldlM
        (fun s d => declare s d.name (if d.mark.isSome then .readOnly else .regular)) s
      let stmt : Stmt := .declare declared.length values
      match closed with
      | [] =>
        let (rest, jumps) ← readStmts s n ending entry jumps
        return (stmt :: rest, jumps)
      | d :: _ =>
        let after :=
          (declared.reverse.takeWhile fun x => x.mark != some (bytes (ascii "close"))).length
        let (rest, jumps) ← readStmts { s with closing := true } n ending entry jumps
        return ([stmt, .closing after d.name line (asBlock rest)], jumps)

def readDeclared : Nat → Read (List Declared)
  | 0 => throw .tooDeep
  | n + 1 => do
    let name ← expectName
    let mark ←
      if ← accept (.sign "<") then do
        let a ← expectName
        expect (.sign ">")
        if a != bytes (ascii "const") && a != bytes (ascii "close") then
          object ("unknown attribute " ++ shownName a)
        pure (some a)
      else pure none
    let d : Declared := ⟨name, mark⟩
    if ← accept (.sign ",") then return d :: (← readDeclared n) else return [d]

/-- A statement that declares nothing in the block around it. -/
def readStmt (s : Scope) : Nat → Read (List Stmt × List Jump)
  | 0 => throw .tooDeep
  | n + 1 => do
    let line ← nextLine
    match ← peek with
    | .sign ";" => advance; return ([], [])
    | .word "if" =>
      advance
      let (stmt, jumps) ← readIf s n line
      return ([stmt], jumps)
    | .word "while" =>
      advance
      let condition ← readExpr s n 0
      expect (.word "do")
      let (body, jumps) ← readBlock { s with inLoop := true } n .plain
      expectClosing (.word "end") (.word "while") line
      return ([.whileLoop condition body], jumps)
    | .word "do" =>
      advance
      let (body, jumps) ← readBlock s n .plain
      expectClosing (.word "end") (.word "do") line
      return ([.block body], jumps)
    | .word "for" =>
      advance
      let (stmt, jumps) ← readFor s n line
      return ([stmt], jumps)
    | .word "repeat" =>
      advance
      let (body, jumps) ← readBlock { s with inLoop := true } n (.condition line)
      return ([.repeatLoop body], jumps)
    | .word "function" =>
      advance
      return ([← readFunctionStmt s n line], [])
    | .word "break" =>
      advance
      if !s.inLoop then object ("break outside a loop at line " ++ toString line)
      return ([.leave], [])
    | .word "goto" =>
      advance
      let name ← expectName
      let jumps : List Jump := if s.labels.contains name then [] else [⟨name, line, s.active⟩]
      return ([.goto name], jumps)
    | _ => return ([← readExprStmt s n], [])

def readIf (s : Scope) : Nat → Nat → Read (Stmt × List Jump)
  | 0, _ => throw .tooDeep
  | n + 1, line => do
    let condition ← readExpr s n 0
    expect (.word "then")
    let (yes, jumps) ← readBlock s n .plain
    if ← accept (.word "elseif") then
      let (stmt, more) ← readIf s n line
      return (.ifElse condition yes [stmt], jumps ++ more)
    else if ← accept (.word "else") then
      let (no, more) ← readBlock s n .plain
      expectClosing (.word "end") (.word "if") line
      return (.ifElse condition yes no, jumps ++ more)
    else
      expectClosing (.word "end") (.word "if") line
      return (.ifElse condition yes [], jumps)

def readFor (s : Scope) : Nat → Nat → Read (Stmt × List Jump)
  | 0, _ => throw .tooDeep
  | n + 1, line => do
    let name ← expectName
    if ← accept (.sign "=") then
      let start ← readExpr s n 0
      expect (.sign ",")
      let limit ← readExpr s n 0
      let step ← if ← accept (.sign ",") then readExpr s n 0
        else pure (.literal (.number (.integer 1)))
      expect (.word "do")
      let inner ← hide s 3
      let inner ← declare inner name .regular
      let (body, jumps) ← readBlock { inner with inLoop := true } n .plain
      expectClosing (.word "end") (.word "for") line
      return (.countLoop start limit step body line, leaveBlock s jumps)
    else
      let names ← readNames n
      expect (.word "in")
      let values ← readExprs s n
      expect (.word "do")
      let inner ← hide s 4
      let inner ← declareAll inner (name :: names)
      let (body, jumps) ← readBlock { inner with inLoop := true, closing := true } n .plain
      expectClosing (.word "end") (.word "for") line
      return (.eachLoop (names.length + 1) values body line, leaveBlock s jumps)

def readNames : Nat → Read (List ByteArray)
  | 0 => throw .tooDeep
  | n + 1 => do
    if ← accept (.sign ",") then
      let name ← expectName
      return name :: (← readNames n)
    else return []

/-- The rest of a function statement after its first word. -/
def readFunctionStmt (s : Scope) : Nat → Nat → Read Stmt
  | 0, _ => throw .tooDeep
  | n + 1, line => do
    let name ← expectName
    let (place, isMethod) ← readFunctionName n (nameExpr s name line)
    let f ← readFunction s n isMethod
    return .assign [← target s place] [.function f]

/-- The fields after a function's first name, and whether the last makes it a method. -/
def readFunctionName : Nat → Expr → Read (Expr × Bool)
  | 0, _ => throw .tooDeep
  | n + 1, e => do
    let line ← nextLine
    if ← accept (.sign ".") then
      let name ← expectName
      readFunctionName n (.index e (.literal (.string name)) line)
    else if ← accept (.sign ":") then
      let name ← expectName
      return (.index e (.literal (.string name)) line, true)
    else return (e, false)

def readExprStmt (s : Scope) : Nat → Read Stmt
  | 0 => throw .tooDeep
  | n + 1 => do
    let e ← readSuffixed s n
    match ← peek with
    | .sign "=" | .sign "," =>
      let targets ← readTargets s n e
      let values ← readExprs s n
      return .assign targets values
    | _ =>
      match e with
      | .call _ _ _ | .method _ _ _ _ => return .expression e
      | _ => refuse "syntax error"

/-- The targets of an assignment, of which the first is read, up to the equals sign. -/
def readTargets (s : Scope) : Nat → Expr → Read (List Target)
  | 0, _ => throw .tooDeep
  | n + 1, e => do
    let t ← target s e
    if ← accept (.sign ",") then
      let next ← readSuffixed s n
      return t :: (← nested (readTargets s n next))
    else
      expect (.sign "=")
      return [t]

end

/-- A scope in which only the variable of the globals is visible. -/
def outermost : Scope :=
  { locals := [⟨environmentName, .regular, 0⟩], level := 1, active :=
    0, variadic := true, inLoop := false
    closing := false, labels := [] }

end Parser

namespace Chunk

/-- Reads a chunk as a function of any number of arguments, whose one outer
variable holds the globals.  The limits of the code generator on the registers,
outer variables and constants of a function are left out, and the nesting of the
text is counted apart from the calls that are running. -/
def read (source : ByteArray) : Except ChunkError Function :=
  if source.data[0]? == some 27 then .error .binary
  else do
    let tokens ← Lexer.run source
    let (body, _) ← (main (16 * tokens.length + 16)).run ⟨tokens, 1, 0⟩
    return .mk 0 true body
where
  /-- The statements of a chunk, which fill its text. -/
  main (budget : Nat) : Parser.Read (List Stmt) := do
    let body ← Parser.readBody Parser.outermost budget
    if (← Parser.peek) != .finish then Parser.refuse "<eof> expected"
    return body

/-- How many bytes the shown name of a chunk takes at most. -/
def nameLimit : Nat := 60

/-- The name of a chunk as messages show it.  A name that starts with `=` is
shown as it is, one that starts with `@` by its end, and all others as the
beginning of a source text. -/
def shownName (name : ByteArray) : ByteArray :=
  match codes name with
  | 61 :: rest => bytes (rest.take (nameLimit - 1))
  | 64 :: rest =>
    if rest.length < nameLimit then bytes rest
    else bytes (ascii "..." ++ rest.drop (rest.length - (nameLimit - 4)))
  | text =>
    let room := nameLimit - 15
    let line := text.takeWhile (· != 10)
    if text.length < room && line.length = text.length then
      bytes (ascii "[string \"" ++ text ++ ascii "\"]")
    else bytes (ascii "[string \"" ++ line.take room ++ ascii "...\"]")

end Chunk

namespace ChunkError

/-- The message about a chunk that is shown under a name. -/
def message (name : ByteArray) : ChunkError → ByteArray
  | .malformed line reason near =>
    name ++ bytes (ascii ":" ++ Ascii.numeral 10 line ++ ascii (": " ++ reason)) ++
      match near with
      | some token => bytes (ascii " near ") ++ token
      | none => bytes []
  | .tooDeep => bytes (ascii "C stack overflow")
  | .binary => bytes (ascii "attempt to load a binary chunk (mode is 't')")

end ChunkError
end SealedLua.Lua
