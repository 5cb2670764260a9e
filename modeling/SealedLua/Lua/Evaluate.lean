import SealedLua.Lua.Operations

/-!
# Evaluation

Expressions and statements as actions, by recursion on the program.  A loop, a
block with labels and a scope with a value to close are handed over as tasks;
`Task.step` does one round of a task.

An operand that is a variable of the running function is read when the
operation happens, which is after the operands that follow it.  A call among
those may have changed it.
-/

namespace SealedLua.Lua

open SealedLua.Lua.Action

namespace Env

def read (env : Env) (v : Variable) : Action Value := gets (·.cell (env.cell v))

def declare (env : Env) : List Value → Action Env
  | [] => pure env
  | v :: rest => do
    let cell ← newCell v
    (env.push cell).declare rest

end Env

/-- The values of two operands, of which the first is written as `e`. -/
def operands (env : Env) (e : Expr) (left right : Action Value) : Action (Value × Value) :=
  match e.ownVariable? with
  | some v => do
    let y ← right
    let x ← env.read v
    return (x, y)
  | none => do
    let x ← left
    let y ← right
    return (x, y)

/-- A place that an assignment stores into. -/
inductive Reference where
  | cell (id : CellId)
  | entry (object key : Value) (line : Nat) (naming : Option Naming)

/-- The value of a part of an assignment's target, read at once or, if it is a
variable that the statement does not assign, when the store happens. -/
def deferred (env : Env) (assigned : List Nat) (e : Expr) (value : Action Value) :
    Action (Action Value) :=
  match e.ownVariable? with
  | some v =>
    if assigned.contains v.index then do
      let x ← env.read v
      return pure x
    else return env.read v
  | none => do
    let x ← value
    return pure x

namespace Target

def assigned (targets : List Target) : List Nat :=
  targets.filterMap fun
    | .variable v => some v.index
    | .entry _ _ _ => none

end Target

def assignAll (env : Env) (places : List (Action Reference × Value)) : Action Unit :=
  places.reverse.forM fun (place, value) => do
    match ← place with
    | .cell id => modify (·.setCell id value)
    | .entry object key line naming => setIndex (some (env.position line)) object key value naming

/-- How many items of a table constructor are stored at a time. -/
def flushSize : Nat := 50

/-- Stores list items of a table constructor after the first `stored` ones. -/
def storeItems (id : TableId) (stored : Nat) (items : List Value) : Action Unit :=
  modify fun h =>
    let last := stored + items.length
    let fit := fun (t : Table) => if t.items.size < last then t.resized last t.room else t
    let h := { h with tables := h.tables.modify id fit }
    (items.foldl (fun (h, n) v => (h.set id (.ofNat n) v, n + 1)) (h, stored + 1)).1

def callSite (env : Env) (callee : Expr) (line : Nat) : Site :=
  ⟨some (env.position line), callee.naming?⟩

def methodSite (env : Env) (name : ByteArray) (line : Nat) : Site :=
  ⟨some (env.position line), some ⟨.method, name⟩⟩

mutual

/-- The value of an expression; of several, the first. -/
def evalExpr (env : Env) : Expr → Action Value
  | .literal v => pure (Value.ofLiteral v)
  | .varargs => pure (env.varargs.headD .nil)
  | .variable v => env.read v
  | .index object key line => do
    let (x, k) ← operands env object (evalExpr env object) (evalExpr env key)
    index (some (env.position line)) x k object.naming?
  | .call callee args line => do
    let f ← evalExpr env callee
    let vs ← evalList env args
    call₁ f vs (callSite env callee line)
  | .method object name args line => do
    let x ← evalExpr env object
    let f ← index (some (env.position line)) x (.string name) object.naming?
    let vs ← evalList env args
    call₁ f (x :: vs) (methodSite env name line)
  | .function f => modifyGet fun h =>
    let (id, h) := h.newClosure ⟨f, env.scope, env.chunk⟩
    (.closure id, h)
  | .table fields items pairs => do
    let id ← modifyGet (·.newTable (Table.empty.resized items pairs))
    evalFields env id fields [] 0
    return .table id
  | .first e => evalExpr env e
  | .and left right => do
    let x ← evalExpr env left
    if x.truthy then evalExpr env right else pure x
  | .or left right => do
    let x ← evalExpr env left
    if x.truthy then pure x else evalExpr env right
  | .unary op e line => do
    let x ← evalExpr env e
    match op with
    | .negate => negate (some (env.position line)) x e.naming?
    | .complement => complement (some (env.position line)) x e.naming?
    | .length => length (some (env.position line)) x e.naming?
    | .not => pure (.boolean !x.truthy)
  | .arith op left right line => do
    let (x, y) ← operands env left (evalExpr env left) (evalExpr env right)
    arith (some (env.position line)) op x y left.naming? right.naming?
  | .concat left right line => do
    let x ← evalExpr env left
    let y ← evalExpr env right
    concat (some (env.position line)) x y left.naming? right.naming?
  | .compare op left right line => do
    let (x, y) ← operands env left (evalExpr env left) (evalExpr env right)
    return .boolean (← compare (some (env.position line)) op x y)

def evalMulti (env : Env) : Expr → Action (List Value)
  | .varargs => pure env.varargs
  | .call callee args line => do
    let f ← evalExpr env callee
    let vs ← evalList env args
    call f vs (callSite env callee line)
  | .method object name args line => do
    let x ← evalExpr env object
    let f ← index (some (env.position line)) x (.string name) object.naming?
    let vs ← evalList env args
    call f (x :: vs) (methodSite env name line)
  | e => return [← evalExpr env e]

/-- The values of a list of expressions: one of each, and all of the last. -/
def evalList (env : Env) : List Expr → Action (List Value)
  | [] => pure []
  | [e] => evalMulti env e
  | e :: rest => do
    let v ← evalExpr env e
    let vs ← evalList env rest
    return v :: vs

/-- Fills a new table.  List items wait in `pending`, the last first, until
there are `flushSize` of them or the constructor ends. -/
def evalFields (env : Env) (id : TableId) : List Field → List Value → Nat → Action Unit
  | [], pending, stored => storeItems id stored pending.reverse
  | [.item e], pending, stored => do
    let (pending, stored) ← flush id pending stored
    let vs ← evalMulti env e
    storeItems id stored (pending.reverse ++ vs)
  | .item e :: rest, pending, stored => do
    let (pending, stored) ← flush id pending stored
    let v ← evalExpr env e
    evalFields env id rest (v :: pending) stored
  | .pair key value line :: rest, pending, stored => do
    let (pending, stored) ← flush id pending stored
    let (k, v) ← operands env key (evalExpr env key) (evalExpr env value)
    store (some (env.position line)) id k v
    evalFields env id rest pending stored

where
  flush (id : TableId) (pending : List Value) (stored : Nat) : Action (List Value × Nat) :=
    if pending.length = flushSize then do
      storeItems id stored pending.reverse
      return ([], stored + flushSize)
    else pure (pending, stored)

end

mutual

def evalTargets (env : Env) (assigned : List Nat) : List Target → Action (List (Action Reference))
  | [] => pure []
  | .variable v :: rest => do
    let places ← evalTargets env assigned rest
    return pure (.cell (env.cell v)) :: places
  | .entry object key line :: rest => do
    let x ← deferred env assigned object (evalExpr env object)
    let k ← deferred env assigned key (evalExpr env key)
    let places ← evalTargets env assigned rest
    let place : Action Reference := do
      let x ← x
      let k ← k
      return .entry x k line object.naming?
    return place :: places

end

/-- What a numeric loop does, from its three numbers. -/
inductive CountPlan where
  | skip
  | count (start : Int64) (more : Nat) (step : Int64)
  | scale (start limit step : Double)

/-- The bound of a loop over integers: the limit itself, or the last integer on
the way to it.  `none` means that no integer is within the limit. -/
def countLimit (start step : Int64) (limit : Value) : Except Unit (Option Int64) :=
  let within := fun (bound : Int64) => if 0 < step then (if start ≤ bound then some bound else none)
    else if bound ≤ start then some bound else none
  match limit.coerced? with
  | some (.integer n) => .ok (within n)
  | some (.double x) =>
    if x.isNaN then .ok none
    else
      let rounded : Option Int :=
        if x.isFinite then some (if step < 0 then x.ceilInt else x.floorInt) else none
      match rounded with
      | some n =>
        if -(2 ^ 63) ≤ n && n < 2 ^ 63 then .ok (within (Int64.ofInt n)) else .ok (clipped x within)
      | none => .ok (clipped x within)
  | none => .error ()
where
  clipped (x : Double) (within : Int64 → Option Int64) : Option Int64 :=
    if x.negative then (if 0 < step then none else within Int64.minValue)
    else if step < 0 then none else within Int64.maxValue

/-- Reads the three numbers of a loop.  If the first and the last are integers
the loop counts integers, otherwise it adds doubles. -/
def countPlan (here : Option Position) (start limit step : Value) : Action CountPlan :=
  let bad := fun (what : String) (v : Value) => (do
    let h ← get
    fail here (bytes (ascii ("bad 'for' " ++ what ++ " (number expected, got ")) ++
      h.typeName v ++ bytes (ascii ")"))
      : Action CountPlan)
  match start, step with
  | .integer a, .integer s =>
    if s = 0 then fail here (bytes (ascii "'for' step is zero"))
    else
      match countLimit a s limit with
      | .error _ => bad "limit" limit
      | .ok none => pure .skip
      | .ok (some bound) =>
        let distance := (bound.toInt - a.toInt).natAbs
        pure (.count a (distance / s.toInt.natAbs) s)
  | _, _ =>
    match limit.coercedDouble?, step.coercedDouble?, start.coercedDouble? with
    | none, _, _ => bad "limit" limit
    | _, none, _ => bad "step" step
    | _, _, none => bad "initial value" start
    | some l, some s, some a =>
      if s.isZero then fail here (bytes (ascii "'for' step is zero"))
      else if if (Double.zero false).lt s then l.lt a else a.lt l then pure .skip
      else pure (.scale a l s)

/-- Whether a value can be closed at the end of a scope; `nil` and `false` need no closing. -/
def checkClosable (here : Option Position) (name : ByteArray) (v : Value) : Action Bool :=
  if !v.truthy then pure false
  else do
    let h ← get
    if (h.metamethod v (eventKey "close")).isNil then
      fail here (bytes (ascii "variable '") ++ name ++ bytes (ascii "' got a non-closable value"))
    else pure true

mutual

def exec (env : Env) : Stmt → Action Flow
  | .declare count values => do
    let vs ← evalList env values
    return .next (← env.declare (adjust count vs))
  | .declareFunction f => do
    let cell ← newCell .nil
    let env := env.push cell
    let v ← evalExpr env (.function f)
    modify (·.setCell cell v)
    return .next env
  | .closing index name line rest => do
    let v ← gets (·.cell (env.scope[index]?.getD 0))
    if ← checkClosable (some (env.position line)) name v then run (.closing v line rest env)
    else execList env rest
  | .assign targets values => do
    let places ← evalTargets env (Target.assigned targets) targets
    let vs ← evalList env values
    assignAll env (places.zip (adjust places.length vs))
    return .next env
  | .expression e => do
    let _ ← evalMulti env e
    return .next env
  | .block body => do
    match ← execList env body with
    | .next _ => return .next env
    | flow => return flow
  | .labelled body => run (.labelled body body env)
  | .label _ _ => return .next env
  | .goto name => return .goto name env
  | .leave => return .leave
  | .ifElse condition yes no => do
    let v ← evalExpr env condition
    match ← if v.truthy then execList env yes else execList env no with
    | .next _ => return .next env
    | flow => return flow
  | .whileLoop condition body => run (.whileLoop condition body env)
  | .repeatLoop body => run (.repeatLoop body env)
  | .untilTrue condition => do
    let v ← evalExpr env condition
    return if v.truthy then .leave else .next env
  | .countLoop start limit step body line => do
    let a ← evalExpr env start
    let l ← evalExpr env limit
    let s ← evalExpr env step
    match ← countPlan (some (env.position line)) a l s with
    | .skip => return .next env
    | .count a more s => run (.countLoop a more s body env)
    | .scale a l s => run (.scaleLoop a l s body env)
  | .eachLoop count values body line => do
    let vs ← evalList env values
    match adjust 4 vs with
    | [f, s, c, closing] =>
      if ← checkClosable (some (env.position line)) (bytes (ascii "(for state)")) closing then
        run (.closingLoop closing f s c count body line env)
      else run (.eachLoop f s c count body line env)
    | _ => return .next env
  | .ret values => return .ret (← evalList env values)
  | .tailCall callee args line => do
    let f ← evalExpr env callee
    let vs ← evalList env args
    return .tail ⟨f, vs, callSite env callee line⟩
  | .tailMethod object name args line => do
    let x ← evalExpr env object
    let f ← index (some (env.position line)) x (.string name) object.naming?
    let vs ← evalList env args
    return .tail ⟨f, x :: vs, methodSite env name line⟩

/-- Runs statements in order, each in the scope that the ones before it made. -/
def execList (env : Env) : List Stmt → Action Flow
  | [] => return .next env
  | s :: rest => do
    match ← exec env s with
    | .next env => execList env rest
    | flow => return flow

end

/-- The statements after a label, and the number of variables in scope there. -/
def afterLabel (name : ByteArray) : List Stmt → Option (Nat × List Stmt)
  | [] => none
  | .label l depth :: rest => if l == name then some (depth, rest) else afterLabel name rest
  | _ :: rest => afterLabel name rest

namespace Task

/-- How a loop goes on after its body: with another round, or past the loop. -/
def continueWith (next : Task) (env : Env) : Flow → Flow
  | .next _ => .again next
  | .leave => .next env
  | flow => flow

def step : Task → Action Flow
  | .whileLoop condition body env => do
    let v ← evalExpr env condition
    if v.truthy then
      return continueWith (.whileLoop condition body env) env (← execList env body)
    else return .next env
  | .repeatLoop body env => return continueWith (.repeatLoop body env) env (← execList env body)
  | .countLoop n more step body env => do
    let inner ← env.declare [.integer n]
    match ← execList inner body with
    | .next _ =>
      match more with
      | 0 => return .next env
      | more + 1 => return .again (.countLoop (n + step) more step body env)
    | .leave => return .next env
    | flow => return flow
  | .scaleLoop x limit step body env => do
    let inner ← env.declare [.double x]
    match ← execList inner body with
    | .next _ =>
      let x := x.add step
      let more := if (Double.zero false).lt step then x.le limit else limit.le x
      return if more then .again (.scaleLoop x limit step body env) else .next env
    | .leave => return .next env
    | flow => return flow
  | .eachLoop f s control count body line env => do
    let site : Site :=
      ⟨some (env.position line), some ⟨.iterator, bytes (ascii NameKind.iterator.word)⟩⟩
    let vs := adjust count (← call f [s, control] site)
    let first := vs.headD .nil
    if first.isNil then return .next env
    else
      let inner ← env.declare vs
      return continueWith (.eachLoop f s first count body line env) env (← execList inner body)
  | .labelled all rest env => do
    match ← execList env rest with
    | .goto name inner =>
      match afterLabel name all with
      | some (depth, rest) => return .again (.labelled all rest (inner.restore depth))
      | none => return .goto name inner
    | flow => return flow
  | .closing _ _ rest env => execList env rest
  | .closingLoop _ f s control count body line env =>
    run (.eachLoop f s control count body line env)

/-- The value that has to be closed when a task ends, and where. -/
def closing? : Task → Option (Value × Position)
  | .closing v line _ env => some (v, env.position line)
  | .closingLoop v _ _ _ _ _ line env => some (v, env.position line)
  | _ => none

end Task

namespace Closure

/-- The body of a function with its parameters bound to arguments. -/
def enter (c : Closure) (args : List Value) : Action Flow := do
  let params := c.function.params
  let env : Env := ⟨c.scope, if c.function.variadic then args.drop params else [], c.chunk⟩
  let env ← env.declare (adjust params args)
  execList env c.function.body

end Closure
end SealedLua.Lua
