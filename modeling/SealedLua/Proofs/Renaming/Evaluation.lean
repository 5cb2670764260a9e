import SealedLua.Lua.Evaluate
import SealedLua.Proofs.Renaming.Operations

/-!
# Evaluation on corresponding heaps

A program that runs in corresponding scopes on corresponding heaps does the same
in both.  The proofs follow the recursion of the evaluator.
-/

namespace SealedLua.Lua.Renaming

variable {ρ : Renaming} {α β : Type} {same : α → α → Prop}

theorem scope_env (env : Env) (index : Nat) :
    (ρ.env env).scope[index]?.getD 0 = ρ.cell (env.scope[index]?.getD 0) := by
  rw [env_scope, List.getElem?_map]
  cases env.scope[index]? with
  | none => exact ρ.firstCell.symm
  | some id => rfl

@[simp] theorem cell_env (env : Env) (v : Variable) : (ρ.env env).cell v = ρ.cell (env.cell v) :=
  scope_env env v.index

theorem restore_env (env : Env) (depth : Nat) :
    (ρ.env env).restore depth = ρ.env (env.restore depth) := by
  simp only [Env.restore, env_scope, List.length_map, ← List.map_drop]
  rfl

@[simp] theorem countLimit_value (start step : Int64) (limit : Value) :
    countLimit start step (ρ.value limit) = countLimit start step limit := by
  simp only [countLimit, coerced?_value]

namespace SameAction

theorem forM {R : β → β → Prop} {l l' : List β} {f f' : β → Action Unit}
    (related : List.Forall₂ R l l') (each : ∀ a b, R a b → ρ.SameAction Eq (f a) (f' b)) :
    ρ.SameAction Eq (l.forM f) (l'.forM f') := by
  induction related with
  | nil => exact pure rfl
  | cons head _ ih => exact (each _ _ head).bindEq fun _ => ih

theorem read (env : Env) (v : Variable) :
    ρ.SameAction (Along ρ.value) (env.read v) ((ρ.env env).read v) := by
  apply gets
  intro g h s
  rw [cell_env, s.cell]

theorem declare (env : Env) (vs : List Value) :
    ρ.SameAction (Along ρ.env) (env.declare vs) ((ρ.env env).declare (ρ.values vs)) := by
  induction vs generalizing env with
  | nil => exact pure rfl
  | cons v vs ih => exact (newCell v).bindAlong fun id => ih (env.push id)

theorem operands (env : Env) (e : Expr) {left left' right right' : Action Value}
    (first : ρ.SameAction (Along ρ.value) left left')
    (second : ρ.SameAction (Along ρ.value) right right') :
    ρ.SameAction (Along ρ.entry) (Lua.operands env e left right)
      (Lua.operands (ρ.env env) e left' right') := by
  unfold Lua.operands
  split
  · next v _ =>
    apply second.bindAlong
    intro y
    exact (read env v).bindAlong fun x => pure rfl
  · apply first.bindAlong
    intro x
    exact second.bindAlong fun y => pure rfl

theorem filledHeap (id : TableId) (items : List Value) (n : Nat) {g h : Heap} (s : ρ.SameHeap g h) :
    ρ.SameHeap (items.foldl (fun (h, n) v => (h.set id (.ofNat n) v, n + 1)) (g, n)).1
      ((ρ.values items).foldl (fun (h, n) v => (h.set (ρ.table id) (.ofNat n) v, n + 1))
        (h, n)).1 := by
  induction items generalizing n g h with
  | nil => exact s
  | cons v items ih => exact ih (n + 1) (s.set id (.ofNat n) v)

theorem storeItems (id : TableId) (stored : Nat) (items : List Value) :
    ρ.SameAction Eq (Lua.storeItems id stored items)
      (Lua.storeItems (ρ.table id) stored (ρ.values items)) := by
  apply modify
  intro g h s
  rw [List.length_map]
  apply filledHeap
  apply s.modifyTable
  intro t u same
  rw [same.size_items, same.room]
  split
  · exact same.resized _ _
  · exact same

theorem flush (id : TableId) (pending : List Value) (stored : Nat) :
    ρ.SameAction (Along fun (pending, stored) => (ρ.values pending, stored))
      (evalFields.flush id pending stored)
      (evalFields.flush (ρ.table id) (ρ.values pending) stored) := by
  unfold evalFields.flush
  rw [List.length_map, ← List.map_reverse]
  split
  · exact (storeItems id stored pending.reverse).bindEq fun _ => pure rfl
  · exact pure rfl

mutual

theorem evalExpr (env : Env) (e : Expr) :
    ρ.SameAction (Along ρ.value) (Lua.evalExpr env e) (Lua.evalExpr (ρ.env env) e) := by
  cases e with
  | literal v =>
    simp only [Lua.evalExpr]
    exact pure (ρ.value_ofLiteral v).symm
  | varargs =>
    simp only [Lua.evalExpr]
    exact pure (ρ.headD_values env.varargs)
  | «variable» v =>
    simp only [Lua.evalExpr]
    exact read env v
  | index object key line =>
    simp only [Lua.evalExpr]
    apply (operands env object (evalExpr env object) (evalExpr env key)).bindAlong
    intro (x, k)
    exact index _ x k _
  | call callee args line =>
    simp only [Lua.evalExpr]
    apply (evalExpr env callee).bindAlong
    intro f
    apply (evalList env args).bindAlong
    intro vs
    exact call₁ f vs _
  | method object name args line =>
    simp only [Lua.evalExpr]
    apply (evalExpr env object).bindAlong
    intro x
    apply (index _ x (.string name) _).bindAlong
    intro f
    apply (evalList env args).bindAlong
    intro vs
    exact call₁ f (x :: vs) _
  | function f =>
    simp only [Lua.evalExpr]
    apply modifyGet
    intro g h s
    obtain ⟨place, s'⟩ := s.newClosure ⟨f, env.scope, env.chunk⟩
    exact ⟨congrArg Value.closure place, s'⟩
  | table fields items pairs =>
    simp only [Lua.evalExpr]
    have made : ρ.SameAction (Along ρ.table)
        (Action.modifyGet (·.newTable (Table.empty.resized items pairs)))
        (Action.modifyGet (·.newTable (Table.empty.resized items pairs))) :=
      modifyGet fun _ _ s => s.newTable (.resized .empty items pairs)
    apply made.bindAlong
    intro id
    exact (evalFields env id fields [] 0).bindEq fun _ => pure rfl
  | first e =>
    simp only [Lua.evalExpr]
    exact evalExpr env e
  | and left right =>
    simp only [Lua.evalExpr]
    apply (evalExpr env left).bindAlong
    intro x
    rw [truthy_value]
    split
    · exact evalExpr env right
    · exact pure rfl
  | or left right =>
    simp only [Lua.evalExpr]
    apply (evalExpr env left).bindAlong
    intro x
    rw [truthy_value]
    split
    · exact pure rfl
    · exact evalExpr env right
  | unary op e line =>
    simp only [Lua.evalExpr]
    apply (evalExpr env e).bindAlong
    intro x
    cases op with
    | negate => exact negate _ x _
    | complement => exact complement _ x _
    | length => exact length _ x _
    | not => exact pure (by rw [truthy_value]; rfl)
  | arith op left right line =>
    simp only [Lua.evalExpr]
    apply (operands env left (evalExpr env left) (evalExpr env right)).bindAlong
    intro (x, y)
    exact arith _ op x y _ _
  | concat left right line =>
    simp only [Lua.evalExpr]
    apply (evalExpr env left).bindAlong
    intro x
    apply (evalExpr env right).bindAlong
    intro y
    exact concat _ x y _ _
  | compare op left right line =>
    simp only [Lua.evalExpr]
    apply (operands env left (evalExpr env left) (evalExpr env right)).bindAlong
    intro (x, y)
    exact (compare _ op x y).bindEq fun _ => pure rfl

theorem evalMulti (env : Env) (e : Expr) :
    ρ.SameAction (Along ρ.values) (Lua.evalMulti env e) (Lua.evalMulti (ρ.env env) e) := by
  cases e with
  | varargs =>
    simp only [Lua.evalMulti]
    exact pure rfl
  | call callee args line =>
    simp only [Lua.evalMulti]
    apply (evalExpr env callee).bindAlong
    intro f
    apply (evalList env args).bindAlong
    intro vs
    exact call f vs _
  | method object name args line =>
    simp only [Lua.evalMulti]
    apply (evalExpr env object).bindAlong
    intro x
    apply (index _ x (.string name) _).bindAlong
    intro f
    apply (evalList env args).bindAlong
    intro vs
    exact call f (x :: vs) _
  | _ =>
    simp only [Lua.evalMulti]
    exact (evalExpr env _).bindAlong fun _ => pure rfl

theorem evalList (env : Env) (es : List Expr) :
    ρ.SameAction (Along ρ.values) (Lua.evalList env es) (Lua.evalList (ρ.env env) es) := by
  match es with
  | [] =>
    simp only [Lua.evalList]
    exact pure rfl
  | [e] =>
    simp only [Lua.evalList]
    exact evalMulti env e
  | e :: e' :: rest =>
    simp only [Lua.evalList]
    apply (evalExpr env e).bindAlong
    intro v
    exact (evalList env (e' :: rest)).bindAlong fun _ => pure rfl

theorem evalFields (env : Env) (id : TableId) (fields : List Field)
    (pending : List Value) (stored : Nat) :
    ρ.SameAction Eq (Lua.evalFields env id fields pending stored)
      (Lua.evalFields (ρ.env env) (ρ.table id) fields (ρ.values pending) stored) := by
  match fields with
  | [] =>
    simp only [Lua.evalFields, ← List.map_reverse]
    exact storeItems id stored pending.reverse
  | [.item e] =>
    simp only [Lua.evalFields]
    apply (flush id pending stored).bindAlong
    intro (pending, stored)
    apply (evalMulti env e).bindAlong
    intro vs
    simp only [← List.map_reverse, ← List.map_append]
    exact storeItems id stored (pending.reverse ++ vs)
  | .item e :: next :: rest =>
    simp only [Lua.evalFields]
    apply (flush id pending stored).bindAlong
    intro (pending, stored)
    apply (evalExpr env e).bindAlong
    intro v
    exact evalFields env id (next :: rest) (v :: pending) stored
  | .pair key value line :: rest =>
    simp only [Lua.evalFields]
    apply (flush id pending stored).bindAlong
    intro (pending, stored)
    apply (operands env key (evalExpr env key) (evalExpr env value)).bindAlong
    intro (k, v)
    exact (store _ id k v).bindEq fun _ => evalFields env id rest pending stored

end

theorem deferred (env : Env) (assigned : List Nat) (e : Expr) {value value' : Action Value}
    (h : ρ.SameAction (Along ρ.value) value value') :
    ρ.SameAction (ρ.SameAction (Along ρ.value)) (Lua.deferred env assigned e value)
      (Lua.deferred (ρ.env env) assigned e value') := by
  unfold Lua.deferred
  split
  · next v _ =>
    split
    · exact (read env v).bindAlong fun x => pure (pure rfl)
    · exact pure (read env v)
  · exact h.bindAlong fun x => pure (pure rfl)

end SameAction

def reference : Reference → Reference
  | .cell id => .cell (ρ.cell id)
  | .entry object key line naming => .entry (ρ.value object) (ρ.value key) line naming

namespace SameAction

theorem evalTargets (env : Env) (assigned : List Nat) (targets : List Target) :
    ρ.SameAction (List.Forall₂ (ρ.SameAction (Along ρ.reference)))
      (Lua.evalTargets env assigned targets)
      (Lua.evalTargets (ρ.env env) assigned targets) := by
  induction targets with
  | nil =>
    simp only [Lua.evalTargets]
    exact pure .nil
  | cons target rest ih =>
    cases target with
    | «variable» v =>
      simp only [Lua.evalTargets, cell_env]
      apply ih.bind
      intro places places' h
      exact pure (.cons (pure rfl) h)
    | entry object key line =>
      simp only [Lua.evalTargets]
      apply (deferred env assigned object (evalExpr env object)).bind
      intro x x' hx
      apply (deferred env assigned key (evalExpr env key)).bind
      intro k k' hk
      apply ih.bind
      intro places places' h
      refine pure (.cons ?_ h)
      apply hx.bindAlong
      intro x
      exact hk.bindAlong fun k => pure rfl

theorem assignAll (env : Env) {places places' : List (Action Reference)} (vs : List Value)
    (related : List.Forall₂ (ρ.SameAction (Along ρ.reference)) places places') :
    ρ.SameAction Eq (Lua.assignAll env (places.zip vs))
      (Lua.assignAll (ρ.env env) (places'.zip (ρ.values vs))) := by
  have zipped : List.Forall₂ (fun p q => ρ.SameAction (Along ρ.reference) p.1 q.1 ∧
      q.2 = ρ.value p.2)
      (places.zip vs) (places'.zip (ρ.values vs)) := by
    induction related generalizing vs with
    | nil => exact .nil
    | cons head _ ih =>
      cases vs with
      | nil => exact .nil
      | cons v vs => exact .cons ⟨head, rfl⟩ (ih vs)
  apply forM (List.rel_reverse zipped)
  rintro ⟨place, v⟩ ⟨place', _⟩ ⟨hplace, rfl⟩
  apply hplace.bindAlong
  intro r
  cases r with
  | cell id => exact modify fun _ _ s => s.setCell id v
  | entry object key line naming => exact setIndex _ object key v naming

theorem countPlan (here : Option Position) (start limit step : Value) :
    ρ.SameAction Eq (Lua.countPlan here start limit step)
      (Lua.countPlan here (ρ.value start) (ρ.value limit) (ρ.value step)) := by
  have bad : ∀ (what : String) (v : Value), ρ.SameAction Eq (α := CountPlan) (do
      let h ← Action.get
      Action.fail here (bytes (ascii ("bad 'for' " ++ what ++ " (number expected, got ")) ++
        h.typeName v ++
        bytes (ascii ")"))) (do
      let h ← Action.get
      Action.fail here (bytes (ascii ("bad 'for' " ++ what ++ " (number expected, got ")) ++
        h.typeName (ρ.value v) ++
        bytes (ascii ")"))) := by
    intro what v
    apply bindGet
    intro g h s
    rw [s.typeName]
    exact fail _ _
  unfold Lua.countPlan
  dsimp only
  split
  · next a s =>
    simp only [value_integer, countLimit_value]
    split
    · exact fail _ _
    · split
      · exact bad _ _
      · exact pure rfl
      · exact pure rfl
  · next notIntegers =>
    have notIntegers' : ∀ a s, ρ.value start = .integer a → ρ.value step = .integer s → False :=
      fun a s ha hs => notIntegers a s (value_eq_integer ha) (value_eq_integer hs)
    simp only [coercedDouble?_value]
    split
    · exact bad _ _
    · exact bad _ _
    · exact bad _ _
    · split
      · exact fail _ _
      · split <;> split <;> exact pure rfl

theorem checkClosable (here : Option Position) (name : ByteArray) (v : Value) :
    ρ.SameAction Eq (Lua.checkClosable here name v) (Lua.checkClosable here name (ρ.value v)) := by
  unfold Lua.checkClosable
  rw [truthy_value]
  split
  · exact pure rfl
  · apply bindGet
    intro g h s
    rw [s.metamethod, isNil_value]
    split
    · exact fail _ _
    · exact pure rfl

/-- A list of statements goes on after the first alike, whatever the flow. -/
theorem afterFlow {f f' : Env → Action Flow} (flow : Flow)
    (next : ∀ env, ρ.SameAction (Along ρ.flow) (f env) (f' (ρ.env env))) :
    ρ.SameAction (Along ρ.flow) (match flow with
      | .next env => f env
      | flow => Pure.pure flow)
      (match ρ.flow flow with
      | .next env => f' env
      | flow => Pure.pure flow) := by
  cases flow with
  | next env => exact next env
  | _ => exact pure rfl

mutual

theorem exec (env : Env) (s : Stmt) :
    ρ.SameAction (Along ρ.flow) (Lua.exec env s) (Lua.exec (ρ.env env) s) := by
  cases s with
  | declare count values =>
    simp only [Lua.exec]
    apply (evalList env values).bindAlong
    intro vs
    rw [adjust_values]
    exact (declare env _).bindAlong fun _ => pure rfl
  | declareFunction f =>
    simp only [Lua.exec]
    apply (newCell .nil).bindAlong
    intro id
    apply (evalExpr (env.push id) (.function f)).bindAlong
    intro v
    exact (modify fun _ _ s => s.setCell id v).bindEq fun _ => pure rfl
  | closing index name line rest =>
    simp only [Lua.exec]
    have closed : ρ.SameAction (Along ρ.value) (Action.gets (·.cell (env.scope[index]?.getD 0)))
        (Action.gets (·.cell ((ρ.env env).scope[index]?.getD 0))) := by
      apply gets
      intro g h s
      rw [scope_env, s.cell]
    apply closed.bindAlong
    intro v
    apply (checkClosable _ name v).bindEq
    intro closable
    split
    · exact run (.closing v line rest env)
    · exact execList env rest
  | assign targets values =>
    simp only [Lua.exec]
    apply (evalTargets env _ targets).bind
    intro places places' related
    apply (evalList env values).bindAlong
    intro vs
    rw [← related.length_eq, adjust_values]
    exact (assignAll env _ related).bindEq fun _ => pure rfl
  | expression e =>
    simp only [Lua.exec]
    exact (evalMulti env e).bindAlong fun _ => pure rfl
  | block body =>
    simp only [Lua.exec]
    apply (execList env body).bindAlong
    intro flow
    exact afterFlow flow fun _ => pure rfl
  | labelled body =>
    simp only [Lua.exec]
    exact run (.labelled body body env)
  | label name depth =>
    simp only [Lua.exec]
    exact pure rfl
  | goto name =>
    simp only [Lua.exec]
    exact pure rfl
  | leave =>
    simp only [Lua.exec]
    exact pure rfl
  | ifElse condition yes no =>
    simp only [Lua.exec]
    apply (evalExpr env condition).bindAlong
    intro v
    rw [truthy_value]
    split
    · exact (execList env yes).bindAlong fun flow => afterFlow flow fun _ => pure rfl
    · exact (execList env no).bindAlong fun flow => afterFlow flow fun _ => pure rfl
  | whileLoop condition body =>
    simp only [Lua.exec]
    exact run (.whileLoop condition body env)
  | repeatLoop body =>
    simp only [Lua.exec]
    exact run (.repeatLoop body env)
  | untilTrue condition =>
    simp only [Lua.exec]
    apply (evalExpr env condition).bindAlong
    intro v
    rw [truthy_value]
    split
    · exact pure rfl
    · exact pure rfl
  | countLoop start limit step body line =>
    simp only [Lua.exec]
    apply (evalExpr env start).bindAlong
    intro a
    apply (evalExpr env limit).bindAlong
    intro l
    apply (evalExpr env step).bindAlong
    intro s
    apply (countPlan _ a l s).bindEq
    intro plan
    cases plan with
    | skip => exact pure rfl
    | count a more s => exact run (.countLoop a more s body env)
    | scale a l s => exact run (.scaleLoop a l s body env)
  | eachLoop count values body line =>
    simp only [Lua.exec]
    apply (evalList env values).bindAlong
    intro vs
    rw [adjust_values]
    match adjust 4 vs with
    | [f, s, c, closing] =>
      apply (checkClosable _ _ closing).bindEq
      intro closable
      split
      · exact run (.closingLoop closing f s c count body line env)
      · exact run (.eachLoop f s c count body line env)
    | [] | [_] | [_, _] | [_, _, _] | _ :: _ :: _ :: _ :: _ :: _ => exact pure rfl
  | ret values =>
    simp only [Lua.exec]
    exact (evalList env values).bindAlong fun _ => pure rfl
  | tailCall callee args line =>
    simp only [Lua.exec]
    apply (evalExpr env callee).bindAlong
    intro f
    exact (evalList env args).bindAlong fun _ => pure rfl
  | tailMethod object name args line =>
    simp only [Lua.exec]
    apply (evalExpr env object).bindAlong
    intro x
    apply (index _ x (.string name) _).bindAlong
    intro f
    exact (evalList env args).bindAlong fun _ => pure rfl

theorem execList (env : Env) (stmts : List Stmt) :
    ρ.SameAction (Along ρ.flow) (Lua.execList env stmts) (Lua.execList (ρ.env env) stmts) := by
  match stmts with
  | [] =>
    simp only [Lua.execList]
    exact pure rfl
  | s :: rest =>
    simp only [Lua.execList]
    apply (exec env s).bindAlong
    intro flow
    exact afterFlow flow fun env => execList env rest

end

theorem enter (c : Closure) (args : List Value) :
    ρ.SameAction (Along ρ.flow) (c.enter args) ((ρ.closureOf c).enter (ρ.values args)) := by
  have entered :
    (⟨c.scope.map ρ.cell, if c.function.variadic then (ρ.values args).drop
    c.function.params else [],
      c.chunk⟩ : Env) = ρ.env ⟨c.scope, if c.function.variadic then args.drop c.function.params
        else [], c.chunk⟩ := by
    split
    · rw [← List.map_drop]
      rfl
    · rfl
  change ρ.SameAction (Along ρ.flow) (c.enter args) (do
    let env ← Env.declare ⟨c.scope.map ρ.cell,
      if c.function.variadic then (ρ.values args).drop c.function.params else [], c.chunk⟩
      (adjust c.function.params (ρ.values args))
    Lua.execList env c.function.body)
  rw [entered, adjust_values]
  exact (declare _ _).bindAlong fun env => execList env _

theorem continueWith_flow (t : Task) (env : Env) (flow : Flow) :
    Task.continueWith (ρ.task t) (ρ.env env) (ρ.flow flow) =
      ρ.flow (Task.continueWith t env flow) := by
  cases flow <;> rfl

theorem body (inner : Env) (stmts : List Stmt) (t : Task) (env : Env) :
    ρ.SameAction (Along ρ.flow) (do return Task.continueWith t env (← Lua.execList inner stmts))
      (do return Task.continueWith (ρ.task t) (ρ.env env) (← Lua.execList (ρ.env inner) stmts)) :=
  (execList inner stmts).bindAlong fun flow => pure (continueWith_flow t env flow)

theorem step (t : Task) : ρ.SameAction (Along ρ.flow) t.step (ρ.task t).step := by
  cases t with
  | whileLoop condition stmts env =>
    apply (evalExpr env condition).bindAlong
    intro v
    rw [truthy_value]
    split
    · exact body env stmts (.whileLoop condition stmts env) env
    · exact pure rfl
  | repeatLoop stmts env => exact body env stmts (.repeatLoop stmts env) env
  | countLoop n more step stmts env =>
    apply (declare env [.integer n]).bindAlong
    intro inner
    apply (execList inner stmts).bindAlong
    intro flow
    cases flow with
    | next _ => cases more <;> exact pure rfl
    | _ => exact pure rfl
  | scaleLoop x limit step stmts env =>
    apply (declare env [.double x]).bindAlong
    intro inner
    apply (execList inner stmts).bindAlong
    intro flow
    cases flow with
    | next _ =>
      apply pure
      unfold Along
      split <;> split <;> rfl
    | _ => exact pure rfl
  | eachLoop f s control count stmts line env =>
    apply (call f [s, control] _).bindAlong
    intro vs
    simp only [adjust_values, headD_values, isNil_value]
    split
    · exact pure rfl
    · apply (declare env _).bindAlong
      intro inner
      exact body inner stmts (.eachLoop f s _ count stmts line env) env
  | labelled all rest env =>
    apply (execList env rest).bindAlong
    intro ended
    cases ended with
    | goto name inner =>
      dsimp only [flow]
      split
      · rw [restore_env]
        exact pure rfl
      · exact pure rfl
    | _ => exact pure rfl
  | closing v line rest env => exact execList env rest
  | closingLoop v f s control count stmts line env =>
    exact run (.eachLoop f s control count stmts line env)

end SameAction

theorem closing?_task (t : Task) :
    (ρ.task t).closing? = t.closing?.map fun (v, position) => (ρ.value v, position) := by
  cases t <;> rfl

end SealedLua.Lua.Renaming
