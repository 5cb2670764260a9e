import SealedLua.Lua.Evaluate
import SealedLua.Proofs.Confinement.Operations

/-!
# Evaluation under a confinement

A program that runs in a scope with none of the variables that are kept from
scripts keeps to the confinement: it reads variables in scope, makes new ones, and
hands over what it read and made.  The proofs follow the recursion of the evaluator.
-/

namespace SealedLua.Lua.Confinement

variable {C : Confinement} {α : Type} {P : α → Prop}

namespace Open

variable {scope : List CellId} (reached : C.Open scope)

include reached

theorem cell (index : Nat) : C.cells (scope[index]?.getD 0) = none := by
  cases found : scope[index]? with
  | none => exact C.firstCell
  | some id => exact reached id (List.mem_of_getElem? found)

theorem drop (n : Nat) : C.Open (scope.drop n) :=
  fun cell mem => reached cell (List.mem_of_mem_drop mem)

end Open

namespace SafeEnv

variable {env : Env} (safe : C.SafeEnv env)

include safe

theorem cell (v : Variable) : C.cells (env.cell v) = none := safe.scope.cell v.index

theorem push {cell : CellId} (reached : C.cells cell = none) : C.SafeEnv (env.push cell) :=
  ⟨List.forall_mem_cons.2 ⟨reached, safe.scope⟩, safe.varargs⟩

theorem restore (depth : Nat) : C.SafeEnv (env.restore depth) := ⟨safe.scope.drop _, safe.varargs⟩

end SafeEnv

namespace SafeAction

section Scopes

variable {env : Env} (safe : C.SafeEnv env)

include safe

theorem read (v : Variable) : C.SafeAction C.free (env.read v) := gets fun _ holds =>
  holds.cell (safe.cell v)

theorem declare {vs : List Value} (frees : C.Frees vs) :
    C.SafeAction C.SafeEnv (env.declare vs) := by
  induction vs generalizing env with
  | nil => exact pure safe
  | cons v vs ih =>
    have both := frees_cons.1 frees
    exact (newCell both.1).bind fun id reached => ih (safe.push reached) both.2

theorem operands (e : Expr) {left right : Action Value} (first : C.SafeAction C.free left)
    (second : C.SafeAction C.free right) :
    C.SafeAction (fun p => C.free p.1 ∧ C.free p.2) (Lua.operands env e left right) := by
  unfold Lua.operands
  split
  · next v _ => exact second.bind fun y hy => (read safe v).bind fun x hx => pure ⟨hx, hy⟩
  · exact first.bind fun x hx => second.bind fun y hy => pure ⟨hx, hy⟩

end Scopes

theorem filledHeap {id : TableId} {items : List Value} (frees : C.Frees items) (n : Nat)
    {h : Heap} (holds : C.Holds h) :
    C.Holds (items.foldl (fun (h, n) v => (h.set id (.ofNat n) v, n + 1)) (h, n)).1 := by
  induction items generalizing n h with
  | nil => exact holds
  | cons v items ih =>
    have both := frees_cons.1 frees
    exact ih both.2 (n + 1) (holds.set id (C.free_ofNat n) both.1)

theorem storeItems (id : TableId) (stored : Nat) {items : List Value} (frees : C.Frees items) :
    C.SafeAction (fun _ => True) (Lua.storeItems id stored items) := by
  refine modify fun h holds => filledHeap frees _ (holds.modifyTable id fun t safe => ?_)
  split
  · exact safe.resized _ _
  · exact safe

theorem flush (id : TableId) {pending : List Value} (frees : C.Frees pending) (stored : Nat) :
    C.SafeAction (fun r => C.Frees r.1) (evalFields.flush id pending stored) := by
  unfold evalFields.flush
  split
  · exact (storeItems id stored (frees_reverse frees)).bind fun _ _ => pure frees_nil
  · exact pure frees

mutual

theorem evalExpr {env : Env} (safe : C.SafeEnv env) (e : Expr) :
    C.SafeAction C.free (Lua.evalExpr env e) := by
  cases e with
  | literal v =>
    simp only [Lua.evalExpr]
    exact pure (C.free_ofLiteral v)
  | varargs =>
    simp only [Lua.evalExpr]
    exact pure (free_headD safe.varargs)
  | «variable» v =>
    simp only [Lua.evalExpr]
    exact read safe v
  | index object key line =>
    simp only [Lua.evalExpr]
    exact (operands safe object (evalExpr safe object) (evalExpr safe key)).bind fun _ ⟨hx, hk⟩ =>
      index _ _ hx hk
  | call callee args line =>
    simp only [Lua.evalExpr]
    exact (evalExpr safe callee).bind fun f hf => (evalList safe args).bind fun vs hvs =>
      call₁ hf hvs _
  | method object name args line =>
    simp only [Lua.evalExpr]
    refine (evalExpr safe object).bind fun x hx =>
      (index _ _ hx (C.free_string name)).bind fun f hf => ?_
    exact (evalList safe args).bind fun vs hvs => call₁ hf (frees_cons.2 ⟨hx, hvs⟩) _
  | function f =>
    simp only [Lua.evalExpr]
    refine modifyGet fun h holds => ⟨C.made holds.newClosure_made, holds.newClosure ?_⟩
    exact safe.scope
  | table fields items pairs =>
    simp only [Lua.evalExpr]
    have made : C.SafeAction (fun _ => True)
        (Action.modifyGet (·.newTable (Table.empty.resized items pairs))) :=
      modifyGet fun _ holds => ⟨trivial, holds.newTable (SafeTable.empty.resized items pairs)⟩
    refine made.bind fun id _ => (evalFields safe id fields frees_nil 0).bind fun _ _ =>
      pure (C.free_table id)
  | first e =>
    simp only [Lua.evalExpr]
    exact evalExpr safe e
  | and left right =>
    simp only [Lua.evalExpr]
    refine (evalExpr safe left).bind fun x hx => ?_
    split
    · exact evalExpr safe right
    · exact pure hx
  | or left right =>
    simp only [Lua.evalExpr]
    refine (evalExpr safe left).bind fun x hx => ?_
    split
    · exact pure hx
    · exact evalExpr safe right
  | unary op e line =>
    simp only [Lua.evalExpr]
    refine (evalExpr safe e).bind fun x hx => ?_
    cases op with
    | negate => exact negate _ _ hx
    | complement => exact complement _ _ hx
    | length => exact length _ _ hx
    | not => exact pure (C.free_boolean _)
  | arith op left right line =>
    simp only [Lua.evalExpr]
    exact (operands safe left (evalExpr safe left) (evalExpr safe right)).bind fun _ ⟨hx, hy⟩ =>
      arith _ _ _ hx hy op
  | concat left right line =>
    simp only [Lua.evalExpr]
    exact (evalExpr safe left).bind fun x hx => (evalExpr safe right).bind fun y hy =>
      concat _ _ _ hx hy
  | compare op left right line =>
    simp only [Lua.evalExpr]
    refine (operands safe left (evalExpr safe left) (evalExpr safe right)).bind fun _ ⟨hx, hy⟩ => ?_
    exact (compare _ hx hy op).bind fun _ _ => pure (C.free_boolean _)

theorem evalMulti {env : Env} (safe : C.SafeEnv env) (e : Expr) :
    C.SafeAction C.Frees (Lua.evalMulti env e) := by
  cases e with
  | varargs =>
    simp only [Lua.evalMulti]
    exact pure safe.varargs
  | call callee args line =>
    simp only [Lua.evalMulti]
    exact (evalExpr safe callee).bind fun f hf =>
      (evalList safe args).bind fun vs hvs => call hf hvs _
  | method object name args line =>
    simp only [Lua.evalMulti]
    refine (evalExpr safe object).bind fun x hx =>
      (index _ _ hx (C.free_string name)).bind fun f hf => ?_
    exact (evalList safe args).bind fun vs hvs => call hf (frees_cons.2 ⟨hx, hvs⟩) _
  | _ =>
    simp only [Lua.evalMulti]
    exact (evalExpr safe _).bind fun v hv => pure (frees_cons.2 ⟨hv, frees_nil⟩)

theorem evalList {env : Env} (safe : C.SafeEnv env) (es : List Expr) :
    C.SafeAction C.Frees (Lua.evalList env es) := by
  match es with
  | [] =>
    simp only [Lua.evalList]
    exact pure frees_nil
  | [e] =>
    simp only [Lua.evalList]
    exact evalMulti safe e
  | e :: e' :: rest =>
    simp only [Lua.evalList]
    refine (evalExpr safe e).bind fun v hv => (evalList safe (e' :: rest)).bind fun vs hvs => ?_
    exact pure (frees_cons.2 ⟨hv, hvs⟩)

theorem evalFields {env : Env} (safe : C.SafeEnv env) (id : TableId)
    (fields : List Field) {pending : List Value} (frees : C.Frees pending) (stored : Nat) :
    C.SafeAction (fun _ => True) (Lua.evalFields env id fields pending stored) := by
  match fields with
  | [] =>
    simp only [Lua.evalFields]
    exact storeItems id stored (frees_reverse frees)
  | [.item e] =>
    simp only [Lua.evalFields]
    refine (flush id frees stored).bind fun (pending, stored) frees =>
      (evalMulti safe e).bind fun vs hvs => ?_
    exact storeItems id stored (frees_append (frees_reverse frees) hvs)
  | .item e :: next :: rest =>
    simp only [Lua.evalFields]
    refine (flush id frees stored).bind fun (pending, stored) frees =>
      (evalExpr safe e).bind fun v hv => ?_
    exact evalFields safe id (next :: rest) (frees_cons.2 ⟨hv, frees⟩) stored
  | .pair key value line :: rest =>
    simp only [Lua.evalFields]
    refine (flush id frees stored).bind fun (pending, stored) frees => ?_
    refine (operands safe key (evalExpr safe key) (evalExpr safe value)).bind fun _ ⟨hk, hv⟩ => ?_
    exact (store _ id hk hv).bind fun _ _ => evalFields safe id rest frees stored

end

theorem deferred {env : Env} (safe : C.SafeEnv env) (assigned : List Nat)
    (e : Expr) {value : Action Value} (h : C.SafeAction C.free value) :
    C.SafeAction (C.SafeAction C.free) (Lua.deferred env assigned e value) := by
  unfold Lua.deferred
  split
  · next v _ =>
    split
    · exact (read safe v).bind fun x hx => pure (pure hx)
    · exact pure (read safe v)
  · exact h.bind fun x hx => pure (pure hx)

end SafeAction

variable (C) in
def SafeReference : Reference → Prop
  | .cell id => C.cells id = none
  | .entry object key _ _ => C.free object ∧ C.free key

namespace SafeAction

theorem evalTargets {env : Env} (safe : C.SafeEnv env) (assigned : List Nat)
    (targets : List Target) :
    C.SafeAction (fun places => ∀ place ∈ places, C.SafeAction C.SafeReference place)
      (Lua.evalTargets env assigned targets) := by
  induction targets with
  | nil =>
    simp only [Lua.evalTargets]
    exact pure fun _ => nofun
  | cons target rest ih =>
    cases target with
    | «variable» v =>
      simp only [Lua.evalTargets]
      exact ih.bind fun places others => pure (List.forall_mem_cons.2 ⟨pure (safe.cell v), others⟩)
    | entry object key line =>
      simp only [Lua.evalTargets]
      refine (deferred safe assigned object (evalExpr safe object)).bind fun x hx => ?_
      refine (deferred safe assigned key (evalExpr safe key)).bind fun k hk =>
        ih.bind fun places others => ?_
      refine pure (List.forall_mem_cons.2 ⟨?_, others⟩)
      exact hx.bind fun x hx => hk.bind fun k hk => pure ⟨hx, hk⟩

theorem assignAll (env : Env) {places : List (Action Reference)} {vs : List Value}
    (safe : ∀ place ∈ places, C.SafeAction C.SafeReference place) (frees : C.Frees vs) :
    C.SafeAction (fun _ => True) (Lua.assignAll env (places.zip vs)) := by
  refine forM fun (place, v) mem => ?_
  obtain ⟨there, given⟩ := List.of_mem_zip (List.mem_reverse.1 mem)
  refine (safe place there).bind fun r hr => ?_
  cases r with
  | cell id => exact modify fun _ holds => holds.setCell hr (frees v given)
  | entry object key line naming => exact setIndex _ _ hr.1 hr.2 (frees v given)

theorem countPlan (here : Option Position) (start limit step : Value) :
    C.SafeAction (fun _ => True) (Lua.countPlan here start limit step) := by
  have bad : ∀ (what : String) (v : Value), C.SafeAction (α := CountPlan) (fun _ => True) (do
      let h ← Action.get
      Action.fail here (bytes (ascii ("bad 'for' " ++ what ++ " (number expected, got ")) ++
        h.typeName v ++
        bytes (ascii ")"))) := fun what v => bindGet fun _ _ => fail _ _
  unfold Lua.countPlan
  dsimp only
  split
  · split
    · exact fail _ _
    · split
      · exact bad _ _
      · exact pure trivial
      · exact pure trivial
  · split
    · exact bad _ _
    · exact bad _ _
    · exact bad _ _
    · split
      · exact fail _ _
      · split <;> split <;> exact pure trivial

theorem checkClosable (here : Option Position) (name : ByteArray) (v : Value) :
    C.SafeAction (fun _ => True) (Lua.checkClosable here name v) := by
  unfold Lua.checkClosable
  split
  · exact pure trivial
  · refine bindGet fun h _ => ?_
    split
    · exact fail _ _
    · exact pure trivial

/-- A list of statements goes on after the first, whatever the flow. -/
theorem afterFlow {f : Env → Action Flow}
    (next : ∀ env, C.SafeEnv env → C.SafeAction C.SafeFlow (f env)) (flow : Flow) :
    C.SafeFlow flow → C.SafeAction C.SafeFlow (match flow with
      | .next env => f env
      | flow => Pure.pure flow) := by
  intro safe
  cases flow with
  | next env => exact next env safe
  | _ => exact pure safe

mutual

theorem exec {env : Env} (safe : C.SafeEnv env) (s : Stmt) :
    C.SafeAction C.SafeFlow (Lua.exec env s) := by
  have done := afterFlow (f := fun _ => return .next env) fun _ _ => pure safe
  cases s with
  | declare count values =>
    simp only [Lua.exec]
    refine (evalList safe values).bind fun vs frees =>
      (declare safe (frees_adjust frees count)).bind fun env safe => ?_
    exact pure safe
  | declareFunction f =>
    simp only [Lua.exec]
    refine (newCell C.free_nil).bind fun cell reached => ?_
    refine (evalExpr (safe.push reached) (.function f)).bind fun v free =>
      (modify fun _ holds => ?_).bind fun _ _ => pure ?_
    · exact holds.setCell reached free
    · exact safe.push reached
  | closing index name line rest =>
    simp only [Lua.exec]
    have closed : C.SafeAction C.free (Action.gets (·.cell (env.scope[index]?.getD 0))) :=
      gets fun _ holds => holds.cell (safe.scope.cell index)
    refine closed.bind fun v free => (checkClosable _ name v).bind fun closable _ => ?_
    split
    · exact run ⟨free, safe⟩
    · exact execList safe rest
  | assign targets values =>
    simp only [Lua.exec]
    refine (evalTargets safe _ targets).bind fun places stores =>
      (evalList safe values).bind fun vs frees => ?_
    exact (assignAll env stores (frees_adjust frees _)).bind fun _ _ => pure safe
  | expression e =>
    simp only [Lua.exec]
    exact (evalMulti safe e).bind fun _ _ => pure safe
  | block body =>
    simp only [Lua.exec]
    exact (execList safe body).bind done
  | labelled body =>
    simp only [Lua.exec]
    exact run safe
  | label name depth =>
    simp only [Lua.exec]
    exact pure safe
  | goto name =>
    simp only [Lua.exec]
    exact pure safe
  | leave =>
    simp only [Lua.exec]
    exact pure trivial
  | ifElse condition yes no =>
    simp only [Lua.exec]
    refine (evalExpr safe condition).bind fun v _ => ?_
    split
    · exact (execList safe yes).bind done
    · exact (execList safe no).bind done
  | whileLoop condition body =>
    simp only [Lua.exec]
    exact run safe
  | repeatLoop body =>
    simp only [Lua.exec]
    exact run safe
  | untilTrue condition =>
    simp only [Lua.exec]
    refine (evalExpr safe condition).bind fun v _ => ?_
    split
    · exact pure trivial
    · exact pure safe
  | countLoop start limit step body line =>
    simp only [Lua.exec]
    refine (evalExpr safe start).bind fun a _ => (evalExpr safe limit).bind fun l _ => ?_
    refine (evalExpr safe step).bind fun s _ => (countPlan _ a l s).bind fun plan _ => ?_
    cases plan with
    | skip => exact pure safe
    | count a more s => exact run safe
    | scale a l s => exact run safe
  | eachLoop count values body line =>
    simp only [Lua.exec]
    refine (evalList safe values).bind fun vs frees => ?_
    have four := frees_adjust frees 4
    split
    · next f s c closing same =>
      rw [same] at four
      simp only [frees_cons] at four
      obtain ⟨hf, hs, hc, hv, -⟩ := four
      have looped : C.Frees [f, s, c] := by simp [hf, hs, hc]
      refine (checkClosable _ _ closing).bind fun closable _ => ?_
      split
      · exact run ⟨frees_cons.2 ⟨hv, looped⟩, safe⟩
      · exact run ⟨looped, safe⟩
    · exact pure safe
  | ret values =>
    simp only [Lua.exec]
    exact (evalList safe values).bind fun vs frees => pure frees
  | tailCall callee args line =>
    simp only [Lua.exec]
    refine (evalExpr safe callee).bind fun f hf => (evalList safe args).bind fun vs hvs => ?_
    exact pure ⟨.inl hf, hvs⟩
  | tailMethod object name args line =>
    simp only [Lua.exec]
    refine (evalExpr safe object).bind fun x hx =>
      (index _ _ hx (C.free_string name)).bind fun f hf => ?_
    exact (evalList safe args).bind fun vs hvs => pure ⟨.inl hf, frees_cons.2 ⟨hx, hvs⟩⟩

theorem execList {env : Env} (safe : C.SafeEnv env) (stmts : List Stmt) :
    C.SafeAction C.SafeFlow (Lua.execList env stmts) := by
  match stmts with
  | [] =>
    simp only [Lua.execList]
    exact pure safe
  | s :: rest =>
    simp only [Lua.execList]
    exact (exec safe s).bind (afterFlow fun env safe => execList safe rest)

end

/-- The body of a function that sees none of the variables that are kept from scripts. -/
theorem enter {c : Closure} (reached : C.Open c.scope) {args : List Value} (frees : C.Frees args) :
    C.SafeAction C.SafeFlow (c.enter args) := by
  have varargs : C.Frees (if c.function.variadic then args.drop c.function.params else []) := by
    split
    · exact frees_drop frees _
    · exact frees_nil
  have outer : C.SafeEnv ⟨c.scope, _, c.chunk⟩ := ⟨reached, varargs⟩
  exact (declare outer (frees_adjust frees _)).bind fun env safe => execList safe _

theorem continueWith {t : Task} {env : Env} {flow : Flow}
    (next : C.SafeTask t) (safe : C.SafeEnv env)
    (h : C.SafeFlow flow) : C.SafeFlow (Task.continueWith t env flow) := by
  cases flow with
  | next _ => exact next
  | leave => exact safe
  | _ => exact h

theorem body {inner env : Env} (within : C.SafeEnv inner) (stmts : List Stmt)
    {t : Task} (next : C.SafeTask t) (safe : C.SafeEnv env) :
    C.SafeAction C.SafeFlow (do return Task.continueWith t env (← Lua.execList inner stmts)) :=
  (execList within stmts).bind fun _ h => pure (continueWith next safe h)

theorem step {t : Task} (safe : C.SafeTask t) : C.SafeAction C.SafeFlow t.step := by
  cases t with
  | whileLoop condition stmts env =>
    refine (evalExpr safe condition).bind fun v _ => ?_
    split
    · exact body safe stmts (t := .whileLoop condition stmts env) safe safe
    · exact pure safe
  | repeatLoop stmts env => exact body safe stmts (t := .repeatLoop stmts env) safe safe
  | countLoop n more step stmts env =>
    have counter : C.Frees [.integer n] := by simp
    refine (declare safe counter).bind fun inner within => ?_
    refine (execList within stmts).bind fun flow h => ?_
    cases flow with
    | next _ => cases more <;> exact pure safe
    | leave => exact pure safe
    | _ => exact pure h
  | scaleLoop x limit step stmts env =>
    have counter : C.Frees [.double x] := by simp
    refine (declare safe counter).bind fun inner within => ?_
    refine (execList within stmts).bind fun flow h => ?_
    cases flow with
    | next _ =>
      refine pure ?_
      split <;> split <;> exact safe
    | leave => exact pure safe
    | _ => exact pure h
  | eachLoop f s control count stmts line env =>
    obtain ⟨values, safe⟩ := safe
    simp only [frees_cons] at values
    obtain ⟨hf, hs, hc, -⟩ := values
    refine (call hf (by simp [hs, hc]) _).bind fun vs frees => ?_
    have names := frees_adjust frees count
    have first := free_headD names
    dsimp only
    split
    · exact pure safe
    · refine (declare safe names).bind fun inner within => ?_
      have again := frees_cons.2 ⟨hf, frees_cons.2 ⟨hs, frees_cons.2 ⟨first, frees_nil⟩⟩⟩
      exact body within stmts (t := .eachLoop f s _ count stmts line env) ⟨again, safe⟩ safe
  | labelled all rest env =>
    refine (execList safe rest).bind fun flow h => ?_
    cases flow with
    | goto name inner =>
      dsimp only
      split
      · exact pure (h.restore _)
      · exact pure h
    | _ => exact pure h
  | closing v line rest env => exact execList safe.2 rest
  | closingLoop v f s control count stmts line env =>
    obtain ⟨values, safe⟩ := safe
    exact run ⟨(frees_cons.1 values).2, safe⟩

end SafeAction

theorem SafeTask.closing? {t : Task} (safe : C.SafeTask t) : ∀ p ∈ t.closing?, C.free p.1 := by
  cases t with
  | closing v line rest env =>
    rintro _ ⟨rfl⟩
    exact safe.1
  | closingLoop v f s control count stmts line env =>
    rintro _ ⟨rfl⟩
    exact (frees_cons.1 safe.1).1
  | _ => exact fun _ => nofun

end SealedLua.Lua.Confinement
