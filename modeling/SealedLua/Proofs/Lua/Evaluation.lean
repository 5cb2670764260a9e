import SealedLua.Proofs.Lua.Lists
import Mathlib.Data.List.Forall2

/-!
# Rules of evaluation

What expressions and statements come to in a scope whose variables have known
values.  The variables are told apart by their distance, so the rules for names
need no more than an entry of a list.
-/

namespace SealedLua.Lua

-- The equations of the evaluator are worked out here, before the rules that all rest on them.
attribute [local simp] evalExpr evalMulti evalList evalFields evalTargets exec execList

/-- What a value is passed as: itself, or a copy of a failure with the same message. -/
inductive Value.PassesAs : Value → Value → Prop
  | same (v : Value) : PassesAs v v
  | copy {f g : Failure} (message : g.message = f.message) : PassesAs (.failure f) (.failure g)

namespace Heap

def Binds (h : Heap) (scope : List CellId) (vs : List Value) : Prop :=
  List.Forall₂ (fun c v => h.cells[c]? = some v) scope vs

/-- All that was there is there still, apart from the contents of one table, and
the collector was left alone. -/
structure Keeps (except : Option TableId) (h h' : Heap) : Prop where
  cells : ∀ (c : CellId) (v : Value), h.cells[c]? = some v → h'.cells[c]? = some v
  closures : ∀ (c : ClosureId) (f : Closure), h.closures[c]? = some f → h'.closures[c]? = some f
  tables : ∀ (j : TableId) (t : Table), some j ≠ except → h.tables[j]? = some t →
    h'.tables[j]? = some t
  size : h.tables.size ≤ h'.tables.size
  collector : h'.collector = h.collector
  circumstances : h'.circumstances = h.circumstances

namespace Keeps

variable {except : Option TableId} {h h₁ h₂ : Heap} {id : TableId}

theorem refl (except : Option TableId) (h : Heap) : Keeps except h h :=
  ⟨fun _ _ lies => lies, fun _ _ lies => lies, fun _ _ _ lies => lies, Nat.le_refl _, rfl, rfl⟩

theorem trans (first : Keeps except h h₁) (second : Keeps except h₁ h₂) : Keeps except h h₂ where
  cells c v lies := second.cells c v (first.cells c v lies)
  closures c f lies := second.closures c f (first.closures c f lies)
  tables j t other lies := second.tables j t other (first.tables j t other lies)
  size := Nat.le_trans first.size second.size
  collector := second.collector.trans first.collector
  circumstances := second.circumstances.trans first.circumstances

theorem kept (k : Keeps none h h₁) (j : TableId) (t : Table) (lies : h.tables[j]? = some t) :
    h₁.tables[j]? = some t :=
  k.tables j t (Option.some_ne_none j) lies

theorem weaken (k : Keeps none h h₁) (except : Option TableId) : Keeps except h h₁ :=
  ⟨k.cells, k.closures, fun j t _ lies => k.kept j t lies, k.size, k.collector, k.circumstances⟩

private theorem getElem?_push {α : Type} {xs : Array α} {i : Nat} {x y : α}
    (lies : xs[i]? = some x) :
    (xs.push y)[i]? = some x := by
  rw [Array.getElem?_push_lt (Array.getElem?_eq_some_iff.1 lies).1]
  exact congrArg some (Array.getElem?_eq_some_iff.1 lies).2

theorem newCell (h : Heap) (v : Value) : Keeps none h (h.newCell v).2 :=
  ⟨fun _ _ lies => getElem?_push lies, fun _ _ lies => lies, fun _ _ _ lies => lies,
    Nat.le_refl _, rfl, rfl⟩

theorem newTable (h : Heap) (t : Table) : Keeps none h (h.newTable t).2 :=
  ⟨fun _ _ lies => lies, fun _ _ lies => lies, fun _ _ _ lies => getElem?_push lies,
    by simp [Heap.newTable], rfl, rfl⟩

theorem newClosure (h : Heap) (f : Closure) : Keeps none h (h.newClosure f).2 :=
  ⟨fun _ _ lies => lies, fun _ _ lies => getElem?_push lies, fun _ _ _ lies => lies,
    Nat.le_refl _, rfl, rfl⟩

theorem newFailure (h : Heap) (message : String) : Keeps none h (h.newFailure message).2 :=
  ⟨fun _ _ lies => lies, fun _ _ lies => lies, fun _ _ _ lies => lies, Nat.le_refl _, rfl, rfl⟩

theorem pass (h : Heap) (v : Value) : Keeps none h (h.pass v).2 := by
  cases v with
  | failure f => exact .newFailure h f.message
  | _ => exact .refl none h

theorem flushed (h : Heap) : Keeps none h h.flushed :=
  ⟨fun _ _ lies => lies, fun _ _ lies => lies, fun _ _ _ lies => lies, Nat.le_refl _, rfl, rfl⟩

/-- Changes of the one table, or of a table that was not there before. -/
theorem changes (k : Keeps except h h₁) (c : ChangesOnly id h₁ h₂)
    (free : some id = except ∨ h.tables.size ≤ id) :
    Keeps except h h₂ := by
  refine ⟨fun j v lies => ?_, fun j f lies => ?_, fun j t other lies => ?_,
    by rw [c.size]; exact k.size, ?_, ?_⟩
  · rw [c.rest]
    exact k.cells j v lies
  · rw [c.rest]
    exact k.closures j f lies
  · have apart : j ≠ id := by
      rintro rfl
      rcases free with same | beyond
      · exact other same
      · exact Nat.not_lt.2 beyond (Array.getElem?_eq_some_iff.1 lies).1
    rw [c.others j apart]
    exact k.tables j t other lies
  · rw [c.rest]
    exact k.collector
  · rw [c.rest]
    exact k.circumstances

theorem forget (k : Keeps none h h₁) (later : Keeps (some id) h₁ h₂) (beyond : h.tables.size ≤ id) :
    Keeps none h h₂ := by
  refine ⟨fun c v lies => later.cells c v (k.cells c v lies), fun c f lies =>
    later.closures c f (k.closures c f lies),
    fun j t other lies => later.tables j t ?_ (k.tables j t other lies),
    Nat.le_trans k.size later.size,
    later.collector.trans k.collector, later.circumstances.trans k.circumstances⟩
  rintro ⟨⟩
  exact Nat.not_lt.2 beyond (Array.getElem?_eq_some_iff.1 lies).1

end Keeps

theorem pass_eq (h : Heap) {v : Value} (other : ∀ f, v ≠ .failure f) : h.pass v = (v, h) := by
  cases v with
  | failure f => exact absurd rfl (other f)
  | _ => rfl

theorem passAll_eq (h : Heap) {vs : List Value} (others : ∀ v ∈ vs, ∀ f, v ≠ .failure f) :
    h.passAll vs = (vs, h) := by
  induction vs with
  | nil => rfl
  | cons v vs ih =>
    rw [passAll, h.pass_eq (others v (.head _))]
    simp only [ih fun w mem => others w (.tail _ mem)]

theorem passesAs_pass (h : Heap) (v : Value) : v.PassesAs (h.pass v).1 := by
  cases v with
  | failure f => exact .copy rfl
  | _ => exact .same _

theorem passesAs_passAll (h : Heap) (vs : List Value) :
    List.Forall₂ Value.PassesAs vs (h.passAll vs).1 := by
  induction vs generalizing h with
  | nil => exact .nil
  | cons v vs ih => exact .cons (h.passesAs_pass v) (ih _)

theorem kept_under (h : Heap) (circumstances : Circumstances) (id : TableId) (t : Table)
    (stored : h.tables[id]? = some t) :
    (h.under circumstances).tables[id]? = some t := stored

theorem get_under (h : Heap) (circumstances : Circumstances) (id : TableId) (key : Value) :
    (h.under circumstances).get id key = h.get id key := rfl

theorem collector_under (h : Heap) (circumstances : Circumstances) :
    (h.under circumstances).collector = h.collector := rfl

theorem collector_set (h : Heap) (id : TableId) (key v : Value) :
    (h.set id key v).collector = h.collector := rfl

namespace Binds

variable {h h' : Heap} {scope : List CellId} {vs : List Value} {v : Value}

theorem mono {except : Option TableId} (b : h.Binds scope vs) (k : Keeps except h h') :
    h'.Binds scope vs :=
  b.imp fun c v lies => k.cells c v lies

theorem newCell (b : h.Binds scope vs) (v : Value) :
    (h.newCell v).2.Binds ((h.newCell v).1 :: scope) (v :: vs) :=
  .cons (by simp [Heap.newCell]) (b.mono (Keeps.newCell h v))

theorem cell (b : h.Binds scope vs) {i : Nat} (lies : vs[i]? = some v) :
    h.cell (scope[i]?.getD 0) = v := by
  induction b generalizing i with
  | nil => cases lies
  | @cons c w scope vs here _ ih =>
    cases i with
    | zero =>
      cases lies
      rw [List.getElem?_cons_zero, Option.getD_some, Heap.cell, here, Option.getD_some]
    | succ i => exact ih lies

end Binds

end Heap

section Rules

variable {env : Env} {h : Heap} {vs : List Value} {v f : Value} {i : Nat}
  {outer : Bool} {name : ByteArray}

theorem read_eq (binds : h.Binds env.scope vs) (lies : vs[i]? = some v) :
    env.read ⟨name, i, outer⟩ h = .done v h := by
  have read : env.read ⟨name, i, outer⟩ h = .done (h.cell (env.scope[i]?.getD 0)) h := rfl
  rw [read, binds.cell lies]

theorem evalExpr_variable (binds : h.Binds env.scope vs) (lies : vs[i]? = some v) :
    evalExpr env (.variable ⟨name, i, outer⟩) h = .done v h := by
  rw [evalExpr, read_eq binds lies]

/-- A first operand that is a variable of the running function is read last. -/
theorem operands_own {left right : Action Value} {y : Value} (binds : h.Binds env.scope vs)
    (lies : vs[i]? = some v) (right_done : right h = .done y h) :
    operands env (.variable ⟨name, i, false⟩) left right h = .done (v, y) h := by
  have read : operands env (.variable ⟨name, i, false⟩) left right h =
      (right h).bind fun y h => .done (h.cell (env.scope[i]?.getD 0), y) h := rfl
  rw [read, right_done, Step.bind, binds.cell lies]

theorem operands_apart (env : Env) {e : Expr} {left right : Action Value}
    {x y : Value} {h₁ h₂ : Heap} (apart : e.ownVariable? = none) (left_done : left h = .done x h₁)
    (right_done : right h₁ = .done y h₂) :
    operands env e left right h = .done (x, y) h₂ := by
  have both : operands env e left right h = (left h).bind fun x h => (right h).bind
      fun y h => .done (x, y) h := by
    rw [operands, apart]
    rfl
  rw [both, left_done, Step.bind, right_done, Step.bind]

theorem evalExpr_index_eq {object key : Expr} {line : Nat} {x k : Value}
    (both : operands env object (evalExpr env object) (evalExpr env key) h = .done (x, k) h) :
    evalExpr env (.index object key line) h = index (some (env.position line)) x
      k object.naming? h := by
  have unfolded : evalExpr env (.index object key line) h =
      (operands env object (evalExpr env object) (evalExpr env key) h).bind fun p h =>
        index (some (env.position line)) p.1 p.2 object.naming? h := by
    rw [evalExpr]
    rfl
  rw [unfolded, both, Step.bind]

/-- An entry that is there, of an object that is no variable of the running function. -/
theorem evalExpr_index {object key : Expr} {line : Nat} {id : TableId} {k : Value}
    (apart : object.ownVariable? = none) (object_done : evalExpr env object h = .done (.table id) h)
    (key_done : evalExpr env key h = .done k h) (entry : h.get id k = v) (there : v.isNil = false) :
    evalExpr env (.index object key line) h = .done v h := by
  rw [evalExpr_index_eq (operands_apart env apart object_done key_done),
    index_present (by rw [entry]; exact there), entry]

/-- An entry of a table without metatable; the table is in a variable of the running function. -/
theorem evalExpr_index_own {key : Expr} {line : Nat} {id : TableId} {t : Table} {k : Value}
    (binds : h.Binds env.scope vs) (lies : vs[i]? = some (.table id))
    (key_done : evalExpr env key h = .done k h)
    (stored : h.tables[id]? = some t) (plain : t.metatable = none) :
    evalExpr env (.index (.variable ⟨name, i, false⟩) key line) h = .done (t.get k) h := by
  rw [evalExpr_index_eq (operands_own binds lies key_done), index_plain stored plain]

theorem equal_string (here : Option Position) (s : ByteArray) (w : Value) :
    equal here (.string s) w h = .done (Value.rawEq (.string s) w) h := by
  unfold equal
  split
  · next same =>
    rw [same]
    rfl
  · next other =>
    rw [Bool.eq_false_iff.2 other]
    rfl

theorem evalExpr_compare_eq {left right : Expr} {line : Nat} {x y : Value}
    (both : operands env left (evalExpr env left) (evalExpr env right) h = .done (x, y) h) :
    evalExpr env (.compare .eq left right line) h =
      (equal (some (env.position line)) x y h).bind fun b h => .done (.boolean b) h := by
  have unfolded : evalExpr env (.compare .eq left right line) h =
      (operands env left (evalExpr env left) (evalExpr env right) h).bind fun p h =>
        (equal (some (env.position line)) p.1 p.2 h).bind fun b h => .done (.boolean b) h := by
    rw [evalExpr]
    rfl
  rw [unfolded, both, Step.bind]

theorem evalExpr_literal (env : Env) (h : Heap) (l : Literal) :
    evalExpr env (.literal l) h = .done (.ofLiteral l) h := by
  rw [evalExpr]
  rfl

/-- Comparing a variable of the running function that holds a string with a literal. -/
theorem evalExpr_compare_own {line : Nat} {l : Literal} {s : ByteArray}
    (binds : h.Binds env.scope vs) (lies : vs[i]? = some (.string s)) :
    evalExpr env (.compare .eq (.variable ⟨name, i, false⟩) (.literal l) line) h =
      .done (.boolean (Value.rawEq (.string s) (.ofLiteral l))) h := by
  rw [evalExpr_compare_eq (operands_own binds lies (evalExpr_literal env h l)), equal_string]
  rfl

theorem evalExpr_length_eq {e : Expr} (line : Nat) (operand : evalExpr env e h = .done v h) :
    evalExpr env (.unary .length e line) h = length (some (env.position line)) v e.naming? h := by
  have unfolded : evalExpr env (.unary .length e line) h =
      (evalExpr env e h).bind fun x h => length (some (env.position line)) x e.naming? h := by
    rw [evalExpr]
    rfl
  rw [unfolded, operand, Step.bind]

theorem evalExpr_arith_eq {op : ArithOp} {left right : Expr} {line : Nat} {x y : Value}
    (both : operands env left (evalExpr env left) (evalExpr env right) h = .done (x, y) h) :
    evalExpr env (.arith op left right line) h =
      arith (some (env.position line)) op x y left.naming? right.naming? h := by
  have unfolded : evalExpr env (.arith op left right line) h =
      (operands env left (evalExpr env left) (evalExpr env right) h).bind fun p h =>
        arith (some (env.position line)) op p.1 p.2 left.naming? right.naming? h := by
    rw [evalExpr]
    rfl
  rw [unfolded, both, Step.bind]

/-- The key of an assignment is read at once, unless it is a variable of the running function. -/
theorem deferred_apart {key : Expr} {k : Value} (apart : key.ownVariable? = none)
    (key_done : evalExpr env key h = .done k h) :
    deferred env [] key (evalExpr env key) h = .done (pure k) h := by
  have unfolded : deferred env [] key (evalExpr env key) h =
      (evalExpr env key h).bind fun x h => .done (pure x) h := by
    rw [deferred, apart]
    rfl
  rw [unfolded, key_done, Step.bind]

theorem deferred_own :
    deferred env [] (.variable ⟨name, i, false⟩) (evalExpr env (.variable ⟨name, i, false⟩)) h =
    .done (env.read ⟨name, i, false⟩) h := rfl

/-- Whether an expression may have any number of values. -/
def Expr.isMulti : Expr → Bool
  | .varargs | .call _ _ _ | .method _ _ _ _ => true
  | _ => false

theorem evalMulti_one {e : Expr} (one : e.isMulti = false) :
    evalMulti env e = (do return [← evalExpr env e]) := by
  refine evalMulti.eq_4 env e ?_ ?_ ?_ <;> intros <;> rename_i eq <;> rw [eq] at one <;> cases one

/-- Declaring variables brings them into scope, the last one nearest. -/
theorem declare_binds (binds : h.Binds env.scope vs) (ws : List Value) :
    ∃ env' h', env.declare ws h = .done env' h' ∧ h'.Binds env'.scope (ws.reverse ++ vs) ∧
      Heap.Keeps none h h' ∧
      h'.tables = h.tables ∧ env'.varargs = env.varargs ∧ env'.chunk = env.chunk := by
  induction ws generalizing env h vs with
  | nil => exact ⟨env, h, rfl, binds, .refl _ _, rfl, rfl, rfl⟩
  | cons w ws ih =>
    have pushed : (h.newCell w).2.Binds (env.push (h.newCell w).1).scope (w :: vs) :=
      binds.newCell w
    obtain ⟨env', h', run, after, keeps, tables, varargs, chunk⟩ := ih pushed
    refine ⟨env', h', run, ?_, (Heap.Keeps.newCell h w).trans keeps, tables, varargs, chunk⟩
    rw [List.reverse_cons, List.append_assoc]
    exact after

section AtOnce

variable {env' : Env} {h₁ h₂ : Heap} {e e' : Expr} {rest : List Expr} {stmt : Stmt}

theorem evalList_one (one : e.isMulti = false) (done : evalExpr env e h = .done v h₁) :
    evalList env [e] h = .done [v] h₁ := by
  have unfolded : evalList env [e] h = (evalExpr env e h).bind fun v h => .done [v] h := by
    rw [evalList, evalMulti_one one]
    rfl
  rw [unfolded, done, Step.bind]

theorem evalList_cons (first : evalExpr env e h = .done v h₁)
    (others : evalList env (e' :: rest) h₁ = .done vs h₂) :
    evalList env (e :: e' :: rest) h = .done (v :: vs) h₂ := by
  have unfolded : evalList env (e :: e' :: rest) h =
      (evalExpr env e h).bind fun v h => (evalList env (e' :: rest) h).bind fun vs h =>
        .done (v :: vs) h := by
    rw [evalList]
    · rfl
    · exact List.cons_ne_nil _ _
  rw [unfolded, first, Step.bind, others, Step.bind]

theorem exec_declare (count : Nat) {es : List Expr} (values : evalList env es h = .done vs h₁)
    (declared : env.declare (adjust count vs) h₁ = .done env' h₂) :
    exec env (.declare count es) h = .done (.next env') h₂ := by
  have unfolded : exec env (.declare count es) h = (evalList env es h).bind fun vs h =>
      (env.declare (adjust count vs) h).bind fun env h => .done (.next env) h := by
    rw [exec]
    rfl
  rw [unfolded, values, Step.bind, declared, Step.bind]

theorem execList_cons (after : List Stmt) (done : exec env stmt h = .done (.next env') h₁) :
    execList env (stmt :: after) h = execList env' after h₁ := by
  rw [execList]
  exact (congrArg (Step.bind · _) done).trans rfl

end AtOnce

def entryPlace (line : Nat) (object : Expr) (place late : Action Value) : Action Reference := do
  let x ← place
  let k ← late
  return .entry x k line object.naming?

section Entries

variable {h₁ : Heap} {object key : Expr} {place late : Action Value} (line : Nat)

theorem evalTargets_entry
    (object_done : deferred env [] object (evalExpr env object) h = .done place h)
    (key_done : deferred env [] key (evalExpr env key) h = .done late h) :
    evalTargets env [] [.entry object key line] h =
      .done [entryPlace line object place late] h := by
  have unfolded : evalTargets env [] [.entry object key line] h =
      (deferred env [] object (evalExpr env object) h).bind fun x h =>
        (deferred env [] key (evalExpr env key) h).bind fun k h =>
          .done [entryPlace line object x k] h := by
    rw [evalTargets, evalTargets]
    rfl
  rw [unfolded, object_done, Step.bind, key_done, Step.bind]

theorem assignAll_entry {id : TableId} {t : Table} {k : Value} (env : Env)
    (object : Expr) (v : Value) (place_done : place h₁ = .done (.table id) h₁)
    (late_done : late h₁ = .done k h₁) (stored : h₁.tables[id]? = some t)
    (plain : t.metatable = none) (proper : k.toKey.isKey = true) :
    assignAll env [(entryPlace line object place late, v)] h₁ = .done () (h₁.set id k v) := by
  have placed : entryPlace line object place late h₁ =
      .done (.entry (.table id) k line object.naming?) h₁ := by
    have unfolded : entryPlace line object place late h₁ =
        (place h₁).bind fun x h => (late h).bind fun k h =>
        .done (.entry x k line object.naming?) h := rfl
    rw [unfolded, place_done, Step.bind, late_done, Step.bind]
  have single : ∀ f : Action Reference × Value → Action Unit,
      [(entryPlace line object place late, v)].reverse.forM f =
        (do f (entryPlace line object place late, v); return ()) := fun _ => rfl
  simp only [assignAll, single, Action.bind_eq, placed, Step.bind,
    setIndex_plain stored plain proper]
  rfl

theorem exec_store {id : TableId} {value : Expr} {t : Table} {k : Value}
    (object_done : deferred env [] object (evalExpr env object) h = .done place h)
    (place_done : place h₁ = .done (.table id) h₁)
    (key_done : deferred env [] key (evalExpr env key) h = .done late h)
    (late_done : late h₁ = .done k h₁) (value_done : evalList env [value] h = .done [v] h₁)
    (stored : h₁.tables[id]? = some t) (plain : t.metatable = none)
    (proper : k.toKey.isKey = true) :
    exec env (.assign [.entry object key line] [value]) h = .done (.next env) (h₁.set id k v) := by
  have targets := evalTargets_entry line object_done key_done
  have stores := assignAll_entry line env object v place_done late_done stored plain proper
  have unfolded : exec env (.assign [.entry object key line] [value]) h =
      (evalTargets env [] [.entry object key line] h).bind fun places h =>
          (evalList env [value] h).bind fun vs h =>
        (assignAll env (places.zip (adjust places.length vs)) h).bind fun _ h =>
          .done (.next env) h := by
    rw [exec]
    rfl
  rw [unfolded, targets, Step.bind, value_done, Step.bind]
  change (assignAll env [(entryPlace line object place late, v)] h₁).bind _ = _
  rw [stores, Step.bind]

end Entries

end Rules

theorem storeItems_nil (id : TableId) (h : Heap) : storeItems id 0 [] h = .done () h := by
  have same : h.tables.modify id (fun t => if t.items.size < 0 then t.resized 0 t.room else t) =
      h.tables := by
    refine Array.ext (by simp) fun j _ _ => ?_
    simp [Array.getElem_modify]
  have modified : storeItems id 0 [] h = .done () { h with
      tables :=
        h.tables.modify id (fun t => if t.items.size < 0 then t.resized 0 t.room else t) } := rfl
  rw [modified, same]

theorem nested_callSite (env : Env) (callee : Expr) (line : Nat) :
    (callSite env callee line).nested = false := by
  have named : ∀ n, callee.naming? = some n → n.kind ≠ .metamethod ∧ n.kind ≠ .iterator := by
    fun_induction Expr.naming? callee with
    | case3 e ih => exact ih
    | _ =>
      rintro n ⟨⟩ <;> first
      | exact ⟨NameKind.noConfusion, NameKind.noConfusion⟩
      | (split <;> exact ⟨NameKind.noConfusion, NameKind.noConfusion⟩)
  unfold callSite Site.nested
  cases found : callee.naming? with
  | none => rfl
  | some n =>
    obtain ⟨kind, name⟩ := n
    have apart := named _ found
    cases kind <;> first | rfl | exact absurd rfl apart.1 | exact absurd rfl apart.2

section Calls

variable {depth : Depth} {env env' : Env} {h h₁ h₂ : Heap} {f v w : Value}
  {vs ws values : List Value} {e e' : Expr}
  {rest args : List Expr} {calls nested : Nat} {flow : Flow} {s t : ByteArray}

namespace Gives

theorem of_eq {α : Type} {x : Step α} {a : α} (eq : x = .done a h) : Gives depth x a h :=
  eq ▸ .done a h

theorem list_last (last : Gives depth (evalMulti env e h) vs h₁) :
    Gives depth (evalList env [e] h) vs h₁ := by
  rw [evalList]
  exact last

theorem list_cons (first : Gives depth (evalExpr env e h) v h₁)
    (others : Gives depth (evalList env (e' :: rest) h₁) vs h₂) :
    Gives depth (evalList env (e :: e' :: rest) h) (v :: vs) h₂ := by
  rw [evalList]
  · exact first.andThen (others.andThen (.done _ _))
  · exact List.cons_ne_nil _ _

theorem multi_one (one : e.isMulti = false) (gives : Gives depth (evalExpr env e h) v h₁) :
    Gives depth (evalMulti env e h) [v] h₁ := by
  rw [evalMulti_one one]
  exact gives.andThen (.done _ _)

theorem list_one (one : e.isMulti = false) (gives : Gives depth (evalExpr env e h) v h₁) :
    Gives depth (evalList env [e] h) [v] h₁ := list_last (multi_one one gives)

theorem multi_call (line : Nat) (callee : evalExpr env e h = .done f h)
    (given : Gives depth (evalList env args h) vs h₁) (room : depth.Admits (calls + 1) nested)
    (returns : Returns (depth.enter (callSite env e line))
      ⟨f, vs, callSite env e line⟩ h₁ values h₂) :
    Gives depth (evalMulti env (.call e args line) h) values h₂ := by
  have enough :=
    (room.enter_call (nested_callSite env e line)).mono (Nat.zero_le calls) (Nat.zero_le nested)
  rw [evalMulti]
  exact (of_eq callee).andThen (given.andThen (Gives.call enough returns (.done _ _)))

theorem expr_call (line : Nat) (callee : evalExpr env e h = .done f h)
    (given : Gives depth (evalList env args h) vs h₁) (room : depth.Admits (calls + 1) nested)
    (returns : Returns (depth.enter (callSite env e line))
      ⟨f, vs, callSite env e line⟩ h₁ values h₂) :
    Gives depth (evalExpr env (.call e args line) h) (values.headD .nil) h₂ := by
  have enough :=
    (room.enter_call (nested_callSite env e line)).mono (Nat.zero_le calls) (Nat.zero_le nested)
  rw [evalExpr]
  exact (of_eq callee).andThen (given.andThen (Gives.call enough returns (.done _ _)))

theorem expr_concat (line : Nat) (left : Gives depth (evalExpr env e h) (.string s) h₁)
    (right : Gives depth (evalExpr env e' h₁) (.string t) h₂) :
    Gives depth (evalExpr env (.concat e e' line) h) (.string (s ++ t)) h₂ := by
  rw [evalExpr]
  exact left.andThen (right.andThen (.done _ _))

theorem stmts_nil : Gives depth (execList env [] h) (.next env) h := by
  rw [execList]
  exact .done _ _

theorem stmts_next {stmt : Stmt} {after : List Stmt}
    (first : Gives depth (exec env stmt h) (.next env') h₁)
    (others : Gives depth (execList env' after h₁) flow h₂) :
    Gives depth (execList env (stmt :: after) h) flow h₂ := by
  rw [execList]
  exact first.andThen others

theorem stmts_stop {stmt : Stmt} {after : List Stmt} (leaves : ∀ env, flow ≠ .next env)
    (first : Gives depth (exec env stmt h) flow h₁) :
    Gives depth (execList env (stmt :: after) h) flow h₁ := by
  rw [execList]
  refine first.andThen ?_
  cases flow with
  | next env => exact absurd rfl (leaves env)
  | _ => exact .done _ _

theorem stmt_ret (returned : Gives depth (evalList env args h) vs h₁) :
    Gives depth (exec env (.ret args) h) (.ret vs) h₁ := by
  rw [exec]
  exact returned.andThen (.done _ _)

theorem stmt_tailCall (line : Nat) (callee : evalExpr env e h = .done f h)
    (given : Gives depth (evalList env args h) vs h₁) :
    Gives depth (exec env (.tailCall e args line) h) (.tail ⟨f, vs, callSite env e line⟩) h₁ := by
  rw [exec]
  exact (of_eq callee).andThen (given.andThen (.done _ _))

theorem stmts_tailCall (line : Nat) (after : List Stmt) (callee : evalExpr env e h = .done f h)
    (given : Gives depth (evalList env args h) vs h₁) :
    Gives depth (execList env (.tailCall e args line :: after) h)
      (.tail ⟨f, vs, callSite env e line⟩) h₁ :=
  stmts_stop (fun _ => Flow.noConfusion) (stmt_tailCall line callee given)

theorem stmt_expression (gives : Gives depth (evalMulti env e h) vs h₁) :
    Gives depth (exec env (.expression e) h) (.next env) h₁ := by
  rw [exec]
  exact gives.andThen (.done _ _)

theorem stmt_branch {yes no : List Stmt} (leaves : ∀ env, flow ≠ .next env)
    (condition : Gives depth (evalExpr env e h) v h₁)
    (branch : Gives depth (execList env (if v.truthy then yes else no) h₁) flow h₂) :
    Gives depth (exec env (.ifElse e yes no) h) flow h₂ := by
  rw [exec]
  refine condition.andThen ?_
  by_cases truthy : v.truthy = true
  · rw [if_pos truthy] at branch ⊢
    refine branch.andThen ?_
    cases flow with
    | next env => exact absurd rfl (leaves env)
    | _ => exact .done _ _
  · rw [if_neg truthy] at branch ⊢
    refine branch.andThen ?_
    cases flow with
    | next env => exact absurd rfl (leaves env)
    | _ => exact .done _ _

theorem stmt_pass {yes no : List Stmt} (env' : Env)
    (condition : Gives depth (evalExpr env e h) v h₁)
    (branch : Gives depth (execList env (if v.truthy then yes else no) h₁) (.next env') h₂) :
    Gives depth (exec env (.ifElse e yes no) h) (.next env) h₂ := by
  rw [exec]
  refine condition.andThen ?_
  by_cases truthy : v.truthy = true
  · rw [if_pos truthy] at branch ⊢
    exact branch.andThen (.done _ _)
  · rw [if_neg truthy] at branch ⊢
    exact branch.andThen (.done _ _)

theorem stmt_skip {yes : List Stmt} (condition : Gives depth (evalExpr env e h) v h₁)
    (not : v.truthy = false) :
    Gives depth (exec env (.ifElse e yes []) h) (.next env) h₁ := by
  refine .stmt_pass env condition ?_
  rw [not, if_neg Bool.false_ne_true]
  exact stmts_nil

theorem expr_emptyTable : Gives depth (evalExpr env (.table [] 0 0) h) (.table h.tables.size)
    (h.newTable (Table.empty.resized 0 0)).2 := by
  rw [evalExpr]
  refine (Gives.done h.tables.size (h.newTable (Table.empty.resized 0 0)).2).andThen
    (Gives.andThen (a := ()) ?_ (.done _ _))
  rw [evalFields]
  exact of_eq (storeItems_nil _ _)

theorem stmt_declare (count : Nat) {es : List Expr} (gives : Gives depth (evalList env es h) vs h₁)
    (binds : h₁.Binds env.scope ws) :
    ∃ env' h₂, Gives depth (exec env (.declare count es) h) (.next env') h₂ ∧
      h₂.Binds env'.scope ((adjust count vs).reverse ++ ws) ∧ Heap.Keeps none h₁ h₂ ∧
        h₂.tables = h₁.tables := by
  obtain ⟨env', h₂, declared, within, keeps, tables, -, -⟩ := declare_binds binds (adjust count vs)
  refine ⟨env', h₂, ?_, within, keeps, tables⟩
  rw [exec]
  exact gives.andThen ((of_eq declared).andThen (.done _ _))

theorem stmt_declareFunction (depth : Depth) (g : Function) (binds : h.Binds env.scope ws) :
    ∃ env' h' id, Gives depth (exec env (.declareFunction g) h) (.next env') h' ∧
      h'.Binds env'.scope (.closure id :: ws) ∧ h'.closures[id]? = some ⟨g, env'.scope, env.chunk⟩ ∧
      Heap.Keeps none h h' ∧ h'.tables = h.tables ∧ env'.varargs = env.varargs ∧
        env'.chunk = env.chunk := by
  let inner := env.push h.cells.size
  let code : Closure := ⟨g, inner.scope, env.chunk⟩
  let made := ((h.newCell .nil).2.newClosure code).2
  have function : evalExpr inner (.function g) (h.newCell .nil).2 =
      .done (.closure h.closures.size) made := by
    rw [evalExpr]
    rfl
  have run : Gives depth (exec env (.declareFunction g) h) (.next inner)
      (made.setCell h.cells.size (.closure h.closures.size)) := by
    rw [exec]
    exact (Gives.done h.cells.size (h.newCell .nil).2).andThen
      ((of_eq function).andThen ((Gives.done () _).andThen
      (.done _ _)))
  have keeps : Heap.Keeps none h (made.setCell h.cells.size (.closure h.closures.size)) := by
    have first := (Heap.Keeps.newCell h .nil).trans (Heap.Keeps.newClosure (h.newCell .nil).2 code)
    refine ⟨fun c v lies => ?_, first.closures, first.tables, first.size, rfl, rfl⟩
    have inside := (Array.getElem?_eq_some_iff.1 lies).1
    have apart : h.cells.size ≠ c := Nat.ne_of_gt inside
    simp only [Heap.setCell, Array.set!_eq_setIfInBounds, Array.getElem?_setIfInBounds,
      apart, if_false]
    exact first.cells c v lies
  refine ⟨inner, _, h.closures.size, run, .cons ?_ (binds.mono keeps), ?_, keeps, rfl, rfl, rfl⟩
  · simp [made, Heap.setCell, Heap.newCell, Heap.newClosure]
  · simp [made, code, Heap.setCell, Heap.newCell, Heap.newClosure]

/-- An assignment to an entry of a table without metatable.  The table and the key
are computed before the value, unless they are variables of the running
function. -/
theorem stmt_store (line : Nat) {id : TableId} {object key value : Expr} {t : Table} {k : Value}
    {place late : Action Value}
    (object_done : deferred env [] object (evalExpr env object) h = .done place h)
    (place_done : place h₁ = .done (.table id) h₁)
    (key_done : deferred env [] key (evalExpr env key) h = .done late h)
    (late_done : late h₁ = .done k h₁)
    (gives : Gives depth (evalList env [value] h) [v] h₁) (stored : h₁.tables[id]? = some t)
    (plain : t.metatable = none) (proper : k.toKey.isKey = true) :
    Gives depth (exec env (.assign [.entry object key line] [value]) h)
      (.next env) (h₁.set id k v) := by
  rw [exec]
  exact (of_eq (evalTargets_entry line object_done key_done)).andThen (gives.andThen
    ((of_eq (assignAll_entry line _ object v place_done late_done stored plain proper)).andThen
      (.done _ _)))

theorem stmt_assign (line : Nat) (object : ByteArray) (i : Nat) {id : TableId}
    {key value : Expr} {t : Table} {k : Value}
    {late : Action Value} (key_done : deferred env [] key (evalExpr env key) h = .done late h)
    (late_done : late h₁ = .done k h₁) (gives : Gives depth (evalList env [value] h) [v] h₁)
    (binds : h₁.Binds env.scope ws) (lies : ws[i]? = some (.table id))
    (stored : h₁.tables[id]? = some t) (plain : t.metatable = none)
    (proper : k.toKey.isKey = true) :
    Gives depth (exec env (.assign [.entry (.variable ⟨object, i, false⟩) key line] [value]) h)
      (.next env)
      (h₁.set id k v) :=
  stmt_store line deferred_own (read_eq binds lies) key_done late_done gives stored plain proper

end Gives

theorem leads_stmt {stmt : Stmt} {after : List Stmt}
    (gives : Gives depth (exec env stmt h) (.next env') h₁) :
    Leads depth (execList env (stmt :: after) h) (execList env' after h₁) := by
  rw [execList]
  exact .bind gives

end Calls

theorem answers_tail_builtin {depth : Depth} {x : Step Flow} {env : Env} {e : Expr} {b : Builtin}
    {vs values : List Value} {h h₁ : Heap} {line calls nested : Nat}
    (body : Gives depth x (.tail ⟨.builtin b, vs, callSite env e line⟩) h)
    (room : depth.Admits (calls + 1) nested)
    (gives : ∀ c, Gives (depth.enter (callSite env e line)) (b.run vs c h) values h₁) :
    Answers depth (.step x) values h₁ := by
  have enough :=
    (room.enter_call (nested_callSite env e line)).mono (Nat.zero_le calls) (Nat.zero_le nested)
  exact .of_tail_builtin body rfl enough (.of_builtin rfl gives)

/-- A function of a script is entered at its body, with the arguments in scope,
the last one nearest. -/
theorem enters_body {id : ClosureId} {body : List Stmt} {scope : List CellId} {chunk : ByteArray}
    {ws : List Value} {h : Heap} (args : List Value)
    (stored : h.closures[id]? = some ⟨.mk args.length false body, scope, chunk⟩)
    (binds : h.Binds scope ws) :
    ∃ env h', h'.Binds env.scope (args.reverse ++ ws) ∧
      Heap.Keeps none h h' ∧ h'.tables = h.tables ∧
      (h.closure id).enter args h = execList env body h' := by
  have outside : h.Binds (Env.mk scope [] chunk).scope ws := binds
  obtain ⟨env, h', run, after, keeps, tables, -, -⟩ := declare_binds outside args
  refine ⟨env, h', after, keeps, tables, ?_⟩
  have all : adjust args.length args = args := by simp [adjust]
  have unfolded : Closure.enter ⟨.mk args.length false body, scope, chunk⟩ args h =
      (Env.declare ⟨scope, [], chunk⟩ (adjust args.length args) h).bind fun env h =>
        execList env body h := rfl
  rw [Heap.closure_eq stored, unfolded, all, run, Step.bind]

theorem enter_variadic (body : List Stmt) (scope : List CellId) (chunk : ByteArray)
    (args : List Value) (h : Heap) :
    Closure.enter ⟨.mk 0 true body, scope, chunk⟩ args h =
      execList ⟨scope, args, chunk⟩ body h := by
  have nothing : adjust 0 args = [] := by simp [adjust]
  have unfolded : Closure.enter ⟨.mk 0 true body, scope, chunk⟩ args h =
      (Env.declare ⟨scope, args, chunk⟩ (adjust 0 args) h).bind fun env h =>
        execList env body h := rfl
  rw [unfolded, nothing]
  rfl

/-- A call of the function of a chunk comes to what the chunk comes to. -/
theorem returns_variadic {depth : Depth} {id : ClosureId} {body : List Stmt}
    {scope : List CellId} {chunk : ByteArray} {args values : List Value} {h h₁ : Heap}
    (stored : h.closures[id]? = some ⟨.mk 0 true body, scope, chunk⟩)
    (answers : Answers depth (.step (execList ⟨scope, args, chunk⟩ body h)) values h₁)
    (site : Site) :
    Returns depth ⟨.closure id, args, site⟩ h values h₁ := by
  refine .of_closure rfl ?_
  rw [Heap.closure_eq stored, enter_variadic]
  exact answers

end SealedLua.Lua
