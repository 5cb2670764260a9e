import SealedLua.Lua.Syntax
import Mathlib.Tactic.Common

/-!
# Equality of programs

A comparison of programs that can be computed.  Programs that it takes to be
the same are equal, so the reading of a chunk can be checked by running it.
-/

namespace SealedLua.Lua

mutual

def Expr.same (x y : Expr) : Bool :=
  match x with
  | .literal v => match y with | .literal v' => v = v' | _ => false
  | .varargs => match y with | .varargs => true | _ => false
  | .variable v => match y with | .variable v' => v = v' | _ => false
  | .index object key line =>
    match y with
    | .index object' key' line' => object.same object' && key.same key' && line == line'
    | _ => false
  | .call callee args line =>
    match y with
    | .call callee' args' line' => callee.same callee' && sameExprs args args' && line == line'
    | _ => false
  | .method object name args line =>
    match y with
    | .method object' name' args' line' => object.same object' && name = name' &&
      sameExprs args args' && line == line'
    | _ => false
  | .function f => match y with | .function f' => f.same f' | _ => false
  | .table fields items pairs =>
    match y with
    | .table fields' items' pairs' => sameFields fields fields' &&
      items == items' && pairs == pairs'
    | _ => false
  | .first e => match y with | .first e' => e.same e' | _ => false
  | .and left right =>
    match y with
    | .and left' right' => left.same left' && right.same right'
    | _ => false
  | .or left right =>
    match y with
    | .or left' right' => left.same left' && right.same right'
    | _ => false
  | .unary op e line =>
    match y with
    | .unary op' e' line' => op = op' && e.same e' && line == line'
    | _ => false
  | .arith op left right line =>
    match y with
    | .arith op' left' right' line' => op = op' && left.same left' &&
      right.same right' && line == line'
    | _ => false
  | .concat left right line =>
    match y with
    | .concat left' right' line' => left.same left' && right.same right' && line == line'
    | _ => false
  | .compare op left right line =>
    match y with
    | .compare op' left' right' line' => op = op' && left.same left' &&
      right.same right' && line == line'
    | _ => false

def sameExprs : List Expr → List Expr → Bool
  | [], [] => true
  | x :: xs, y :: ys => x.same y && sameExprs xs ys
  | _, _ => false

def Field.same (x y : Field) : Bool :=
  match x with
  | .item e => match y with | .item e' => e.same e' | _ => false
  | .pair key e line =>
    match y with
    | .pair key' e' line' => key.same key' && e.same e' && line == line'
    | _ => false

def sameFields : List Field → List Field → Bool
  | [], [] => true
  | x :: xs, y :: ys => x.same y && sameFields xs ys
  | _, _ => false

def Target.same (x y : Target) : Bool :=
  match x with
  | .variable v => match y with | .variable v' => v = v' | _ => false
  | .entry object key line =>
    match y with
    | .entry object' key' line' => object.same object' && key.same key' && line == line'
    | _ => false

def sameTargets : List Target → List Target → Bool
  | [], [] => true
  | x :: xs, y :: ys => x.same y && sameTargets xs ys
  | _, _ => false

def Stmt.same (x y : Stmt) : Bool :=
  match x with
  | .declare count values =>
    match y with
    | .declare count' values' => count == count' && sameExprs values values'
    | _ => false
  | .declareFunction f => match y with | .declareFunction f' => f.same f' | _ => false
  | .closing index name line rest =>
    match y with
    | .closing index' name' line' rest' => index == index' && name = name' &&
      line == line' && sameStmts rest rest'
    | _ => false
  | .assign targets values =>
    match y with
    | .assign targets' values' => sameTargets targets targets' && sameExprs values values'
    | _ => false
  | .expression e => match y with | .expression e' => e.same e' | _ => false
  | .block body => match y with | .block body' => sameStmts body body' | _ => false
  | .labelled body => match y with | .labelled body' => sameStmts body body' | _ => false
  | .label name depth =>
    match y with
    | .label name' depth' => name = name' && depth == depth'
    | _ => false
  | .goto name => match y with | .goto name' => name = name' | _ => false
  | .leave => match y with | .leave => true | _ => false
  | .ifElse condition yes no =>
    match y with
    | .ifElse condition' yes' no' => condition.same condition' &&
      sameStmts yes yes' && sameStmts no no'
    | _ => false
  | .whileLoop condition body =>
    match y with
    | .whileLoop condition' body' => condition.same condition' && sameStmts body body'
    | _ => false
  | .repeatLoop body => match y with | .repeatLoop body' => sameStmts body body' | _ => false
  | .untilTrue condition =>
    match y with
    | .untilTrue condition' => condition.same condition'
    | _ => false
  | .countLoop start limit step body line =>
    match y with
    | .countLoop start' limit' step' body' line' => start.same start' && limit.same limit' &&
      step.same step' && sameStmts body body' && line == line'
    | _ => false
  | .eachLoop count values body line =>
    match y with
    | .eachLoop count' values' body' line' => count == count' && sameExprs values values' &&
      sameStmts body body' && line == line'
    | _ => false
  | .ret values => match y with | .ret values' => sameExprs values values' | _ => false
  | .tailCall callee args line =>
    match y with
    | .tailCall callee' args' line' => callee.same callee' && sameExprs args args' && line == line'
    | _ => false
  | .tailMethod object name args line =>
    match y with
    | .tailMethod object' name' args' line' => object.same object' && name = name' &&
      sameExprs args args' && line == line'
    | _ => false

def sameStmts : List Stmt → List Stmt → Bool
  | [], [] => true
  | x :: xs, y :: ys => x.same y && sameStmts xs ys
  | _, _ => false

def Function.same : Function → Function → Bool
  | .mk params variadic body, .mk params' variadic' body' =>
    params == params' && variadic == variadic' && sameStmts body body'

end

mutual

theorem Expr.eq_of_same {x y : Expr} (h : x.same y = true) : x = y := by
  match x with
  | .literal v =>
    unfold Expr.same at h
    split at h
    · simp only [decide_eq_true_eq] at h
      rw [h]
    · cases h
  | .varargs =>
    unfold Expr.same at h
    split at h
    · rfl
    · cases h
  | .variable v =>
    unfold Expr.same at h
    split at h
    · simp only [decide_eq_true_eq] at h
      rw [h]
    · cases h
  | .index object key line =>
    unfold Expr.same at h
    split at h
    · simp only [Bool.and_eq_true, beq_iff_eq] at h
      rw [Expr.eq_of_same h.1.1, Expr.eq_of_same h.1.2, h.2]
    · cases h
  | .call callee args line =>
    unfold Expr.same at h
    split at h
    · simp only [Bool.and_eq_true, beq_iff_eq] at h
      rw [Expr.eq_of_same h.1.1, eq_of_sameExprs h.1.2, h.2]
    · cases h
  | .method object name args line =>
    unfold Expr.same at h
    split at h
    · simp only [Bool.and_eq_true, decide_eq_true_eq, beq_iff_eq] at h
      rw [Expr.eq_of_same h.1.1.1, h.1.1.2, eq_of_sameExprs h.1.2, h.2]
    · cases h
  | .function f =>
    unfold Expr.same at h
    split at h
    · rw [Function.eq_of_same h]
    · cases h
  | .table fields items pairs =>
    unfold Expr.same at h
    split at h
    · simp only [Bool.and_eq_true, beq_iff_eq] at h
      rw [eq_of_sameFields h.1.1, h.1.2, h.2]
    · cases h
  | .first e =>
    unfold Expr.same at h
    split at h
    · rw [Expr.eq_of_same h]
    · cases h
  | .and left right =>
    unfold Expr.same at h
    split at h
    · simp only [Bool.and_eq_true] at h
      rw [Expr.eq_of_same h.1, Expr.eq_of_same h.2]
    · cases h
  | .or left right =>
    unfold Expr.same at h
    split at h
    · simp only [Bool.and_eq_true] at h
      rw [Expr.eq_of_same h.1, Expr.eq_of_same h.2]
    · cases h
  | .unary op e line =>
    unfold Expr.same at h
    split at h
    · simp only [Bool.and_eq_true, decide_eq_true_eq, beq_iff_eq] at h
      rw [h.1.1, Expr.eq_of_same h.1.2, h.2]
    · cases h
  | .arith op left right line =>
    unfold Expr.same at h
    split at h
    · simp only [Bool.and_eq_true, decide_eq_true_eq, beq_iff_eq] at h
      rw [h.1.1.1, Expr.eq_of_same h.1.1.2, Expr.eq_of_same h.1.2, h.2]
    · cases h
  | .concat left right line =>
    unfold Expr.same at h
    split at h
    · simp only [Bool.and_eq_true, beq_iff_eq] at h
      rw [Expr.eq_of_same h.1.1, Expr.eq_of_same h.1.2, h.2]
    · cases h
  | .compare op left right line =>
    unfold Expr.same at h
    split at h
    · simp only [Bool.and_eq_true, decide_eq_true_eq, beq_iff_eq] at h
      rw [h.1.1.1, Expr.eq_of_same h.1.1.2, Expr.eq_of_same h.1.2, h.2]
    · cases h
termination_by structural x

theorem eq_of_sameExprs {x y : List Expr} (h : sameExprs x y = true) : x = y := by
  match x, y with
  | [], [] => rfl
  | [], _ :: _ | _ :: _, [] => simp only [sameExprs, Bool.false_eq_true] at h
  | x :: xs, y :: ys =>
    simp only [sameExprs, Bool.and_eq_true] at h
    rw [Expr.eq_of_same h.1, eq_of_sameExprs h.2]
termination_by structural x

theorem Field.eq_of_same {x y : Field} (h : x.same y = true) : x = y := by
  match x with
  | .item e =>
    unfold Field.same at h
    split at h
    · rw [Expr.eq_of_same h]
    · cases h
  | .pair key e line =>
    unfold Field.same at h
    split at h
    · simp only [Bool.and_eq_true, beq_iff_eq] at h
      rw [Expr.eq_of_same h.1.1, Expr.eq_of_same h.1.2, h.2]
    · cases h
termination_by structural x

theorem eq_of_sameFields {x y : List Field} (h : sameFields x y = true) : x = y := by
  match x, y with
  | [], [] => rfl
  | [], _ :: _ | _ :: _, [] => simp only [sameFields, Bool.false_eq_true] at h
  | x :: xs, y :: ys =>
    simp only [sameFields, Bool.and_eq_true] at h
    rw [Field.eq_of_same h.1, eq_of_sameFields h.2]
termination_by structural x

theorem Target.eq_of_same {x y : Target} (h : x.same y = true) : x = y := by
  match x with
  | .variable v =>
    unfold Target.same at h
    split at h
    · simp only [decide_eq_true_eq] at h
      rw [h]
    · cases h
  | .entry object key line =>
    unfold Target.same at h
    split at h
    · simp only [Bool.and_eq_true, beq_iff_eq] at h
      rw [Expr.eq_of_same h.1.1, Expr.eq_of_same h.1.2, h.2]
    · cases h
termination_by structural x

theorem eq_of_sameTargets {x y : List Target} (h : sameTargets x y = true) : x = y := by
  match x, y with
  | [], [] => rfl
  | [], _ :: _ | _ :: _, [] => simp only [sameTargets, Bool.false_eq_true] at h
  | x :: xs, y :: ys =>
    simp only [sameTargets, Bool.and_eq_true] at h
    rw [Target.eq_of_same h.1, eq_of_sameTargets h.2]
termination_by structural x

theorem Stmt.eq_of_same {x y : Stmt} (h : x.same y = true) : x = y := by
  match x with
  | .declare count values =>
    unfold Stmt.same at h
    split at h
    · simp only [Bool.and_eq_true, beq_iff_eq] at h
      rw [h.1, eq_of_sameExprs h.2]
    · cases h
  | .declareFunction f =>
    unfold Stmt.same at h
    split at h
    · rw [Function.eq_of_same h]
    · cases h
  | .closing index name line rest =>
    unfold Stmt.same at h
    split at h
    · simp only [Bool.and_eq_true, decide_eq_true_eq, beq_iff_eq] at h
      rw [h.1.1.1, h.1.1.2, h.1.2, eq_of_sameStmts h.2]
    · cases h
  | .assign targets values =>
    unfold Stmt.same at h
    split at h
    · simp only [Bool.and_eq_true] at h
      rw [eq_of_sameTargets h.1, eq_of_sameExprs h.2]
    · cases h
  | .expression e =>
    unfold Stmt.same at h
    split at h
    · rw [Expr.eq_of_same h]
    · cases h
  | .block body =>
    unfold Stmt.same at h
    split at h
    · rw [eq_of_sameStmts h]
    · cases h
  | .labelled body =>
    unfold Stmt.same at h
    split at h
    · rw [eq_of_sameStmts h]
    · cases h
  | .label name depth =>
    unfold Stmt.same at h
    split at h
    · simp only [Bool.and_eq_true, decide_eq_true_eq, beq_iff_eq] at h
      rw [h.1, h.2]
    · cases h
  | .goto name =>
    unfold Stmt.same at h
    split at h
    · simp only [decide_eq_true_eq] at h
      rw [h]
    · cases h
  | .leave =>
    unfold Stmt.same at h
    split at h
    · rfl
    · cases h
  | .ifElse condition yes no =>
    unfold Stmt.same at h
    split at h
    · simp only [Bool.and_eq_true] at h
      rw [Expr.eq_of_same h.1.1, eq_of_sameStmts h.1.2, eq_of_sameStmts h.2]
    · cases h
  | .whileLoop condition body =>
    unfold Stmt.same at h
    split at h
    · simp only [Bool.and_eq_true] at h
      rw [Expr.eq_of_same h.1, eq_of_sameStmts h.2]
    · cases h
  | .repeatLoop body =>
    unfold Stmt.same at h
    split at h
    · rw [eq_of_sameStmts h]
    · cases h
  | .untilTrue condition =>
    unfold Stmt.same at h
    split at h
    · rw [Expr.eq_of_same h]
    · cases h
  | .countLoop start limit step body line =>
    unfold Stmt.same at h
    split at h
    · simp only [Bool.and_eq_true, beq_iff_eq] at h
      rw [Expr.eq_of_same h.1.1.1.1, Expr.eq_of_same h.1.1.1.2, Expr.eq_of_same h.1.1.2,
        eq_of_sameStmts h.1.2, h.2]
    · cases h
  | .eachLoop count values body line =>
    unfold Stmt.same at h
    split at h
    · simp only [Bool.and_eq_true, beq_iff_eq] at h
      rw [h.1.1.1, eq_of_sameExprs h.1.1.2, eq_of_sameStmts h.1.2, h.2]
    · cases h
  | .ret values =>
    unfold Stmt.same at h
    split at h
    · rw [eq_of_sameExprs h]
    · cases h
  | .tailCall callee args line =>
    unfold Stmt.same at h
    split at h
    · simp only [Bool.and_eq_true, beq_iff_eq] at h
      rw [Expr.eq_of_same h.1.1, eq_of_sameExprs h.1.2, h.2]
    · cases h
  | .tailMethod object name args line =>
    unfold Stmt.same at h
    split at h
    · simp only [Bool.and_eq_true, decide_eq_true_eq, beq_iff_eq] at h
      rw [Expr.eq_of_same h.1.1.1, h.1.1.2, eq_of_sameExprs h.1.2, h.2]
    · cases h
termination_by structural x

theorem eq_of_sameStmts {x y : List Stmt} (h : sameStmts x y = true) : x = y := by
  match x, y with
  | [], [] => rfl
  | [], _ :: _ | _ :: _, [] => simp only [sameStmts, Bool.false_eq_true] at h
  | x :: xs, y :: ys =>
    simp only [sameStmts, Bool.and_eq_true] at h
    rw [Stmt.eq_of_same h.1, eq_of_sameStmts h.2]
termination_by structural x

theorem Function.eq_of_same {f g : Function} (h : f.same g = true) : f = g := by
  match f, g with
  | .mk params variadic body, .mk params' variadic' body' =>
    simp only [Function.same, Bool.and_eq_true, beq_iff_eq] at h
    rw [h.1.1, h.1.2, eq_of_sameStmts h.2]
termination_by structural f

end
end SealedLua.Lua
