import SealedLua.Proofs.Lua.Evaluation
import SealedLua.Proofs.Lua.Parsing

/-!
# Evaluating data

The tree of data comes to a value that says the data.  All tables of the value
are new, so that what was there before stays as it was, and the value goes on
to say the same while the constructor around it is filled.
-/

namespace SealedLua.Lua

namespace Heap

/-- A heap keeps all tables of another one from some place on. -/
def KeepsFrom (start : Nat) (h h' : Heap) : Prop :=
  ∀ (id : TableId) (t : Table), start ≤ id → h.tables[id]? = some t → h'.tables[id]? = some t

end Heap

namespace Represents

variable {h : Heap} {v : Value} {d : Data}

theorem key_cases {h' : Heap} {w : Value} (r : Represents h v d) (s : Represents h' w d)
    (key : v.isKey = true) :
    (w = v ∧ ∀ id, v ≠ .table id) ∨ ∃ id, w = .table id := by
  by_cases flat : ∀ id, v ≠ .table id
  · exact .inl ⟨r.eq_of_isKey s key flat, flat⟩
  · obtain ⟨id, rfl⟩ : ∃ id, v = .table id := by simpa using flat
    cases r with
    | table pairs =>
      obtain ⟨j, -, -, eq, -⟩ := table_iff.1 s
      exact .inr ⟨j, eq⟩

theorem isNil_iff (r : Represents h v d) : v.isNil = true ↔ d = .nil := by
  cases r <;> simp [Value.isNil]

end Represents

namespace Data

/-- An expression comes at once to a value that says this and is made of new tables. -/
def Builds (e : Expr) (d : Data) : Prop :=
  ∀ (env : Env) (h : Heap), ∃ w h', evalExpr env e h = .done w h' ∧ Heap.Keeps none h h' ∧
    (∀ id, w = .table id → h.tables.size ≤ id) ∧ ∀ h'', h'.KeepsFrom h.tables.size h'' →
      Represents h'' w d

theorem ownVariable?_tree (d : Data) : d.tree.ownVariable? = none := by
  cases d with
  | double x =>
    rw [tree, doubleTree]
    split
    · rfl
    · split <;> rfl
  | _ => rfl

theorem Builds.of_pure {e : Expr} {d : Data} {w : Value} (flat : ∀ id, w ≠ .table id)
    (eval : ∀ env h, evalExpr env e h = .done w h) (means : ∀ h, Represents h w d) : Builds e d :=
  fun env h =>
    ⟨w, h, eval env h, .refl none h, fun id eq => absurd eq (flat id), fun h'' _ => means h''⟩

theorem builds_double (x : Double) : Builds (doubleTree x) (.double x) := by
  unfold doubleTree
  split
  · next nan =>
    have operand : ∀ env h, evalExpr env (number (.integer 0)) h = .done (.integer 0) h :=
      fun env h => evalExpr_literal env h _
    have invalid : ((Double.ofInt 0).div (Double.ofInt 0)).isNaN = true := by decide +kernel
    refine .of_pure (w := .double ((Double.ofInt 0).div (Double.ofInt 0)))
      (fun _ => Value.noConfusion) (fun env h => ?_) fun _ => .double (.inr ⟨invalid, nan⟩)
    rw [evalExpr, evalExpr_arith_eq (operands_apart env rfl (operand env h) (operand env h))]
    rfl
  split
  · next zero =>
    rw [Bool.and_eq_true] at zero
    refine .of_pure (w := .double x) (fun _ => Value.noConfusion) (fun env h => ?_) fun _ =>
      .double (.inl rfl)
    have unfolded : evalExpr env (.unary .negate (number (.double (.zero false))) 1) h =
        (evalExpr env (number (.double (.zero false))) h).bind fun v h =>
          negate (some (env.position 1)) v (number (.double (.zero false))).naming? h := by
      rw [evalExpr]
      rfl
    have operand : evalExpr env (number (.double (.zero false))) h =
      .done (.double (.zero false)) h := evalExpr_literal env h _
    rw [unfolded, operand, Step.bind, x.eq_neg_zero zero.2 zero.1]
    rfl
  · exact .of_pure (fun _ => Value.noConfusion) (fun env h => evalExpr_literal env h _) fun _ =>
      .double (.inl rfl)

theorem evalFields_pair {env : Env} {id : TableId} {key value : Expr} {rest : List Field}
    {w u : Value} {h h₁ h₂ : Heap}
    (line : Nat) (apart : key.ownVariable? = none) (eval_key : evalExpr env key h = .done w h₁)
    (eval_value : evalExpr env value h₁ = .done u h₂) (proper : w.isKey = true) :
    evalFields env id (.pair key value line :: rest) [] 0 h =
      evalFields env id rest [] 0 (h₂.set id w u) := by
  have unfolded : evalFields env id (.pair key value line :: rest) [] 0 h =
      (operands env key (evalExpr env key) (evalExpr env value) h).bind fun q h =>
        (store (some (env.position line)) id q.1 q.2 h).bind fun _ h =>
          evalFields env id rest [] 0 h := by
    rw [evalFields]
    rfl
  rw [unfolded, operands_apart env apart eval_key eval_value, Step.bind,
    store_of_isKey (by rwa [Value.toKey_of_isKey proper]), Step.bind]

/-- A table that is being filled.  It has no entry yet for the keys to come,
as far as they are the same in every heap, and none for tables that are still
to be made. -/
structure Filling (h : Heap) (id : TableId) (t : Table) (keys : List Value) : Prop where
  stored : h.tables[id]? = some t
  unused : ∀ key ∈ keys, (∀ j, key ≠ .table j) → t.get key = .nil
  unmade : ∀ j, h.tables.size ≤ j → t.get (.table j) = .nil

namespace Filling

variable {h h' : Heap} {id : TableId} {t : Table} {key w : Value} {keys : List Value}

theorem later (f : Filling h id t keys) (keeps : Heap.Keeps none h h') : Filling h' id t keys :=
  ⟨keeps.kept id t f.stored, f.unused, fun j le => f.unmade j (Nat.le_trans keeps.size le)⟩

theorem new (f : Filling h id t (key :: keys))
    (same : (w = key ∧ ∀ j, key ≠ .table j) ∨ ∃ j, w = .table j)
    (fresh : ∀ j, w = .table j → h.tables.size ≤ j) : t.get w = .nil := by
  rcases same with ⟨rfl, flat⟩ | ⟨j, rfl⟩
  · exact f.unused w List.mem_cons_self flat
  · exact f.unmade j (fresh j rfl)

/-- After an entry for the next key, the table is ready for the others. -/
theorem store (f : Filling h id t (key :: keys))
    (same : (w = key ∧ ∀ j, key ≠ .table j) ∨ ∃ j, w = .table j)
    (made : ∀ j, w = .table j → j < h.tables.size) (proper : w.isKey = true)
    (others : ∀ l ∈ keys, l.isKey = true)
    (distinct : key ∉ keys) (u : Value) : Filling (h.set id w u) id (t.set w u) keys := by
  have canonical := Value.toKey_of_isKey proper
  refine ⟨Heap.tables_set f.stored w u, fun l mem flat => ?_, fun j le => ?_⟩
  · rw [Table.get_set t (by rwa [canonical]), canonical,
      Value.toKey_of_isKey (others l mem), if_neg]
    · exact f.unused l (List.mem_cons_of_mem _ mem) flat
    · rcases same with ⟨rfl, -⟩ | ⟨j, rfl⟩
      · rintro rfl
        exact distinct mem
      · exact flat j
  · rw [(Heap.ChangesOnly.set id h w u).size] at le
    rw [Table.get_set t (by rwa [canonical]), canonical, if_neg]
    · exact f.unmade j le
    · intro eq
      exact Nat.not_lt.2 le (made j eq.symm)

end Filling

mutual

/-- The tree of what some value says comes to a value that says it again. -/
theorem builds_tree : ∀ (d : Data) {base : Heap} {v : Value}, Represents base v d → Builds d.tree d
  | .nil, _, _, _ =>
    .of_pure (fun _ => Value.noConfusion) (fun env h => evalExpr_literal env h _) fun _ => .nil
  | .boolean b, _, _, _ =>
    .of_pure (fun _ => Value.noConfusion) (fun env h => evalExpr_literal env h _) fun _ =>
      .boolean b
  | .integer n, _, _, _ =>
    .of_pure (fun _ => Value.noConfusion) (fun env h => evalExpr_literal env h _) fun _ =>
      .integer n
  | .double x, _, _, _ => builds_double x
  | .string s, _, _, _ =>
    .of_pure (fun _ => Value.noConfusion) (fun env h => evalExpr_literal env h _) fun _ => .string s
  | .table entries, base, v, r => by
    obtain ⟨_, t, slots, rfl, stored, plain, all, means⟩ := Represents.table_iff.1 r
    have distinct : (slots.map (·.1)).Nodup := (all.map (·.1)).nodup_iff.1 t.nodup_live
    have proper : ∀ s ∈ slots, s.1.isKey = true ∧ s.2.isNil = false := fun s mem =>
      have live := t.mem_live_iff_get.1 (all.mem_iff.2 mem)
      ⟨live.1, live.2.1⟩
    intro env h
    let empty := Table.empty.resized 0 (fields entries).length
    have nothing : ∀ key, empty.get key = .nil := fun key => by
      rw [Table.get, Table.look_resized]
      exact Table.get_empty key
    have filling : Filling (h.newTable empty).2 h.tables.size empty (slots.map (·.1)) :=
      ⟨by simp [Heap.newTable], fun key _ _ => nothing key, fun j _ => nothing _⟩
    obtain ⟨h', t', made, eval, keeps, stored', plain', all', means'⟩ :=
      fills entries means distinct proper env filling
    have unfolded : evalExpr env (tree (.table entries)) h =
        (evalFields env h.tables.size (fields entries) [] 0 (h.newTable empty).2).bind fun _ h' =>
          .done (.table h.tables.size) h' := by
      rw [tree, evalExpr]
      rfl
    have bare : empty.live = [] := by
      refine List.eq_nil_iff_forall_not_mem.2 fun s mem => ?_
      have found := empty.mem_live_iff_get.1 (show (s.1, s.2) ∈ empty.live from mem)
      rw [nothing] at found
      rw [← found.2.2] at found
      cases found.2.1
    rw [bare, List.append_nil] at all'
    refine ⟨.table h.tables.size, h', by rw [unfolded, eval]; rfl,
      (Heap.Keeps.newTable h empty).forget keeps (Nat.le_refl _), ?_, fun h'' kept => ?_⟩
    · rintro id ⟨⟩
      exact Nat.le_refl _
    · refine Represents.table_iff.2
        ⟨_, t', made, rfl, kept _ _ (Nat.le_refl _) stored', ?_, all',
          means' h'' fun j t'' le lies => ?_⟩
      · rw [plain', Table.metatable_resized]
        rfl
      · exact kept j t'' (Nat.le_trans (Heap.Keeps.newTable h empty).size le) lies

/-- The fields of a constructor fill its table with values that say the entries. -/
theorem fills : ∀ (entries : List (Data × Data)) {base : Heap} {slots : List (Value × Value)},
    List.Forall₂ (Means base) slots entries → (slots.map (·.1)).Nodup →
    (∀ s ∈ slots, s.1.isKey = true ∧ s.2.isNil = false) →
      ∀ (env : Env) {h : Heap} {id : TableId} {t : Table},
      Filling h id t (slots.map (·.1)) →
      ∃ h' t' made, evalFields env id (fields entries) [] 0 h = .done () h' ∧
        Heap.Keeps (some id) h h' ∧
        h'.tables[id]? = some t' ∧ t'.metatable = t.metatable ∧ t'.live.Perm (made ++ t.live) ∧
        ∀ h'', h'.KeepsFrom h.tables.size h'' → List.Forall₂ (Means h'') made entries
  | [], base, slots, means, distinct, proper, env, h, id, t, filling => by
    refine ⟨h, t, [], ?_, .refl _ h, filling.stored, rfl, .refl _, fun _ _ => .nil⟩
    rw [fields, evalFields]
    exact storeItems_nil id h
  | (k, v) :: rest, base, slots, means, distinct, proper, env, h, id, t, filling => by
    obtain ⟨s, slots, ⟨key, item⟩, others, rfl⟩ := List.forall₂_cons_right_iff.1 means
    obtain ⟨w, h₁, eval_key, keeps₁, fresh, means_key⟩ := builds_tree k key env h
    obtain ⟨u, h₂, eval_item, keeps₂, -, means_item⟩ := builds_tree v item env h₁
    obtain ⟨here, proper⟩ := List.forall_mem_cons.1 proper
    rw [List.map_cons] at distinct filling
    obtain ⟨apart, distinct⟩ := List.nodup_cons.1 distinct
    have says_key : Represents h₁ w k := means_key h₁ fun _ _ _ lies => lies
    have says_item : Represents h₂ u v := means_item h₂ fun _ _ _ lies => lies
    have same := key.key_cases says_key here.1
    have w_key : w.isKey = true := by
      rcases same with ⟨rfl, -⟩ | ⟨j, rfl⟩
      · exact here.1
      · rfl
    have u_there : u.isNil = false := by
      rw [Bool.eq_false_iff, ne_eq, says_item.isNil_iff, ← item.isNil_iff, here.2]
      exact Bool.false_ne_true
    have made : ∀ j, w = .table j → j < h₂.tables.size := by
      rintro j rfl
      cases says_key with
      | table pairs stored =>
        exact Nat.lt_of_lt_of_le (Array.getElem?_eq_some_iff.1 stored).1 keeps₂.size
    have keys : ∀ l ∈ slots.map (·.1), l.isKey = true := List.forall_mem_map.2 fun s mem =>
      (proper s mem).1
    have filling₃ := (filling.later (keeps₁.trans keeps₂)).store same made w_key keys apart u
    have changes := Heap.ChangesOnly.set id h₂ w u
    have keeps₃ : Heap.Keeps (some id) h (h₂.set id w u) :=
      ((keeps₁.trans keeps₂).weaken _).changes changes (.inl rfl)
    obtain ⟨h', t', rest_made, eval_rest, keeps', stored', plain', all', means'⟩ :=
      fills rest others distinct proper env filling₃
    refine ⟨h', t', (w, u) :: rest_made, ?_, keeps₃.trans keeps', stored',
      plain'.trans (t.metatable_set w u), ?_,
      fun h'' kept => ?_⟩
    · rw [fields, field, evalFields_pair 1 (ownVariable?_tree k) eval_key
        eval_item w_key, eval_rest]
    · have one := t.live_set w_key (filling.new same fresh) u_there
      exact all'.trans ((one.append_left _).trans List.perm_middle)
    · have inside : id < h.tables.size := (Array.getElem?_eq_some_iff.1 filling.stored).1
      have new : h₂.KeepsFrom h.tables.size h'' := by
        intro j t' le lies
        have other : j ≠ id := Nat.ne_of_gt (Nat.lt_of_lt_of_le inside le)
        exact kept j t' le (keeps'.tables j t' (fun eq => other (Option.some.inj eq))
          ((changes.others j other).trans lies))
      refine .cons ⟨means_key h'' fun j t' le lies => ?_, means_item h'' fun j t' le lies => ?_⟩
        (means' h'' fun j t' le lies => ?_)
      · exact new j t' le (keeps₂.kept j t' lies)
      · exact new j t' (Nat.le_trans keeps₁.size le) lies
      · exact kept j t' (Nat.le_trans keeps₃.size le) lies

end

theorem isMulti_tree (d : Data) : d.tree.isMulti = false := by
  cases d with
  | double x =>
    rw [tree, doubleTree]
    split
    · rfl
    · split <;> rfl
  | _ => rfl

/-- A function that returns the tree of data returns a value that says the data. -/
theorem returns_tree {base h : Heap} {v : Value} {d : Data} {id : ClosureId}
    {scope : List CellId} {chunk : ByteArray}
    (stored : h.closures[id]? = some ⟨.mk 0 true [.ret [d.tree]], scope, chunk⟩)
    (r : Represents base v d) (depth : Depth) (site : Site) :
    ∃ w h', Returns depth ⟨.closure id, [], site⟩ h [w] h' ∧
      Heap.Keeps none h h' ∧ Represents h' w d := by
  obtain ⟨w, h', eval, keeps, -, means⟩ := builds_tree d r ⟨scope, [], chunk⟩ h
  have body : Gives depth (execList ⟨scope, [], chunk⟩ [.ret [d.tree]] h) (.ret [w]) h' :=
    .stmts_stop (fun _ => Flow.noConfusion) (.stmt_ret (.list_one (isMulti_tree d) (.of_eq eval)))
  exact ⟨w, h', returns_variadic stored (.of_ret body) site, keeps, means h' fun _ _ _ lies => lies⟩

end Data
end SealedLua.Lua
