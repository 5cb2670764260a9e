import SealedLua.Proofs.Engine.RoundTrip

/-!
# Values that are refused

The rendering routine raises a text for a value that shows none, and all that was
in the heap before is as it was.  The induction is on the calls that are left, so
the routine comes to an end whatever the tables of a heap hold.

A value is refused if there is a function in it, or a failure of the host, or a
table that is on the way to itself.  Such a value shows no text, and any other
shows one if there are calls enough for it.
-/

namespace SealedLua.Lua

/-- From a value no way goes through more than so many tables before it ends or
comes back to a table of the path.  A table on the way is walked by `next` and
has fewer entries than `table.sort` refuses. -/
inductive Descends (h : Heap) : List TableId → Nat → Value → Prop
  | flat {path : List TableId} {n : Nat} {v : Value} (flat : ∀ id, v ≠ .table id) :
  Descends h path n v
  | again {path : List TableId} {n : Nat} {id : TableId} (onPath : id ∈ path) :
    Descends h path n (.table id)
  | table {path : List TableId} {n : Nat} {id : TableId} {t : Table}
      (stored : h.tables[id]? = some t) (walked : h.Walked t)
      (few : t.live.length < 0x7FFFFFFF) (keys : ∀ e ∈ t.live, Descends h (id :: path) n e.1)
      (items : ∀ e ∈ t.live, Descends h (id :: path) n e.2) : Descends h path (n + 1) (.table id)

/-- A key or an item of a table. -/
inductive Heap.Entry (h : Heap) : Value → Value → Prop
  | key {id : TableId} {t : Table} {e : Value × Value} (stored : h.tables[id]? = some t)
    (mem : e ∈ t.live) :
      Entry h (.table id) e.1
  | item {id : TableId} {t : Table} {e : Value × Value} (stored : h.tables[id]? = some t)
      (mem : e ∈ t.live) :
      Entry h (.table id) e.2

theorem Heap.Entry.table {h : Heap} {v w : Value} (entry : h.Entry v w) : ∃ id, v = .table id := by
  cases entry <;> exact ⟨_, rfl⟩

theorem Heap.entry_iff {h : Heap} {id : TableId} {t : Table} {w : Value}
    (stored : h.tables[id]? = some t) :
    h.Entry (.table id) w ↔ ∃ e ∈ t.live, w = e.1 ∨ w = e.2 := by
  constructor
  · rintro (⟨stored', mem⟩ | ⟨stored', mem⟩)
    all_goals
      rw [stored] at stored'
      cases stored'
    · exact ⟨_, mem, .inl rfl⟩
    · exact ⟨_, mem, .inr rfl⟩
  · rintro ⟨e, mem, rfl | rfl⟩
    · exact .key stored mem
    · exact .item stored mem

/-- Functions and failures of the host have no text that says what they are. -/
def Value.Odd (v : Value) : Prop := v.typeName = "function" ∨ v.typeName = "userdata"

theorem Value.not_odd_table (id : TableId) : ¬(Value.table id).Odd := by simp [Odd, typeName]

/-- Below the tables of a path there is something in a value that cannot be rendered. -/
inductive Refused (h : Heap) : List TableId → Value → Prop
  | odd {path : List TableId} {v : Value} (odd : v.Odd) : Refused h path v
  | cycle {path : List TableId} {id : TableId} (onPath : id ∈ path) : Refused h path (.table id)
  | key {path : List TableId} {id : TableId} {t : Table} {e : Value × Value}
      (stored : h.tables[id]? = some t)
      (mem : e ∈ t.live) (key : Refused h (id :: path) e.1) : Refused h path (.table id)
  | item {path : List TableId} {id : TableId} {t : Table} {e : Value × Value}
      (stored : h.tables[id]? = some t)
      (mem : e ∈ t.live) (item : Refused h (id :: path) e.2) : Refused h path (.table id)

namespace Refused

variable {h : Heap} {path : List TableId} {id : TableId} {t : Table} {v : Value}

theorem table_iff (stored : h.tables[id]? = some t) (off : id ∉ path) :
    Refused h path (.table id) ↔ ∃ e ∈ t.live, Refused h (id :: path) e.1 ∨
      Refused h (id :: path) e.2 := by
  constructor
  · intro refused
    cases refused with
    | odd odd => exact absurd odd (Value.not_odd_table id)
    | cycle onPath => exact absurd onPath off
    | key stored' mem key =>
      rw [stored] at stored'
      cases stored'
      exact ⟨_, mem, .inl key⟩
    | item stored' mem item =>
      rw [stored] at stored'
      cases stored'
      exact ⟨_, mem, .inr item⟩
  · rintro ⟨e, mem, key | item⟩
    · exact .key stored mem key
    · exact .item stored mem item

theorem flat_iff (flat : ∀ id, v ≠ .table id) : Refused h path v ↔ v.Odd := by
  constructor
  · intro refused
    cases refused with
    | odd odd => exact odd
    | _ => exact absurd rfl (flat _)
  · exact .odd

end Refused

theorem Value.represents_of_flat {h : Heap} {v : Value} (flat : ∀ id, v ≠ .table id)
    (even : ¬v.Odd) :
    ∃ d, Represents h v d := by
  cases v with
  | nil => exact ⟨_, .nil⟩
  | boolean b => exact ⟨_, .boolean b⟩
  | integer n => exact ⟨_, .integer n⟩
  | double x => exact ⟨_, .double (.inl rfl)⟩
  | string s => exact ⟨_, .string s⟩
  | table id => exact absurd rfl (flat id)
  | failure => exact absurd (.inr rfl) even
  | _ => exact absurd (.inl rfl) even

theorem Value.exists_shows_of_flat {h : Heap} {path : List TableId} {n : Nat} {v : Value}
    (flat : ∀ id, v ≠ .table id) (even : ¬v.Odd) : ∃ text, Shows h path (n + 2) v text := by
  obtain ⟨d, means⟩ := represents_of_flat (h := h) flat even
  have two := d.calls_le
  have level : d.depth = 0 := by
    cases means with
    | table => exact absurd rfl (flat _)
    | _ => rfl
  exact ⟨_, .flat means flat (by omega)⟩

namespace Represents

variable {h : Heap} {v : Value} {d : Data}

theorem next {w : Value} (r : Represents h v d) (entry : h.Entry v w) :
    ∃ e, Represents h w e ∧ e.depth < d.depth ∧ e.width ≤ d.width := by
  cases r with
  | @table id t pairs stored plain all keys items =>
    have depths := Data.depthAll_le.1 (Nat.le_refl (Data.depthAll (pairs.map (·.2))))
    have widths :=
      Data.widthAll_le.1
        (Nat.le_max_right (pairs.map (·.2)).length (Data.widthAll (pairs.map (·.2))))
    obtain ⟨e, mem, part⟩ := (Heap.entry_iff stored).1 entry
    obtain ⟨p, among, rfl⟩ := List.mem_map.1 (all.mem_iff.1 mem)
    have image := List.mem_map_of_mem (f := Prod.snd) among
    rcases part with rfl | rfl
    · exact ⟨_, keys p among, Nat.lt_succ_of_le (depths _ image).1, (widths _ image).1⟩
    · exact ⟨_, items p among, Nat.lt_succ_of_le (depths _ image).2, (widths _ image).2⟩
  | _ => cases entry

theorem descends (r : Represents h v d) (narrow : d.width < 0x7FFFFFFF) {path : List TableId}
    {n : Nat} (shallow : d.depth ≤ n) :
    Descends h path n v := by
  induction r generalizing path n with
  | @table id t pairs stored plain all _ _ keys items =>
    obtain ⟨n, rfl⟩ : ∃ m, n = m + 1 := ⟨n - 1, by rw [Data.depth] at shallow; omega⟩
    have depths := Data.depthAll_le.1 (Nat.le_of_succ_le_succ shallow)
    have widths := Data.widthAll_le.1 (Nat.le_refl (Data.widthAll (pairs.map (·.2))))
    have narrower : Data.widthAll (pairs.map (·.2)) < 0x7FFFFFFF :=
      Nat.lt_of_le_of_lt (Nat.le_max_right _ _) narrow
    have few : t.live.length < 0x7FFFFFFF := by
      rw [length_live all]
      exact Nat.lt_of_le_of_lt (Nat.le_max_left _ _) narrow
    have beside : ∀ e ∈ t.live, ∃ p ∈ pairs, p.1 = e := fun e mem =>
      List.mem_map.1 (all.mem_iff.1 mem)
    refine .table stored (Heap.walked_of_plain plain) few (fun e mem => ?_) fun e mem => ?_
    · obtain ⟨p, among, rfl⟩ := beside e mem
      have image := List.mem_map_of_mem (f := Prod.snd) among
      exact keys p among (Nat.lt_of_le_of_lt (widths _ image).1 narrower) (depths _ image).1
    · obtain ⟨p, among, rfl⟩ := beside e mem
      have image := List.mem_map_of_mem (f := Prod.snd) among
      exact items p among (Nat.lt_of_le_of_lt (widths _ image).2 narrower) (depths _ image).2
  | _ => exact .flat fun _ => Value.noConfusion

theorem not_refused (r : Represents h v d) {path : List TableId} (above : Above h path d) :
    ¬Refused h path v := by
  intro refused
  induction refused generalizing d with
  | odd odd => cases r <;> exact absurd odd (by simp [Value.Odd, Value.typeName])
  | cycle onPath => exact above.off r onPath
  | key stored mem _ key =>
    obtain ⟨e, means, below, -⟩ := r.next (.key stored mem)
    exact key means (above.cons r below)
  | item stored mem _ item =>
    obtain ⟨e, means, below, -⟩ := r.next (.item stored mem)
    exact item means (above.cons r below)

end Represents

/-- Below a path each table that is met is stored and walked by `next`, and has
fewer entries than a memory has places. -/
def Heap.Traversable (h : Heap) (path : List TableId) (v : Value) : Prop :=
  ∃ within : List TableId → Value → Prop, within path v ∧ ∀ path id,
    within path (.table id) → id ∉ path →
    ∃ t, h.tables[id]? = some t ∧ h.Walked t ∧ t.live.length < 2 ^ 62 ∧
      ∀ e ∈ t.live, within (id :: path) e.1 ∧ within (id :: path) e.2

theorem Heap.Traversable.table {h : Heap} {path : List TableId} {id : TableId}
    (traversable : h.Traversable path (.table id))
    (off : id ∉ path) : ∃ t, h.tables[id]? = some t ∧ h.Walked t ∧ t.live.length < 2 ^ 62 ∧
      ∀ e ∈ t.live, h.Traversable (id :: path) e.1 ∧ h.Traversable (id :: path) e.2 := by
  obtain ⟨within, here, closed⟩ := traversable
  obtain ⟨t, stored, walked, small, inside⟩ := closed path id here off
  exact ⟨t, stored, walked, small, fun e mem =>
    ⟨⟨within, (inside e mem).1, closed⟩, ⟨within, (inside e mem).2, closed⟩⟩⟩

def Hides (h : Heap) (path : List TableId) (calls : Nat) (v : Value) : Prop :=
  ∀ text, ¬Shows h path calls v text

theorem Refused.hides {h : Heap} {path : List TableId} {v : Value} (refused : Refused h path v)
    (calls : Nat) :
    Hides h path calls v := by
  intro text shows
  induction shows with
  | @flat path calls v d means flat _ =>
    exact means.not_refused (List.forall_mem_nil _) (.odd ((Refused.flat_iff flat).1 refused))
  | table texts stored _ off _ _ _ keys items =>
    obtain ⟨e, mem, key | item⟩ := (Refused.table_iff stored off).1 refused
    · exact keys e mem key
    · exact items e mem item

namespace Descends

variable {h : Heap} {path : List TableId} {n : Nat} {v : Value}

theorem traversable (descends : Descends h path n v) : h.Traversable path v := by
  refine ⟨fun path v => ∃ n, Descends h path n v, ⟨n, descends⟩, ?_⟩
  rintro path id ⟨n, descends⟩ off
  cases descends with
  | flat flat => exact absurd rfl (flat id)
  | again onPath => exact absurd onPath off
  | table stored walked few keys items =>
    exact ⟨_, stored, walked, by omega, fun e mem => ⟨⟨_, keys e mem⟩, ⟨_, items e mem⟩⟩⟩

/-- What is not refused shows a text if there is a call for each table on a way, and two more. -/
theorem exists_shows (descends : Descends h path n v) (taken : ¬Refused h path v) :
    ∃ text, Shows h path (n + 2) v text := by
  induction descends with
  | flat flat => exact Value.exists_shows_of_flat flat fun odd => taken (.odd odd)
  | again onPath => exact absurd (.cycle onPath) taken
  | @table path n id t stored walked few _ _ keys items =>
    by_cases onPath : id ∈ path
    · exact absurd (.cycle onPath) taken
    exact Shows.exists_table stored walked onPath few fun e mem =>
      ⟨keys e mem fun refused => taken (.key stored mem refused), items e mem fun refused =>
        taken (.item stored mem refused)⟩

end Descends

namespace DumpChunk

section Errors

variable {h h₁ : Heap} {env : Env} {vs : List Value} {depth : Depth} {e : Expr}
  {s : ByteArray} {i line : Nat}

theorem raises_text (binds : h.Binds env.scope vs) (lies : vs[i]? = some (.table Heap.globals))
    (held : h.get Heap.globals (.ofAscii "error") = .builtin .error)
    (given : Gives depth (evalExpr env e h) (.string s) h) (room : depth.Admits 1 0) :
    Raises depth
      (exec env
        (.expression (.call (global "error" i line) [e, .literal (.number (.integer 0))] line)) h)
      h := by
  have callee := eval_global "error" i line binds lies held rfl
  have arguments : Gives depth (evalList env [e, .literal (.number (.integer 0))] h)
      [.string s, .integer 0] h :=
    .list_cons given (.list_one rfl (.of_eq (evalExpr_literal env h (.number (.integer 0)))))
  exact .stmt_expression
    (.multi_call line callee arguments room (.of_builtin rfl fun _ => .of_eq rfl))

theorem choose_none {kind : String} (binds : h.Binds env.scope (.ofAscii kind :: vs))
    (odd : kind = "function" ∨ kind = "userdata") :
    Gives depth (exec env choice h) (.next env) h := by
  rcases odd with rfl | rfl <;>
    exact .stmt_pass env (.of_eq (eval_kind_plain binds))
      (.stmts_next (.stmt_pass env (.of_eq (eval_kind binds "number" 15))
        (.stmts_next (.stmt_pass env (.of_eq (eval_kind binds "string" 17))
          (.stmts_next (.stmt_skip (.of_eq (eval_kind binds "table" 19)) rfl) .stmts_nil))
          .stmts_nil)) .stmts_nil)

theorem choose_raising (binds : h.Binds env.scope (.ofAscii "table" :: vs))
    (branch : Raises depth (execList env table h) h₁) : Raises depth (exec env choice h) h₁ :=
  .stmt_branch (.of_eq (eval_kind_plain binds))
    (.stmts_first (.stmt_branch (.of_eq (eval_kind binds "number" 15))
      (.stmts_first (.stmt_branch (.of_eq (eval_kind binds "string" 17))
        (.stmts_first (.stmt_branch (.of_eq (eval_kind binds "table" 19)) branch))))))

end Errors

section Refusing

variable {base h start : Heap} {dumpId quoteId : ClosureId} {visiting list : TableId}
  {marks : Value → Value} {depth : Depth} {scope : List CellId} {ws : List Value}
  {texts : List (List UInt8)} {calls : Nat} {path : List TableId} {v : Value}

/-- The routine raises a text instead of rendering a value, wherever exactly so
many calls are left. -/
def Unrenderable (base : Heap) (dumpId quoteId : ClosureId) (visiting : TableId)
    (marks : Value → Value) (calls : Nat) (v : Value) : Prop :=
  ∀ (depth : Depth) (h : Heap), Ready base dumpId quoteId visiting h → Marks visiting marks h →
    depth.Leaves calls 1 →
    ∀ site, ∃ h', Throws depth ⟨.closure dumpId, [v, .table visiting], site⟩ h h' ∧
      Heap.Keeps (some visiting) h h'

/-- Where no calls are left, the type of a value cannot be asked for. -/
theorem unrenderable_deep (v : Value) : Unrenderable base dumpId quoteId visiting marks 0 v := by
  intro depth h ready marked full site
  obtain ⟨env, h', entered, callee, given, -, keeps⟩ := dump_begins ready depth v
  refine ⟨h', .of_closure rfl (.of_raises ?_), keeps.weaken _⟩
  rw [entered]
  exact .stmts_first
    (.stmt_declare 1 (.list_last (.multi_call_deep 12 callee given (full.not_admits 0))))

/-- Where one call is left, a string with a byte that needs its code cannot be quoted. -/
theorem unrenderable_string {s : ByteArray} (special : (codes s).any Quoting.escapes = true) :
    Unrenderable base dumpId quoteId visiting marks 1 (.string s) := by
  intro depth h ready marked full site
  obtain ⟨x, env, h', entered, leads, within, keeps⟩ :=
    dump_enters ready (full.admits.mono (Nat.le_refl 1) (Nat.zero_le 1)) (.string s)
  have callee : evalExpr env (outer "quote" 4) h' = .done (.closure quoteId) h' :=
    evalExpr_variable within rfl
  have given : Gives depth (evalList env [own "value" 2] h') [.string s] h' :=
    .list_one rfl (.of_eq (evalExpr_variable within rfl))
  have body := leads.gives (.stmts_stop (fun _ => Flow.noConfusion)
    (choose_string within (fun _ => Flow.noConfusion) (.stmts_tailCall 18 [] callee given)))
  have two : Quoting.calls (codes s) = 1 + 1 := if_pos special
  obtain ⟨h₂, throws, more⟩ := throws_quote (s := s) (ready.keeps (keeps.weaken _)).quoter
    (by rw [two]; exact full.not_admits _) (callSite env (outer "quote" 4) 18)
  refine ⟨h₂, .of_closure rfl ?_, (keeps.trans more).weaken _⟩
  rw [entered]
  exact .of_tail body rfl throws

theorem unrenderable_odd (held : base.get Heap.globals (.ofAscii "error") = .builtin .error)
    (odd : v.Odd) :
    Unrenderable base dumpId quoteId visiting marks (calls + 1) v := by
  intro depth h ready marked left site
  have one := left.admits.mono (Nat.le_add_left 1 calls) (Nat.zero_le 1)
  obtain ⟨x, env, h', entered, leads, within, keeps⟩ := dump_enters ready one v
  have error := (ready.keeps (keeps.weaken _)).get_eq held rfl
  have message :
    Gives depth (evalExpr env (.concat (text "cannot dump a value of type ") (own "kind" 0) 32) h')
      (.string (bytes (ascii "cannot dump a value of type ") ++ bytes (ascii v.typeName))) h' :=
    .expr_concat 32 (.of_eq (eval_text _)) (.of_eq (evalExpr_variable within rfl))
  refine ⟨h', .of_closure rfl (.of_raises ?_), keeps.weaken _⟩
  rw [entered]
  exact .leads (leads.trans (leads_stmt (choose_none within odd)))
    (.stmts_first (raises_text within rfl error message one))

theorem throws_table {id : TableId} {site : Site} {h₁ : Heap}
    {x : Step Flow} {env : Env} {h' : Heap}
    (entered : (h.closure dumpId).enter [.table id, .table visiting] h = x)
    (leads : Leads depth x (execList env [choice, unknown] h'))
    (within : h'.Binds env.scope (.ofAscii "table" :: ws))
    (raises : Raises depth (execList env table h') h₁) :
    Throws depth ⟨.closure dumpId, [.table id, .table visiting], site⟩ h h₁ := by
  refine .of_closure rfl (.of_raises ?_)
  rw [entered]
  exact .leads leads (.stmts_first (choose_raising within raises))

theorem unrenderable_cycle {id : TableId}
    (held : base.get Heap.globals (.ofAscii "error") = .builtin .error)
    (mark : marks (.table id) = .boolean true) :
    Unrenderable base dumpId quoteId visiting marks (calls + 1) (.table id) := by
  intro depth h ready marked left site
  have one := left.admits.mono (Nat.le_add_left 1 calls) (Nat.zero_le 1)
  obtain ⟨x, env, h', entered, leads, within, keeps⟩ := dump_enters ready one (.table id)
  have error := (ready.keeps (keeps.weaken _)).get_eq held rfl
  obtain ⟨m, marks_stored, marks_plain, marks_get⟩ := marked.keeps keeps
  have value : evalExpr env (own "value" 2) h' = .done (.table id) h' :=
    evalExpr_variable within rfl
  have entry : evalExpr env (.index (own "visiting" 1) (own "value" 2) 20) h' =
      .done (m.get (.table id)) h' :=
    evalExpr_index_own within rfl value marks_stored marks_plain
  rw [marks_get, mark] at entry
  have raises : Raises depth (execList env table h') h' :=
    .stmts_first
      (.stmt_branch (.of_eq entry)
      (.stmts_first (raises_text within rfl error (.of_eq (eval_text _)) one)))
  exact ⟨h', throws_table entered leads within raises, keeps.weaken _⟩

theorem raises_entry {env : Env} {key item w₁ w₂ : Value}
    (ready : Ready base dumpId quoteId visiting h) (marked : Marks visiting (marksOf path) h)
    (lists : h.Lists list (Sorting.strings texts)) (small : texts.length < 2 ^ 62)
    (binds : h.Binds env.scope (item :: key :: .table list :: w₁ :: .table visiting ::
      w₂ :: .closure dumpId :: ws))
    (badKey : Hides base path calls key → Unrenderable base dumpId quoteId visiting
      (marksOf path) calls key)
    (badItem : Hides base path calls item →
      Unrenderable base dumpId quoteId visiting (marksOf path) calls item)
    (bad : Hides base path calls key ∨ Hides base path calls item)
    (left : depth.Leaves (calls + 1) 1) :
    ∃ h', Raises depth (execList env entry h) h' ∧ Heap.Keeps (some visiting) h h' := by
  have room := left.admits
  have deeper := left.enter_call (nested_callSite env (outer "dump" 6) 26)
  have place := eval_place binds rfl lists (by rwa [Sorting.length_strings])
  have assigns : ∀ {h' : Heap} {value : Expr}, Raises depth (evalList env [value] h) h' →
      Raises depth (execList env [.assign [.entry (own "entries" 2)
        (.arith .add (.unary .length (own "entries" 2) 26) (.literal (.number (.integer 1))) 26) 26]
        [value]] h) h' :=
    fun raises => .stmts_first (.stmt_assign deferred_own (deferred_apart rfl place) raises)
  by_cases first : Hides base path calls key
  · obtain ⟨h', throws, keeps⟩ :=
      badKey first _ h ready marked deeper (callSite env (outer "dump" 6) 26)
    have called := Raises.expr_call 26 (eval_dump binds) (gives_key binds) room throws
    refine ⟨h', assigns (.list_one rfl ?_), keeps⟩
    exact .concat_right 26 (.of_eq (eval_text "[")) (.concat_left 26 called)
  · obtain ⟨kt, shows⟩ := not_forall_not.1 first
    obtain ⟨h₁, key_run, keeps₁, marked₁⟩ :=
      shows.renderable _ h ready marked deeper.admits (callSite env (outer "dump" 6) 26)
    obtain ⟨h', throws, keeps⟩ :=
      badItem (bad.resolve_left first) _ h₁ (ready.keeps keeps₁) marked₁ deeper
      (callSite env (outer "dump" 6) 26)
    have key_called := Gives.expr_call 26 (eval_dump binds) (gives_key binds) room key_run
    have binds₁ := binds.mono keeps₁
    have called := Raises.expr_call 26 (eval_dump binds₁) (gives_item binds₁) room throws
    exact ⟨h',
      assigns (.list_one rfl (.concat_right 26 (.of_eq (eval_text "[")) (.concat_right 26 key_called
      (.concat_right 26 (.of_eq (eval_text "]=")) called)))), keeps₁.trans keeps⟩

theorem breaks_entries {env : Env} {id : TableId} {t : Table} {kind v control : Value}
    {rest : List Value}
    (stored : base.tables[id]? = some t) (ready : Ready base dumpId quoteId visiting start)
    (other : list ≠ visiting) (fresh : start.tables.size ≤ list) (left : depth.Leaves (calls + 1) 1)
    (es : List (Value × Value)) (walks : t.Walks base.circumstances.rank control es)
    (there : ∀ e ∈ es, e.1.isNil = false)
    (keys : ∀ e ∈ es, Hides base path calls e.1 →
      Unrenderable base dumpId quoteId visiting (marksOf path) calls e.1)
    (items : ∀ e ∈ es, Hides base path calls e.2 → Unrenderable base dumpId quoteId visiting
      (marksOf path) calls e.2)
    (bad : ∃ e ∈ es, Hides base path calls e.1 ∨ Hides base path calls e.2)
    (c : Collects start visiting list (marksOf path) env.scope
      (.table list :: kind :: .table visiting :: v :: .closure dumpId :: rest) texts h)
    (small : texts.length + es.length < 2 ^ 62) :
    ∃ h', Breaks depth (walk env id control) h h' ∧ Heap.Keeps (some visiting) start h' := by
  -- the entries before the first bad one are rendered, so their texts are in the list by then
  induction es generalizing control texts h with
  | nil =>
    obtain ⟨e, mem, -⟩ := bad
    cases mem
  | cons e es ih =>
    obtain ⟨key, item⟩ := e
    obtain ⟨inner, h₁, within, c₁, leads⟩ :=
      leads_entry stored ready other left.admits walks (there _ List.mem_cons_self) c
    by_cases here : Hides base path calls key ∨ Hides base path calls item
    · obtain ⟨h₂, raises, keeps⟩ :=
        raises_entry (ready.keeps c₁.keeps) c₁.marked c₁.lists (by omega) within
        (keys _ List.mem_cons_self) (items _ List.mem_cons_self) here left
      exact ⟨h₂, .last (.leads leads raises.first), c₁.keeps.trans keeps⟩
    · obtain ⟨shown, shown'⟩ := not_or.1 here
      obtain ⟨kt, key_text⟩ := not_forall_not.1 shown
      obtain ⟨it, item_text⟩ := not_forall_not.1 shown'
      obtain ⟨h₂, entered, c₂⟩ :=
        gives_entry ready other fresh c₁ (by omega) within key_text.renderable item_text.renderable
        left.admits
      have later : ∃ e ∈ es, Hides base path calls e.1 ∨ Hides base path calls e.2 := by
        obtain ⟨e, mem, hides⟩ := bad
        rcases List.mem_cons.1 mem with rfl | mem
        · exact absurd hides here
        · exact ⟨e, mem, hides⟩
      obtain ⟨h₃, breaks, keeps⟩ :=
        ih walks.next (fun e mem => there e (List.mem_cons_of_mem _ mem))
        (fun e mem => keys e (List.mem_cons_of_mem _ mem))
        (fun e mem => items e (List.mem_cons_of_mem _ mem)) later c₂
        (by rw [List.length_cons] at small; rw [List.length_append, List.length_singleton]; omega)
      exact ⟨h₃, .again (leads.gives (entered.bind (.done _ _))) breaks, keeps⟩

section Table

variable {id : TableId} {t : Table} (stored : base.tables[id]? = some t) (walked : base.Walked t)
  (small : t.live.length < 2 ^ 62) (off : id ∉ path)

include stored walked small off

theorem unrenderable_table
    (keys : ∀ e ∈ t.live, Hides base (id :: path) calls e.1 →
      Unrenderable base dumpId quoteId visiting (marksOf (id :: path)) calls e.1)
    (items : ∀ e ∈ t.live, Hides base (id :: path) calls e.2 →
      Unrenderable base dumpId quoteId visiting (marksOf (id :: path)) calls e.2)
    (bad : ∃ e ∈ t.live, Hides base (id :: path) calls e.1 ∨ Hides base (id :: path) calls e.2) :
    Unrenderable base dumpId quoteId visiting (marksOf path) (calls + 1) (.table id) := by
  intro depth h ready marked left site
  have unmarked : marksOf path (.table id) = .nil := by rw [marksOf_table, if_neg off]
  obtain ⟨x, env, h₁, entered, leads, within, keeps⟩ :=
    dump_enters ready (left.admits.mono (by omega) (by omega)) (.table id)
  obtain ⟨env₄, h₂, h₄, keeps₂, other, c₄, opened, looped⟩ :=
    leads_table (ready.keeps (keeps.weaken _)) (marked.keeps keeps) left.admits
      stored walked unmarked within
  have perm := t.tour_perm base.circumstances.rank
  have there : ∀ e ∈ t.tour base.circumstances.rank, e.1.isNil = false := fun e mem =>
    Value.isNil_of_isKey (t.isKey_of_mem_live (perm.subset mem))
  obtain ⟨e, mem, hides⟩ := bad
  obtain ⟨h₅, breaks, keeps₅⟩ :=
    breaks_entries stored ((ready.keeps (keeps.weaken _)).keeps keeps₂) other
    (Nat.le_refl _) left _ (Table.Walks.start t _) there (fun e mem => keys e (perm.subset mem))
    (fun e mem => items e (perm.subset mem)) ⟨e, perm.mem_iff.2 mem, hides⟩ c₄
    (by rw [List.length_nil, perm.length_eq]; omega)
  have raises : Raises depth (execList env table h₁) h₅ :=
    .leads opened (.stmts_first (.leads looped (.run rfl breaks)))
  exact ⟨h₅, throws_table entered leads within raises, (keeps.weaken _).trans (keeps₂.trans keeps₅)⟩

theorem unrenderable_wide
    (parts : ∀ e ∈ t.live, (∃ text, Shows base (id :: path) calls e.1 text) ∧ ∃ text,
      Shows base (id :: path) calls e.2 text)
    (many : 0x7FFFFFFF ≤ t.live.length) :
    Unrenderable base dumpId quoteId visiting (marksOf path) (calls + 1) (.table id) := by
  intro depth h ready marked left site
  have room := left.admits
  have unmarked : marksOf path (.table id) = .nil := by rw [marksOf_table, if_neg off]
  obtain ⟨texts, keys, items⟩ := Shows.exists_texts parts
  have perm := t.tour_perm base.circumstances.rank
  let qs := (t.tour base.circumstances.rank).map fun e => (e, texts e)
  have all : t.tour base.circumstances.rank = qs.map (·.1) := by
    rw [List.map_map]
    exact (List.map_id _).symm
  have count : qs.length = t.live.length := (List.length_map _).trans perm.length_eq
  obtain ⟨x, env, h₁, entered, leads, within, keeps⟩ :=
    dump_enters ready (room.mono (by omega) (by omega)) (.table id)
  have now := ready.keeps (keeps.weaken _)
  obtain ⟨env', start, h₂, keeps₂, other, c, reached⟩ := leads_texts stored walked unmarked all
    (List.forall_mem_map.2 fun e mem => (keys e (perm.subset mem)).renderable)
    (List.forall_mem_map.2 fun e mem => (items e (perm.subset mem)).renderable)
    now (marked.keeps keeps) room (by omega) within
  obtain ⟨h₃, closes, c₃, sort, given⟩ := leads_close depth (now.keeps keeps₂) other unmarked c
  have wide : Throws (depth.enter (callSite env' (member "table" "sort" 6 29) 29))
      ⟨.builtin .tableSort, [.table start.tables.size],
        callSite env' (member "table" "sort" 6 29) 29⟩ h₃ h₃ := by
    refine .of_builtin rfl fun context => ?_
    obtain ⟨s, raised⟩ := Builtin.run_sort_wide c₃.lists (by rw [List.length_map]; omega)
      (by rw [List.length_map]; omega) context
    exact .of_eq raised
  have raises : Raises depth (execList env table h₁) h₃ :=
    .leads (reached.trans closes)
      (.stmts_first (.stmt_expression (.multi_call 29 sort given room wide)))
  exact ⟨h₃, throws_table entered leads within raises,
    (keeps.weaken _).trans (keeps₂.trans c₃.keeps)⟩

end Table

/-- The routine raises a text for what shows none.  Each call goes one deeper, and
where no calls are left it raises a text too. -/
theorem unrenderable (visiting : TableId)
    (held : base.get Heap.globals (.ofAscii "error") = .builtin .error)
    (traversable : base.Traversable path v) (hides : Hides base path calls v) :
    Unrenderable base dumpId quoteId visiting (marksOf path) calls v := by
  induction calls generalizing path v with
  | zero => exact unrenderable_deep v
  | succ calls ih =>
    by_cases flat : ∀ id, v ≠ .table id
    · by_cases odd : v.Odd
      · exact unrenderable_odd held odd
      obtain ⟨d, means⟩ := Value.represents_of_flat (h := base) flat odd
      have many : ¬d.calls ≤ calls + 1 := fun room => hides _ (.flat means flat room)
      cases means with
      | string s =>
        rw [Data.calls, Quoting.calls] at many
        by_cases special : (codes s).any Quoting.escapes = true
        · rw [if_pos special] at many
          obtain rfl : calls = 0 := by omega
          exact unrenderable_string special
        · rw [if_neg special] at many
          omega
      | table => exact absurd rfl (flat _)
      | _ => exact absurd (Nat.le_add_left 1 calls) many
    obtain ⟨id, rfl⟩ : ∃ id, v = .table id := by simpa using flat
    by_cases onPath : id ∈ path
    · exact unrenderable_cycle held (by rw [marksOf_table, if_pos onPath])
    obtain ⟨t, stored, walked, small, inside⟩ := traversable.table onPath
    by_cases bad : ∃ e ∈ t.live, Hides base (id :: path) calls e.1 ∨
      Hides base (id :: path) calls e.2
    · exact unrenderable_table stored walked small onPath (fun e mem => ih (inside e mem).1)
        (fun e mem => ih (inside e mem).2) bad
    have parts : ∀ e ∈ t.live,
        (∃ text, Shows base (id :: path) calls e.1 text) ∧ ∃ text,
        Shows base (id :: path) calls e.2 text := by
      intro e mem
      obtain ⟨key, item⟩ := not_or.1 fun hides => bad ⟨e, mem, hides⟩
      exact ⟨not_forall_not.1 key, not_forall_not.1 item⟩
    refine unrenderable_wide stored walked small onPath parts (Nat.le_of_not_lt fun few => ?_)
    obtain ⟨text, shows⟩ := Shows.exists_table stored walked onPath few parts
    exact hides text shows

end Refusing

/-- The routine raises a text for a value that cannot be rendered. -/
theorem throws_text {base : Heap} {id : ClosureId} {cell : CellId} {name : ByteArray}
    {v : Value} {depth : Depth}
    {calls : Nat} (stored : base.closures[id]? = some ⟨chunk, [cell], name⟩)
    (bound : base.cells[cell]? = some (.table Heap.globals)) (intact : base.Intact)
    (raises : ∀ dumpId quoteId, Unrenderable base dumpId quoteId base.tables.size
      (fun _ => .nil) calls v)
    (left : depth.Leaves (calls + 1) 1) (site : Site) :
    ∃ h', Throws depth ⟨.closure id, [v], site⟩ base h' ∧ Heap.Keeps none base h' := by
  obtain ⟨dumpId, quoteId, env, h, h₁, leads, callee, given, keeps, ready, marked⟩ :=
    leads_chunk stored bound intact depth
  have deeper := left.enter_call (nested_callSite env (own "dump" 0) 35)
  obtain ⟨h₂, throws, keeps₂⟩ :=
    raises dumpId quoteId _ h₁ ready marked deeper (callSite env (own "dump" 0) 35)
  have raised :=
    Raises.concat_right 35 (.of_eq (eval_text "return "))
      (.expr_call 35 callee given left.admits throws)
  exact ⟨h₂,
    .of_closure rfl (.of_raises (.leads leads (.stmts_first (.stmt_ret (.list_one rfl raised))))),
    keeps.forget keeps₂ (Nat.le_refl _)⟩

end DumpChunk

/-- The library is in its place, and no metamethod shows texts in another way. -/
structure Heap.Unmodified (h : Heap) : Prop where
  intact : h.Intact
  error : h.get Heap.globals (.ofAscii "error") = .builtin .error
  shown : ∃ t, h.tables[Heap.stringMetatable]? = some t ∧
    t.get (.string (eventKey "tostring")) = .nil

theorem Heap.Unmodified.mono {h h' : Heap} (u : h.Unmodified)
    (kept : ∀ (id : TableId) (t : Table), h.tables[id]? = some t → h'.tables[id]? = some t) :
    h'.Unmodified := by
  obtain ⟨t, stored, silent⟩ := u.shown
  exact ⟨u.intact.mono kept, Heap.get_kept kept u.error rfl, t, kept _ _ stored, silent⟩

theorem Heap.Unmodified.of_gets {h : Heap} (intact : h.Intact)
    (error : h.get Heap.globals (.ofAscii "error") = .builtin .error)
    (there : h.get Heap.stringMetatable (.ofAscii "__unm") = .builtin .stringNegate)
    (silent : h.get Heap.stringMetatable (.string (eventKey "tostring")) = .nil) :
    h.Unmodified := by
  obtain ⟨t, stored, -⟩ := Heap.stored_of_get there rfl
  exact ⟨intact, error, t, stored, (Heap.get_eq stored _).symm.trans silent⟩

theorem Heap.Unmodified.silent {h : Heap} (u : h.Unmodified) (s : ByteArray) :
    h.metamethod (.string s) (eventKey "tostring") = .nil := by
  obtain ⟨t, stored, silent⟩ := u.shown
  exact (Heap.get_eq stored _).trans silent

namespace Library

theorem error_initialHeap : initialHeap.get Heap.globals (.ofAscii "error") = .builtin .error := by
  rw [Heap.get_eq stored_basic, get_tableOf]
  decide +kernel

theorem negate_initialHeap : initialHeap.get Heap.stringMetatable (.ofAscii "__unm") =
    .builtin .stringNegate := by
  rw [Heap.get_eq stored_stringMetatable, get_tableOf]
  decide +kernel

theorem silent_initialHeap :
    initialHeap.get Heap.stringMetatable (.string (eventKey "tostring")) = .nil := by
  rw [Heap.get_eq stored_stringMetatable, get_tableOf]
  decide +kernel

end Library

theorem Heap.Traversable.of_tables {h h' : Heap} {path : List TableId} {v : Value}
    (traversable : h.Traversable path v) (same : h'.tables = h.tables) : h'.Traversable path v := by
  obtain ⟨within, here, closed⟩ := traversable
  refine ⟨within, here, fun path id inside off => ?_⟩
  obtain ⟨t, stored, walked, small, entries⟩ := closed path id inside off
  refine ⟨t, by rwa [same], walked.mono fun j u lies => ?_, small, entries⟩
  rwa [same]

end SealedLua.Lua

namespace SealedLua

open Lua

theorem Interpreter.unmodified_preparedHeap : preparedHeap.Unmodified :=
  .of_gets intact_preparedHeap ((get_preparedHeap (by decide)).trans Library.error_initialHeap)
    ((get_preparedHeap (by decide)).trans Library.negate_initialHeap)
    ((get_preparedHeap (by decide)).trans Library.silent_initialHeap)

section Encoding

variable {Q : Type} {outer : Depth} {n : Nat} {base : Heap} {v : Value}

/-- How many calls are left to the routine when its chunk, which the host calls, calls it. -/
def dumpCalls (outer : Depth) : Nat := outer.limit - outer.calls - 2

theorem leaves_dumpCalls (room : (hostDepth outer).Admits 1 1) :
    (hostDepth outer).Leaves (dumpCalls outer + 1) 1 := by
  have few : outer.calls + 1 < outer.limit := room.1
  exact leaves_hostDepth (by rw [dumpCalls]; omega) room.2

theorem dumpCalls_outermost (i : Interpreter Q) :
    dumpCalls i.outermost + 2 = i.stack.heap.circumstances.callLimit := by
  have ample := i.stack.heap.circumstances.ample
  have calls : dumpCalls i.outermost = i.stack.heap.circumstances.callLimit - 0 - 2 := rfl
  omega

theorem leaves_outermost (i : Interpreter Q) :
    (hostDepth i.outermost).Leaves (dumpCalls i.outermost + 1) 1 :=
  leaves_dumpCalls (i.admits_outermost _ _ (by decide) (by decide))

theorem hides_pass {calls : Nat} (hides : Hides base [] calls v) :
    Hides (base.pass v).2 [] calls (base.pass v).1 := by
  cases v with
  | failure f =>
    have odd : (base.pass (.failure f)).1.Odd := by
      simp [Heap.pass, Heap.newFailure, Value.Odd, Value.typeName]
    exact (Refused.odd odd).hides calls
  | _ => exact hides

theorem traversable_pass (traversable : base.Traversable [] v) :
    (base.pass v).2.Traversable [] (base.pass v).1 := by
  cases v with
  | failure f => exact ⟨fun _ w => w = .failure ⟨base.failures, f.message⟩, rfl, fun _ _ table =>
    Value.noConfusion table⟩
  | _ => exact traversable

variable (unmodified : base.Unmodified)

include unmodified

theorem encode_hidden {calls : Nat} (kind : ValueKind.ofValue v = .other)
    (traversable : base.Traversable [] v) (hides : Hides base [] calls v)
    (left : (hostDepth outer).Leaves (calls + 1) 1) (below : List Value) :
    ∃ s h, Halts (Q := Q) outer encode ⟨base, v :: below⟩ (.ofRaised (.string s)) ⟨h, below⟩ ∧
      Heap.Keeps none base h := by
  have load :=
    Stack.load_loaded DumpChunk.read_dump (show Stack.zeroByte? dumpChunk = none by decide)
      base (v :: below)
  have keeps := Heap.Keeps.loaded base DumpChunk.chunk dumpChunk
  have same := base.tables_loaded DumpChunk.chunk dumpChunk
  have still : Hides (base.loaded DumpChunk.chunk dumpChunk) [] calls v := by
    refine fun text shows => hides text (shows.mono fun id t stored => ?_)
    rwa [← same]
  -- The host passes the value on, which copies a failure.
  have passes := Heap.Keeps.pass (base.loaded DumpChunk.chunk dumpChunk) v
  have passed := (unmodified.mono keeps.kept).mono passes.kept
  obtain ⟨h₂, throws, keeps₂⟩ :=
    DumpChunk.throws_text (passes.closures _ _ (base.stored_loaded DumpChunk.chunk dumpChunk))
      (passes.cells _ _ (base.bound_loaded DumpChunk.chunk dumpChunk)) passed.intact
      (fun _ _ =>
        DumpChunk.unrenderable _ passed.error (traversable_pass (traversable.of_tables same))
          (hides_pass still))
      left Site.native
  have later := (keeps.trans passes).trans keeps₂
  obtain ⟨s, halts⟩ := Halts.call (Q := Q) [v] below throws (unmodified.mono later.kept).silent
  refine ⟨s, h₂, .bind (comes_peekKind base v below) ?_, later⟩
  rw [kind]
  exact .bind (.load load) (.bind (comes_swap _ _ _ below) (.first halts))

variable (descends : Descends base [] n v) (room : (hostDepth outer).Admits (n + 3) 1)
  (below : List Value)

include descends room

theorem encode_taken (taken : ¬Refused base [] v) :
    ∃ p h, Comes (Q := Q) outer encode ⟨base, v :: below⟩ p ⟨h, below⟩ ∧
      Heap.Keeps none base h := by
  cases kind : ValueKind.ofValue v with
  | integer =>
    obtain ⟨m, number⟩ := ValueKind.ofValue_eq_integer kind
    exact ⟨_, base, encode_number kind number, .refl none base⟩
  | text =>
    obtain ⟨t, rfl⟩ := ValueKind.ofValue_eq_text kind
    exact ⟨_, base, encode_text t, .refl none base⟩
  | other =>
    obtain ⟨text, shows⟩ := descends.exists_shows taken
    obtain ⟨c, h, comes, -, kept⟩ := encode_shown (Q := Q) below kind unmodified.intact shows room
    exact ⟨.code c, h, comes, kept⟩

end Encoding
end SealedLua
