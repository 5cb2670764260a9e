import SealedLua.Proofs.Engine.QuoteFunction

/-!
# Runs of the rendering routine

The routine renders a value that says something as the text of what it says.
Its recursion goes down the tree; what it has marked on the way is deeper than
anything below, so a table is never taken for one that is being rendered.
-/

namespace SealedLua.Lua

/-- The functions that the routine uses are where a script finds them. -/
structure Heap.Intact (h : Heap) : Prop where
  type : h.get Heap.globals (.ofAscii "type") = .builtin .type
  tostring : h.get Heap.globals (.ofAscii "tostring") = .builtin .tostring
  pairs : h.get Heap.globals (.ofAscii "pairs") = .builtin .pairs
  string : h.get Heap.globals (.ofAscii "string") = .table Heap.stringLibrary
  table : h.get Heap.globals (.ofAscii "table") = .table Heap.tableLibrary
  byte : h.get Heap.stringLibrary (.ofAscii "byte") = .builtin .stringByte
  format : h.get Heap.stringLibrary (.ofAscii "format") = .builtin .stringFormat
  gsub : h.get Heap.stringLibrary (.ofAscii "gsub") = .builtin .stringGsub
  concat : h.get Heap.tableLibrary (.ofAscii "concat") = .builtin .tableConcat
  sort : h.get Heap.tableLibrary (.ofAscii "sort") = .builtin .tableSort

namespace Heap

variable {h h' : Heap}

theorem Intact.mono (intact : h.Intact)
    (kept : ∀ (id : TableId) (t : Table), h.tables[id]? = some t → h'.tables[id]? = some t) :
    h'.Intact := by
  constructor <;> refine get_kept kept ?_ rfl
  exacts [intact.type, intact.tostring, intact.pairs, intact.string, intact.table, intact.byte,
    intact.format, intact.gsub, intact.concat, intact.sort]

theorem Intact.strings (intact : h.Intact) : h.StringsIntact :=
  ⟨intact.string, intact.byte, intact.format, intact.gsub⟩

end Heap

/-- No metatable has another way through the entries of a table. -/
def Heap.Walked (h : Heap) (t : Table) : Prop :=
  ∀ m, t.metatable = some m → ∃ u, h.tables[m]? = some u ∧ u.get (.string (eventKey "pairs")) = .nil

namespace Heap

variable {h h' : Heap} {t : Table}

theorem walked_of_plain (plain : t.metatable = none) : h.Walked t := by
  intro m has
  rw [plain] at has
  cases has

theorem Walked.mono (walked : h.Walked t)
    (kept : ∀ (id : TableId) (t : Table), h.tables[id]? = some t → h'.tables[id]? = some t) :
    h'.Walked t := by
  intro m has
  obtain ⟨u, stored, silent⟩ := walked m has
  exact ⟨u, kept m u stored, silent⟩

theorem Walked.metamethod (walked : h.Walked t) {id : TableId} (stored : h.tables[id]? = some t) :
    h.metamethod (.table id) (eventKey "pairs") = .nil := by
  cases has : t.metatable with
  | none => exact metamethod_of_plain stored has _
  | some m =>
    obtain ⟨u, there, silent⟩ := walked m has
    rw [Heap.metamethod, metatableOf, table_eq stored, has]
    exact (get_eq there _).trans silent

end Heap

namespace DumpChunk

/-- What the routine finds in the heap: the tables of the value, the library, and
its own functions with their variables. -/
structure Ready (base : Heap) (dumpId quoteId : ClosureId)
    (visiting : TableId) (h : Heap) : Prop where
  tables : ∀ (id : TableId) (t : Table), base.tables[id]? = some t → h.tables[id]? = some t
  beyond : base.tables.size ≤ visiting
  circumstances : h.circumstances = base.circumstances
  intact : base.Intact
  quoteAt : ∃ scope chunk, h.closures[quoteId]? = some ⟨quote, scope, chunk⟩ ∧
    h.Binds scope [.closure quoteId, .table Heap.globals]
  dumpAt : ∃ scope chunk, h.closures[dumpId]? = some ⟨dump, scope, chunk⟩ ∧
    h.Binds scope [.closure dumpId, .closure quoteId, .table Heap.globals]

namespace Ready

variable {base h h' : Heap} {dumpId quoteId : ClosureId} {visiting : TableId}

theorem keeps (r : Ready base dumpId quoteId visiting h) (k : Heap.Keeps (some visiting) h h') :
    Ready base dumpId quoteId visiting h' := by
  obtain ⟨scope, chunk, stored, binds⟩ := r.quoteAt
  obtain ⟨scope', chunk', stored', binds'⟩ := r.dumpAt
  refine ⟨fun id t lies => k.tables id t ?_ (r.tables id t lies), r.beyond,
    k.circumstances.trans r.circumstances, r.intact,
    ⟨scope, chunk, k.closures _ _ stored, binds.mono k⟩,
    ⟨scope', chunk', k.closures _ _ stored', binds'.mono k⟩⟩
  rintro ⟨⟩
  exact Nat.not_lt.2 r.beyond (Array.getElem?_eq_some_iff.1 lies).1

theorem get_eq (r : Ready base dumpId quoteId visiting h) {id : TableId} {key f : Value}
    (entry : base.get id key = f) (there : f.isNil = false) : h.get id key = f :=
  Heap.get_kept r.tables entry there

theorem quoter (r : Ready base dumpId quoteId visiting h) : Quoter quoteId h :=
  ⟨r.intact.strings.mono r.tables, r.quoteAt⟩

end Ready

section Choice

variable {h h₁ : Heap} {env : Env} {vs : List Value} {depth : Depth} {flow : Flow} {kind : String}

theorem eval_kind (binds : h.Binds env.scope (.ofAscii kind :: vs)) (s : String) (line : Nat) :
    evalExpr env (.compare .eq (own "kind" 0) (text s) line) h =
      .done (.boolean (Value.rawEq (.ofAscii kind) (.ofAscii s))) h :=
  evalExpr_compare_own binds rfl

theorem eval_kind_plain (binds : h.Binds env.scope (.ofAscii kind :: vs)) :
    evalExpr env
      (.or (.compare .eq (own "kind" 0) (text "nil") 13)
        (.compare .eq (own "kind" 0) (text "boolean") 13)) h =
      .done (.boolean (Value.rawEq (.ofAscii kind) (.ofAscii "nil") ||
        Value.rawEq (.ofAscii kind) (.ofAscii "boolean"))) h := by
  have unfolded : ∀ left right : Expr, evalExpr env (.or left right) h =
      (evalExpr env left h).bind fun x h =>
        (if x.truthy then pure x else evalExpr env right : Action Value) h := by
    intro left right
    rw [evalExpr]
    rfl
  rw [unfolded, eval_kind binds, Step.bind]
  by_cases first : Value.rawEq (.ofAscii kind) (.ofAscii "nil") = true
  · rw [first]
    rfl
  · rw [Bool.eq_false_iff.2 first]
    exact eval_kind binds "boolean" 13

theorem choose_plain (binds : h.Binds env.scope (.ofAscii kind :: vs))
    (leaves : ∀ env, flow ≠ .next env)
    (isPlain : (Value.rawEq (.ofAscii kind) (.ofAscii "nil") ||
      Value.rawEq (.ofAscii kind) (.ofAscii "boolean")) = true)
    (branch : Gives depth (execList env plain h) flow h₁) :
    Gives depth (exec env choice h) flow h₁ := by
  refine .stmt_branch leaves (.of_eq (eval_kind_plain binds)) ?_
  rw [isPlain]
  exact branch

theorem choose_number (binds : h.Binds env.scope (.ofAscii "number" :: vs))
    (leaves : ∀ env, flow ≠ .next env) (branch : Gives depth (execList env number h) flow h₁) :
    Gives depth (exec env choice h) flow h₁ :=
  .stmt_branch leaves (.of_eq (eval_kind_plain binds))
    (.stmts_stop leaves (.stmt_branch leaves (.of_eq (eval_kind binds "number" 15)) branch))

theorem choose_string (binds : h.Binds env.scope (.ofAscii "string" :: vs))
    (leaves : ∀ env, flow ≠ .next env) (branch : Gives depth (execList env string h) flow h₁) :
    Gives depth (exec env choice h) flow h₁ :=
  .stmt_branch leaves (.of_eq (eval_kind_plain binds))
    (.stmts_stop leaves (.stmt_branch leaves (.of_eq (eval_kind binds "number" 15))
      (.stmts_stop leaves (.stmt_branch leaves (.of_eq (eval_kind binds "string" 17)) branch))))

theorem choose_table (binds : h.Binds env.scope (.ofAscii "table" :: vs))
    (leaves : ∀ env, flow ≠ .next env) (branch : Gives depth (execList env table h) flow h₁) :
    Gives depth (exec env choice h) flow h₁ :=
  .stmt_branch leaves (.of_eq (eval_kind_plain binds))
    (.stmts_stop leaves (.stmt_branch leaves (.of_eq (eval_kind binds "number" 15))
      (.stmts_stop leaves (.stmt_branch leaves (.of_eq (eval_kind binds "string" 17))
        (.stmts_stop leaves (.stmt_branch leaves (.of_eq (eval_kind binds "table" 19)) branch))))))

end Choice

def Marks (visiting : TableId) (marks : Value → Value) (h : Heap) : Prop :=
  ∃ t, h.tables[visiting]? = some t ∧ t.metatable = none ∧ ∀ k, t.get k = marks k

theorem Marks.keeps {visiting : TableId} {marks : Value → Value} {h h' : Heap}
    (m : Marks visiting marks h) (k : Heap.Keeps none h h') : Marks visiting marks h' := by
  obtain ⟨t, stored, plain, entries⟩ := m
  exact ⟨t, k.kept _ _ stored, plain, entries⟩

theorem Marks.changes {visiting list : TableId} {marks : Value → Value} {h h' : Heap}
    (m : Marks visiting marks h)
    (c : Heap.ChangesOnly list h h') (other : list ≠ visiting) : Marks visiting marks h' := by
  obtain ⟨t, stored, plain, entries⟩ := m
  exact ⟨t, by rw [c.others _ other.symm, stored], plain, entries⟩

theorem Marks.set {visiting : TableId} {marks : Value → Value} {h : Heap} {k : Value}
    (m : Marks visiting marks h) (proper : k.toKey.isKey = true) (v : Value) :
    Marks visiting (fun l => if l.toKey = k.toKey then v else marks l) (h.set visiting k v) := by
  obtain ⟨t, stored, plain, entries⟩ := m
  refine ⟨_, Heap.tables_set stored k v, by rw [Table.metatable_set, plain], fun l => ?_⟩
  rw [Table.get_set t proper, entries]

section Rendering

variable {base h : Heap} {dumpId quoteId : ClosureId} {visiting : TableId}
  {marks : Value → Value} {depth : Depth}

/-- The routine renders a value as this text and leaves no marks of its own. -/
def Renders (dumpId : ClosureId) (visiting : TableId) (marks : Value → Value)
    (depth : Depth) (v : Value) (text : List UInt8) (h : Heap) : Prop :=
  ∀ site, ∃ h', Returns depth ⟨.closure dumpId, [v, .table visiting], site⟩ h
    [.string (bytes text)] h' ∧
    Heap.Keeps (some visiting) h h' ∧ Marks visiting marks h'

theorem dump_begins (ready : Ready base dumpId quoteId visiting h) (depth : Depth) (v : Value) :
    ∃ env h', (h.closure dumpId).enter [v, .table visiting] h = execList env body h' ∧
      evalExpr env (global "type" 4 12) h' = .done (.builtin .type) h' ∧
      Gives depth (evalList env [own "value" 1] h') [v] h' ∧
      h'.Binds env.scope [.table visiting, v, .closure dumpId, .closure quoteId,
        .table Heap.globals] ∧ Heap.Keeps none h h' := by
  obtain ⟨scope, chunk, stored, binds⟩ := ready.dumpAt
  obtain ⟨env, h', within, keeps, -, entered⟩ := enters_body [v, .table visiting] stored binds
  have now := ready.keeps (keeps.weaken _)
  have callee := eval_global "type" 4 12 within rfl (now.get_eq ready.intact.type rfl) rfl
  have given : Gives depth (evalList env [own "value" 1] h') [v] h' :=
    .list_one rfl (.of_eq (evalExpr_variable within rfl))
  exact ⟨env, h', entered, callee, given, within, keeps⟩

theorem dump_enters (ready : Ready base dumpId quoteId visiting h)
    (room : depth.Admits 1 0) (v : Value) :
    ∃ x env h', (h.closure dumpId).enter [v, .table visiting] h = x ∧
      Leads depth x (execList env [choice, unknown] h') ∧
      h'.Binds env.scope [.ofAscii v.typeName, .table visiting, v, .closure dumpId,
        .closure quoteId, .table Heap.globals] ∧
      Heap.Keeps none h h' := by
  obtain ⟨env, h₁, entered, callee, given, within, keeps⟩ := dump_begins ready depth v
  have kind : Gives depth (evalList env [.call (global "type" 4 12) [own "value" 1] 12] h₁)
      [.ofAscii v.typeName] h₁ :=
    .list_last
      (.multi_call 12 callee given room (.of_builtin rfl fun _ => .of_eq (Builtin.run_type v)))
  obtain ⟨env', h₂, declared, within', keeps', -⟩ := kind.stmt_declare 1 within
  exact ⟨_, env', h₂, entered, leads_stmt declared, within', keeps.trans keeps'⟩

theorem dump_enter (ready : Ready base dumpId quoteId visiting h) (room : depth.Admits 1 0)
    (v : Value) (site : Site) :
    ∃ env h', h'.Binds env.scope [.ofAscii v.typeName, .table visiting, v,
        .closure dumpId, .closure quoteId, .table Heap.globals] ∧ Heap.Keeps none h h' ∧
      ∀ flow h₁, (∀ env, flow ≠ .next env) → Gives depth (exec env choice h') flow h₁ →
        ∃ x, Gives depth x flow h₁ ∧ ∀ values h₂, Answers depth (.step x) values h₂ →
          Returns depth ⟨.closure dumpId, [v, .table visiting], site⟩ h values h₂ := by
  obtain ⟨x, env, h', entered, leads, within, keeps⟩ := dump_enters ready room v
  refine ⟨env, h', within, keeps, fun flow h₁ leaves chosen =>
    ⟨x, leads.gives (.stmts_stop leaves chosen), ?_⟩⟩
  intro values h₂ answers
  refine .of_closure rfl ?_
  rw [entered]
  exact answers

theorem renders_plain {v : Value} {text : List UInt8} (ready : Ready base dumpId quoteId visiting h)
    (marked : Marks visiting marks h) (room : depth.Admits 1 0)
    (isPlain : (Value.rawEq (.ofAscii v.typeName) (.ofAscii "nil") ||
      Value.rawEq (.ofAscii v.typeName) (.ofAscii "boolean")) = true)
    (shown : ∀ c h, Builtin.tostring.run [v] c h = .done [.string (bytes text)] h) :
    Renders dumpId visiting marks depth v text h := by
  intro site
  obtain ⟨env, h', within, keeps, chosen⟩ := dump_enter ready room v site
  have now := ready.keeps (keeps.weaken _)
  have callee := eval_global "tostring" 5 14 within rfl (now.get_eq ready.intact.tostring rfl) rfl
  have given : Gives depth (evalList env [own "value" 2] h') [v] h' :=
    .list_one rfl (.of_eq (evalExpr_variable within rfl))
  obtain ⟨x, body, returns⟩ :=
    chosen _ _ (fun _ => Flow.noConfusion) (choose_plain within (fun _ => Flow.noConfusion) isPlain
    (.stmts_tailCall 14 [] callee given))
  exact ⟨h', returns _ _ (answers_tail_builtin body room fun c => .of_eq (shown c h')),
    keeps.weaken _, marked.keeps keeps⟩

theorem renders_number {v : Value} {text : List UInt8}
    (ready : Ready base dumpId quoteId visiting h)
    (marked : Marks visiting marks h) (room : depth.Admits 1 0) (isNumber : v.typeName = "number")
    (literal : Format.literal? v = some text) : Renders dumpId visiting marks depth v text h := by
  intro site
  obtain ⟨env, h', within, keeps, chosen⟩ := dump_enter ready room v site
  rw [isNumber] at within
  have now := ready.keeps (keeps.weaken _)
  have callee := eval_member "string" "format" 5 16 within rfl (now.get_eq ready.intact.string rfl)
    (now.get_eq ready.intact.format rfl) rfl
  have given : Gives depth (evalList env [DumpChunk.text "%q", own "value" 2] h')
      [.ofAscii "%q", v] h' :=
    .list_cons (.of_eq (eval_text "%q")) (.list_one rfl (.of_eq (evalExpr_variable within rfl)))
  obtain ⟨x, body, returns⟩ :=
    chosen _ _ (fun _ => Flow.noConfusion) (choose_number within (fun _ => Flow.noConfusion)
    (.stmts_tailCall 16 [] callee given))
  exact ⟨h', returns _ _ (answers_tail_builtin body room fun c =>
    .of_eq (Builtin.run_format_literal literal)),
    keeps.weaken _, marked.keeps keeps⟩

theorem renders_string {s : ByteArray} (ready : Ready base dumpId quoteId visiting h)
    (marked : Marks visiting marks h) (room : depth.Admits (Quoting.calls (codes s)) 1) :
    Renders dumpId visiting marks depth (.string s) (Quoting.text (codes s)) h := by
  intro site
  obtain ⟨env, h', within, keeps, chosen⟩ :=
    dump_enter ready (room.mono (Quoting.calls_pos _) (Nat.zero_le 1)) (.string s) site
  have now := ready.keeps (keeps.weaken _)
  have callee : evalExpr env (outer "quote" 4) h' = .done (.closure quoteId) h' :=
    evalExpr_variable within rfl
  have given : Gives depth (evalList env [own "value" 2] h') [.string s] h' :=
    .list_one rfl (.of_eq (evalExpr_variable within rfl))
  obtain ⟨x, body, returns⟩ :=
    chosen _ _ (fun _ => Flow.noConfusion) (choose_string within (fun _ => Flow.noConfusion)
    (.stmts_tailCall 18 [] callee given))
  obtain ⟨h₂, quoted, more⟩ :=
    returns_quote now.quoter (room.mono (Nat.le_refl _) (Quoting.nested_le_one _))
    (callSite env (outer "quote" 4) 18)
  exact ⟨h₂, returns _ _ (.of_tail body rfl quoted), (keeps.trans more).weaken _,
    marked.keeps (keeps.trans more)⟩

/-- The routine renders a value as this text wherever there is room for so many calls. -/
def Renderable (base : Heap) (dumpId quoteId : ClosureId)
    (visiting : TableId) (marks : Value → Value)
    (calls nested : Nat) (v : Value) (text : List UInt8) : Prop :=
  ∀ (depth : Depth) (h : Heap), Ready base dumpId quoteId visiting h → Marks visiting marks h →
    depth.Admits calls nested → Renders dumpId visiting marks depth v text h

/-- A list collects texts, in a heap that keeps what there was at the start. -/
structure Collects (start : Heap) (visiting list : TableId)
    (marks : Value → Value) (scope : List CellId)
    (ws : List Value) (texts : List (List UInt8)) (h : Heap) : Prop where
  keeps : Heap.Keeps (some visiting) start h
  binds : h.Binds scope ws
  marked : Marks visiting marks h
  lists : h.Lists list (Sorting.strings texts)

variable {start : Heap} {list : TableId} {scope : List CellId} {ws : List Value}
  {texts : List (List UInt8)}

theorem Collects.mono {h' : Heap} {marks' : Value → Value}
    (c : Collects start visiting list marks scope ws texts h) (other : list ≠ visiting)
    (k : Heap.Keeps (some visiting) h h') (marked : Marks visiting marks' h') :
    Collects start visiting list marks' scope ws texts h' := by
  obtain ⟨t, stored, seq⟩ := c.lists
  exact ⟨c.keeps.trans k, c.binds.mono k, marked,
    ⟨t, k.tables _ _ (fun same => other (Option.some.inj same)) stored, seq⟩⟩

/-- The text of an entry, from those of its key and its item. -/
def entryText (texts : List UInt8 × List UInt8) : List UInt8 :=
  91 :: (texts.1 ++ 93 :: 61 :: texts.2)

theorem entryText_render (e : Data × Data) :
    entryText (e.1.render, e.2.render) = Data.renderEntry e := by
  obtain ⟨k, v⟩ := e
  rw [Data.renderEntry, entryText]

section Calling

variable {env : Env} {key item w₁ w₂ w₃ : Value}
  (binds : h.Binds env.scope (item :: key :: w₁ :: w₂ :: .table visiting ::
    w₃ :: .closure dumpId :: ws))

include binds

theorem eval_dump : evalExpr env (outer "dump" 6) h = .done (.closure dumpId) h :=
  evalExpr_variable binds rfl

theorem gives_key :
    Gives depth (evalList env [own "key" 1, own "visiting" 4] h) [key, .table visiting] h :=
  .list_cons (.of_eq (evalExpr_variable binds rfl))
    (.list_one rfl (.of_eq (evalExpr_variable binds rfl)))

theorem gives_item :
    Gives depth (evalList env [own "item" 0, own "visiting" 4] h) [item, .table visiting] h :=
  .list_cons (.of_eq (evalExpr_variable binds rfl))
    (.list_one rfl (.of_eq (evalExpr_variable binds rfl)))

end Calling

/-- The text of an entry is put together from those of its key and its item. -/
theorem gives_entryText {calls nested : Nat} {env : Env} {key item w₁ w₂ w₃ : Value}
    {kt it : List UInt8}
    (ready : Ready base dumpId quoteId visiting h) (marked : Marks visiting marks h)
    (binds : h.Binds env.scope (item :: key :: w₁ :: w₂ :: .table visiting ::
      w₃ :: .closure dumpId :: ws))
    (key_text : Renderable base dumpId quoteId visiting marks calls nested key kt)
    (item_text : Renderable base dumpId quoteId visiting marks calls nested item it)
    (room : depth.Admits (calls + 1) nested) :
    ∃ h', Gives depth
      (evalList env
        [.concat (text "[")
          (.concat (.call (outer "dump" 6) [own "key" 1, own "visiting" 4] 26)
            (.concat (text "]=") (.call (outer "dump" 6) [own "item" 0, own "visiting" 4] 26) 26)
            26) 26] h)
        [.string (bytes (91 :: (kt ++ 93 :: 61 :: it)))] h' ∧ Heap.Keeps (some visiting) h h' ∧
        Marks visiting marks h' := by
  have deeper := room.enter_call (nested_callSite env (outer "dump" 6) 26)
  obtain ⟨h₁, key_run, keeps₁, marked₁⟩ :=
    key_text _ h ready marked deeper (callSite env (outer "dump" 6) 26)
  obtain ⟨h₂, item_run, keeps₂, marked₂⟩ :=
    item_text _ h₁ (ready.keeps keeps₁) marked₁ deeper (callSite env (outer "dump" 6) 26)
  have binds₁ := binds.mono keeps₁
  have key_called := Gives.expr_call 26 (eval_dump binds) (gives_key binds) room key_run
  have item_called := Gives.expr_call 26 (eval_dump binds₁) (gives_item binds₁) room item_run
  have joined : bytes (ascii "[") ++ (bytes kt ++ (bytes (ascii "]=") ++ bytes it)) =
      bytes (91 :: (kt ++ 93 :: 61 :: it)) := by
    rw [← bytes_append, ← bytes_append, ← bytes_append]
    rfl
  have whole := Gives.expr_concat 26 (.of_eq (eval_text "["))
    (Gives.expr_concat 26 key_called (Gives.expr_concat 26 (.of_eq (eval_text "]=")) item_called))
  rw [joined] at whole
  exact ⟨h₂, .list_one rfl whole, keeps₁.trans keeps₂, marked₂⟩

theorem eval_place {env : Env} {vs : List Value} (binds : h.Binds env.scope ws)
    (lies : ws[2]? = some (.table list)) (lists : h.Lists list vs) (small : vs.length < 2 ^ 62) :
    evalExpr env
      (.arith .add (.unary .length (own "entries" 2) 26) (.literal (.number (.integer 1))) 26) h =
      .done (.ofNat (vs.length + 1)) h := by
  have operand : evalExpr env (own "entries" 2) h = .done (.table list) h :=
    evalExpr_variable binds lies
  have measured := evalExpr_length_eq 26 operand
  rw [lists.length small] at measured
  have both := operands_apart env (e := .unary .length (own "entries" 2) 26) rfl measured
    (evalExpr_literal env h (.number (.integer 1)))
  have sum : Int64.ofNat vs.length + 1 = Int64.ofNat (vs.length + 1) := (Int64.ofNat_add _ _).symm
  rw [evalExpr_arith_eq both, Value.ofNat, Value.ofNat, ← sum]
  rfl

theorem gives_entry {calls nested : Nat} {env : Env} {key item kind v : Value} {kt it : List UInt8}
    (ready : Ready base dumpId quoteId visiting start) (other : list ≠ visiting)
    (fresh : start.tables.size ≤ list)
    (c : Collects start visiting list marks scope ws texts h) (small : texts.length < 2 ^ 62)
    {rest : List Value}
    (binds : h.Binds env.scope (item :: key :: .table list :: kind :: .table visiting :: v ::
      .closure dumpId :: rest))
    (key_text : Renderable base dumpId quoteId visiting marks calls nested key kt)
    (item_text : Renderable base dumpId quoteId visiting marks calls nested item it)
    (room : depth.Admits (calls + 1) nested) :
    ∃ h', Gives depth (execList env entry h) (.next env) h' ∧
      Collects start visiting list marks scope ws (texts ++ [91 :: (kt ++ 93 :: 61 :: it)]) h' := by
  obtain ⟨h₁, text_run, keeps, marked⟩ :=
    gives_entryText (ready.keeps c.keeps) c.marked binds key_text item_text room
  have c₁ := c.mono other keeps marked
  obtain ⟨t, stored, seq⟩ := c₁.lists
  have place := eval_place binds rfl c.lists (by rwa [Sorting.length_strings])
  rw [Sorting.length_strings] at place
  have assigned := Gives.stmt_assign 26 (bytes (ascii "entries")) 2 (deferred_apart rfl place) rfl
    text_run (binds.mono keeps) rfl stored seq.metatable rfl
  have appended := c₁.lists.append (v := .string (bytes (91 :: (kt ++ 93 :: 61 :: it))))
    (by rwa [Sorting.length_strings]) rfl
  rw [Sorting.length_strings] at appended
  have changes := Heap.ChangesOnly.set list h₁ (.ofNat (texts.length + 1))
    (.string (bytes (91 :: (kt ++ 93 :: 61 :: it))))
  refine ⟨_, .stmts_next assigned .stmts_nil, c₁.keeps.changes changes (.inr fresh), ?_,
    marked.changes changes other, ?_⟩
  · exact c₁.binds.mono ((Heap.Keeps.refl (some list) h₁).changes changes (.inl rfl))
  · rw [Sorting.strings, List.map_append]
    exact appended

section Loop

variable {calls nested : Nat} {env : Env} {id : TableId} {t : Table} {kind v control : Value}
  {rest : List Value}

def walk (env : Env) (id : TableId) (control : Value) : Task :=
  .eachLoop (.builtin .next) (.table id) control 2 entry 25 env

/-- A round of the loop over a table asks for the entry that is ahead. -/
theorem leads_walk (env : Env) (h : Heap) (values : List Value)
    (room : depth.Admits calls (nested + 1))
    (next : ∀ c, Builtin.next.run [.table id, control] c h = .done values h) :
    Leads depth ((walk env id control).step h)
      ((do
        let vs := adjust 2 values
        let first := vs.headD .nil
        if first.isNil then return .next env
        else do
          let inner ← env.declare vs
          return Task.continueWith (walk env id first) env (← execList inner entry) :
          Action Flow) h) := by
  let site : Site :=
    ⟨some (env.position 25), some ⟨.iterator, bytes (ascii NameKind.iterator.word)⟩⟩
  have enough : (depth.enter site).Admits 0 0 :=
    (room.enter_nested rfl).mono (Nat.zero_le _) (Nat.zero_le _)
  have called : Gives depth (Action.call (.builtin .next) [.table id, control] site h) values h :=
    .call enough (.of_builtin rfl fun c => .of_eq (next c)) (.done _ _)
  exact .bind called

theorem leads_entry {key item : Value} {es : List (Value × Value)}
    (stored : base.tables[id]? = some t) (ready : Ready base dumpId quoteId visiting start)
    (other : list ≠ visiting) (room : depth.Admits calls (nested + 1))
    (walks : t.Walks base.circumstances.rank control ((key, item) :: es))
    (there : key.isNil = false) (c : Collects start visiting list marks env.scope ws texts h) :
    ∃ inner h₁, h₁.Binds inner.scope (item :: key :: ws) ∧
      Collects start visiting list marks env.scope ws texts h₁ ∧
      Leads depth ((walk env id control).step h)
        ((execList inner entry h₁).bind fun flow h =>
          .done (Task.continueWith (walk env id key) env flow) h) := by
  have now := ready.keeps c.keeps
  have leads := leads_walk env h [key, item] room fun _ =>
    Builtin.run_next (now.tables _ _ stored) (now.circumstances ▸ walks)
  obtain ⟨inner, h₁, declared, within, keeps, -⟩ := declare_binds c.binds [key, item]
  refine ⟨inner, h₁, within, c.mono other (keeps.weaken _) (c.marked.keeps keeps), leads.trans ?_⟩
  have first : (adjust 2 [key, item]).headD .nil = key := rfl
  simp only [first, there, Bool.false_eq_true, if_false]
  exact .bind (.of_eq declared)

/-- The loop over a table puts the texts of the entries that are ahead at the end
of the list. -/
theorem loops_entries (stored : base.tables[id]? = some t)
    (ready : Ready base dumpId quoteId visiting start) (other : list ≠ visiting)
    (fresh : start.tables.size ≤ list) (room : depth.Admits (calls + 1) (nested + 1))
    (qs : List ((Value × Value) × (List UInt8 × List UInt8)))
    (walks : t.Walks base.circumstances.rank control (qs.map (·.1)))
    (there : ∀ q ∈ qs, q.1.1.isNil = false)
    (keys : ∀ q ∈ qs, Renderable base dumpId quoteId visiting marks calls (nested + 1) q.1.1 q.2.1)
    (items : ∀ q ∈ qs, Renderable base dumpId quoteId visiting marks calls (nested + 1) q.1.2 q.2.2)
    (c : Collects start visiting list marks env.scope
      (.table list :: kind :: .table visiting :: v :: .closure dumpId :: rest) texts h)
    (small : texts.length + qs.length < 2 ^ 62) :
    ∃ h', Loops depth (walk env id control) h (.next env) h' ∧
      Collects start visiting list marks env.scope
        (.table list :: kind :: .table visiting :: v :: .closure dumpId :: rest)
        (texts ++ qs.map fun q => entryText q.2) h' := by
  induction qs generalizing control texts h with
  | nil =>
    have now := ready.keeps c.keeps
    have leads := leads_walk env h [.nil] room fun _ =>
      Builtin.run_next (now.tables _ _ stored) (now.circumstances ▸ walks)
    exact ⟨h, .last (leads.gives (.done _ _)) fun _ => Flow.noConfusion, by simpa using c⟩
  | cons q qs ih =>
    obtain ⟨⟨key, item⟩, kt, it⟩ := q
    obtain ⟨inner, h₁, within, c₁, leads⟩ :=
      leads_entry stored ready other room walks (there _ List.mem_cons_self) c
    obtain ⟨h₂, entered, c₂⟩ :=
      gives_entry ready other fresh c₁ (by omega) within (keys _ List.mem_cons_self)
      (items _ List.mem_cons_self) room
    obtain ⟨h₃, loops, c₃⟩ := ih walks.next (fun q mem => there q (List.mem_cons_of_mem _ mem))
      (fun q mem => keys q (List.mem_cons_of_mem _ mem))
      (fun q mem => items q (List.mem_cons_of_mem _ mem)) c₂
      (by rw [List.length_cons] at small; rw [List.length_append, List.length_singleton]; omega)
    have round : Gives depth ((walk env id control).step h) (.again (walk env id key)) h₂ :=
      leads.gives (entered.bind (.done _ _))
    refine ⟨h₃, .again round loops, ?_⟩
    rw [List.append_assoc] at c₃
    exact c₃

end Loop

def marking (marks : Value → Value) (id : TableId) : Value → Value :=
  fun k => if k.toKey = .table id then .boolean true else marks k

theorem toKey_eq_table {k : Value} {id : TableId} : k.toKey = .table id ↔ k = .table id := by
  constructor
  · intro eq
    cases k with
    | double x =>
      rw [Value.toKey] at eq
      split at eq <;> cases eq
    | _ => exact eq
  · rintro rfl
    rfl

theorem gives_mark {env : Env} {i j : Nat} {id : TableId} (l : Literal) (line : Nat)
    (marked : Marks visiting marks h) (binds : h.Binds env.scope ws)
    (at_i : ws[i]? = some (.table visiting)) (at_j : ws[j]? = some (.table id)) :
    Gives depth (exec env (.assign [.entry (own "visiting" i) (own "value" j) line] [.literal l]) h)
      (.next env)
        (h.set visiting (.table id) (.ofLiteral l)) ∧
      Marks visiting (fun k => if k.toKey = .table id then .ofLiteral l else marks k)
        (h.set visiting (.table id) (.ofLiteral l)) ∧
      Heap.Keeps (some visiting) h (h.set visiting (.table id) (.ofLiteral l)) := by
  have later := marked.set (k := .table id) rfl (.ofLiteral l)
  obtain ⟨m, stored, plain, -⟩ := marked
  refine ⟨?_, later, (Heap.Keeps.refl _ h).changes (.set _ _ _ _) (.inl rfl)⟩
  exact .stmt_assign line _ i deferred_own (read_eq binds at_j)
    (.list_one rfl (.of_eq (evalExpr_literal env h l))) binds at_i stored plain rfl

section Table

variable {calls nested : Nat} {env : Env} {id : TableId} {t : Table}

/-- What the routine does with a table before the loop: the table is marked, and a
new list is made for the texts. -/
theorem leads_table (ready : Ready base dumpId quoteId visiting h) (marked : Marks visiting marks h)
    (room : depth.Admits (calls + 1) nested) (stored : base.tables[id]? = some t)
    (walked : base.Walked t) (unmarked : marks (.table id) = .nil)
    (within : h.Binds env.scope [.ofAscii "table", .table visiting, .table id,
      .closure dumpId, .closure quoteId, .table Heap.globals]) :
    ∃ env' start h', Heap.Keeps (some visiting) h start ∧ start.tables.size ≠ visiting ∧
      Collects start visiting start.tables.size (marking marks id) env'.scope
        [.table start.tables.size, .ofAscii "table",
        .table visiting, .table id, .closure dumpId, .closure quoteId, .table Heap.globals] [] h' ∧
      Leads depth (execList env table h) (execList env' (loop :: close) h') ∧
      Leads depth (exec env' loop h') (.run (walk env' id .nil) h' .done) := by
  have skipped :
      Gives depth (exec env (.ifElse (.index (own "visiting" 1) (own "value" 2) 20) cyclic []) h)
      (.next env) h := by
    obtain ⟨m, marks_stored, marks_plain, marks_get⟩ := marked
    have value : evalExpr env (own "value" 2) h = .done (.table id) h :=
      evalExpr_variable within rfl
    have entry : evalExpr env (.index (own "visiting" 1) (own "value" 2) 20) h =
        .done (m.get (.table id)) h :=
      evalExpr_index_own within rfl value marks_stored marks_plain
    rw [marks_get, unmarked] at entry
    exact .stmt_skip (.of_eq entry) rfl
  obtain ⟨mark_run, marked₂, keeps₂⟩ :=
    gives_mark (i := 1) (j := 2) (.boolean true) 23 marked within rfl rfl
  generalize made₂ : h.set visiting (.table id) (.ofLiteral (.boolean true)) = h₂ at *
  have made₃ : (h₂.newTable (Table.empty.resized 0 0)).2.tables[h₂.tables.size]? =
      some (Table.empty.resized 0 0) := by
    simp [Heap.newTable]
  have keeps₃ := Heap.Keeps.newTable h₂ (Table.empty.resized 0 0)
  obtain ⟨env₄, h₄, declares, within₄, keeps₄, tables₄⟩ :=
    (Gives.list_one rfl .expr_emptyTable).stmt_declare 1 ((within.mono keeps₂).mono keeps₃)
  -- the list of texts is new, so it is neither the table of marks nor a table of the value
  have other : h₂.tables.size ≠ visiting := by
    obtain ⟨m, marks_stored, -⟩ := marked₂
    have := (Array.getElem?_eq_some_iff.1 marks_stored).1
    omega
  have c₄ : Collects h₂ visiting h₂.tables.size (marking marks id)
      env₄.scope [.table h₂.tables.size,
      .ofAscii "table", .table visiting, .table id, .closure dumpId, .closure quoteId,
      .table Heap.globals] [] h₄ :=
    ⟨(keeps₃.trans keeps₄).weaken _, within₄, marked₂.keeps (keeps₃.trans keeps₄),
      ⟨_, by rw [tables₄]; exact made₃, .new _ rfl rfl rfl rfl⟩⟩
  have ready₄ := (ready.keeps keeps₂).keeps c₄.keeps
  have pairs := eval_global "pairs" 6 25 within₄ rfl (ready₄.get_eq ready.intact.pairs rfl) rfl
  have given : Gives depth (evalList env₄ [own "value" 3] h₄) [.table id] h₄ :=
    .list_one rfl (.of_eq (evalExpr_variable within₄ rfl))
  have silent := (walked.mono ready₄.tables).metamethod (ready₄.tables _ _ stored)
  have iterated : Gives depth (evalList env₄ [.call (global "pairs" 6 25) [own "value" 3] 25] h₄)
      [.builtin .next, .table id, .nil] h₄ :=
    .list_last
      (.multi_call 25 pairs given room (.of_builtin rfl fun _ => .of_eq (Builtin.run_pairs silent)))
  have looped : Leads depth (exec env₄ loop h₄) (.run (walk env₄ id .nil) h₄ .done) := by
    rw [loop, exec]
    exact .bind iterated
  refine ⟨env₄, h₂, h₄, keeps₂, other, c₄, ?_, looped⟩
  exact (leads_stmt skipped).trans ((leads_stmt mark_run).trans (leads_stmt declares))

/-- After the loop the mark is taken away, and the texts are to be sorted. -/
theorem leads_close (depth : Depth) (ready : Ready base dumpId quoteId visiting start)
    (other : start.tables.size ≠ visiting) (unmarked : marks (.table id) = .nil)
    (c : Collects start visiting start.tables.size (marking marks id) env.scope
      [.table start.tables.size, .ofAscii "table",
      .table visiting, .table id, .closure dumpId, .closure quoteId, .table Heap.globals] texts h) :
    ∃ h', Leads depth (execList env close h) (execList env close.tail h') ∧
      Collects start visiting start.tables.size marks env.scope
        [.table start.tables.size, .ofAscii "table",
        .table visiting, .table id, .closure dumpId, .closure quoteId,
          .table Heap.globals] texts h' ∧
      evalExpr env (member "table" "sort" 6 29) h' = .done (.builtin .tableSort) h' ∧
      Gives depth (evalList env [own "entries" 0] h') [.table start.tables.size] h' := by
  obtain ⟨unmark_run, marked, keeps⟩ :=
    gives_mark (i := 2) (j := 3) .nil 28 c.marked c.binds rfl rfl
  generalize h.set visiting (.table id) (.ofLiteral .nil) = h' at *
  have back : (fun k => if k.toKey = .table id then Value.ofLiteral .nil
      else marking marks id k) = marks := by
    funext k
    by_cases same : k.toKey = .table id
    · rw [if_pos same, toKey_eq_table.1 same, unmarked]
      rfl
    · rw [if_neg same, marking, if_neg same]
  rw [back] at marked
  have c' := c.mono other keeps marked
  have now := ready.keeps c'.keeps
  exact ⟨h', leads_stmt unmark_run, c',
    eval_member "table" "sort" 6 29 c'.binds rfl (now.get_eq ready.intact.table rfl)
    (now.get_eq ready.intact.sort rfl) rfl, .list_one rfl (.of_eq (evalExpr_variable c'.binds rfl))⟩

/-- What the routine does after the loop: the mark is taken away, and the texts
are sorted and joined. -/
theorem gives_close (ready : Ready base dumpId quoteId visiting start)
    (other : start.tables.size ≠ visiting) (room : depth.Admits (calls + 1) nested)
    (unmarked : marks (.table id) = .nil) (few : texts.length < 0x7FFFFFFF)
    (c : Collects start visiting start.tables.size (marking marks id) env.scope
      [.table start.tables.size, .ofAscii "table",
      .table visiting, .table id, .closure dumpId, .closure quoteId, .table Heap.globals] texts h) :
    ∃ h', Gives depth (execList env close h)
      (.ret [.string (bytes (123 :: (Data.joined (Data.sorted texts) ++ [125])))]) h' ∧
      Heap.Keeps (some visiting) start h' ∧ Marks visiting marks h' := by
  obtain ⟨h₆, leads, c₆, sort, given₆⟩ := leads_close depth ready other unmarked c
  obtain ⟨h₇, sort_run, sorted, changes⟩ := Builtin.run_sort c₆.lists few
  have sort_done :
    Gives depth
    (exec env (.expression (.call (member "table" "sort" 6 29) [own "entries" 0] 29)) h₆)
      (.next env) h₇ :=
    .stmt_expression
      (.multi_call 29 sort given₆ room (.of_builtin rfl fun c => .of_eq (sort_run c)))
  have binds₇ :=
    c₆.binds.mono ((Heap.Keeps.refl (some start.tables.size) h₆).changes changes (.inl rfl))
  have keeps₇ := c₆.keeps.changes changes (.inr (Nat.le_refl _))
  have ready₇ := ready.keeps keeps₇
  have concat := eval_member "table" "concat" 6 30 binds₇ rfl (ready₇.get_eq ready.intact.table rfl)
    (ready₇.get_eq ready.intact.concat rfl) rfl
  have given₇ : Gives depth (evalList env [own "entries" 0, text ","] h₇)
      [.table start.tables.size, .ofAscii ","] h₇ :=
    .list_cons (.of_eq (evalExpr_variable binds₇ rfl)) (.list_one rfl (.of_eq (eval_text ",")))
  have length_sorted : (Data.sorted texts).length < 2 ^ 62 := by
    rw [(Data.sorted_perm _).length_eq]
    omega
  have concat_run := Gives.expr_call 30 concat given₇ room
    (.of_builtin rfl fun c => .of_eq (Builtin.run_concat sorted length_sorted))
  have whole :=
    Gives.expr_concat 30 (.of_eq (eval_text "\x7b"))
      (Gives.expr_concat 30 concat_run (.of_eq (eval_text "\x7d")))
  have rendered : bytes (ascii "\x7b") ++
      (bytes (Data.joined (Data.sorted texts)) ++ bytes (ascii "\x7d")) =
      bytes (123 :: (Data.joined (Data.sorted texts) ++ [125])) := by
    rw [← bytes_append, ← bytes_append]
    rfl
  rw [rendered] at whole
  exact ⟨h₇,
    leads.gives
    (sort_done.stmts_next
    (.stmts_stop (fun _ => Flow.noConfusion) (.stmt_ret (.list_one rfl whole)))),
    keeps₇, c₆.marked.changes changes other⟩

variable {qs : List ((Value × Value) × (List UInt8 × List UInt8))}
  (stored : base.tables[id]? = some t) (walked : base.Walked t)
  (unmarked : marks (.table id) = .nil) (all : t.tour base.circumstances.rank = qs.map (·.1))
  (keys : ∀ q ∈ qs, Renderable base dumpId quoteId visiting (marking marks id) calls
    (nested + 1) q.1.1 q.2.1)
  (items : ∀ q ∈ qs, Renderable base dumpId quoteId visiting (marking marks id) calls
    (nested + 1) q.1.2 q.2.2)

include stored walked unmarked all keys items

/-- The routine comes to the end of its loop over a table, with the texts of all
entries in its list. -/
theorem leads_texts (ready : Ready base dumpId quoteId visiting h) (marked : Marks visiting marks h)
    (room : depth.Admits (calls + 1) (nested + 1)) (small : qs.length < 2 ^ 62)
    (within : h.Binds env.scope [.ofAscii "table", .table visiting, .table id,
      .closure dumpId, .closure quoteId, .table Heap.globals]) :
    ∃ env' start h', Heap.Keeps (some visiting) h start ∧ start.tables.size ≠ visiting ∧
      Collects start visiting start.tables.size (marking marks id) env'.scope
        [.table start.tables.size, .ofAscii "table",
        .table visiting, .table id, .closure dumpId, .closure quoteId,
          .table Heap.globals] (qs.map fun q => entryText q.2) h' ∧
      Leads depth (execList env table h) (execList env' close h') := by
  obtain ⟨env', start, h₁, keeps, other, c, opened, looped⟩ :=
    leads_table ready marked room stored walked unmarked within
  have walks : t.Walks base.circumstances.rank .nil (qs.map (·.1)) := all ▸ Table.Walks.start t _
  have there : ∀ q ∈ qs, q.1.1.isNil = false := by
    intro q mem
    have live : (q.1.1, q.1.2) ∈ t.live := (t.tour_perm _).subset (all ▸ List.mem_map_of_mem mem)
    exact Value.isNil_of_isKey (t.isKey_of_mem_live live)
  obtain ⟨h₂, loops, c₂⟩ := loops_entries stored (ready.keeps keeps) other (Nat.le_refl _) room qs
    walks there keys items c (by rw [List.length_nil]; omega)
  have loop_run : Gives depth (exec env' loop h₁) (.next env') h₂ :=
    looped.gives (Gives.run rfl loops (.done _ _))
  exact ⟨env', start, h₂, keeps, other, c₂, opened.trans (leads_stmt loop_run)⟩

/-- A table whose entries can be rendered is rendered, if it is not marked. -/
theorem renders_table (ready : Ready base dumpId quoteId visiting h)
    (marked : Marks visiting marks h)
    (room : depth.Admits (calls + 1) (nested + 1)) (few : qs.length < 0x7FFFFFFF) :
    Renders dumpId visiting marks depth (.table id)
      (123 :: (Data.joined (Data.sorted (qs.map fun q => entryText q.2)) ++ [125])) h := by
  intro site
  obtain ⟨env, h₁, within, keeps, chosen⟩ :=
    dump_enter ready (room.mono (by omega) (by omega)) (.table id) site
  have now := ready.keeps (keeps.weaken _)
  obtain ⟨env', start, h₂, keeps₂, other, c, leads⟩ :=
    leads_texts stored walked unmarked all keys items now (marked.keeps keeps) room
      (by omega) within
  obtain ⟨h₃, closes, keeps₃, marked₃⟩ :=
    gives_close (now.keeps keeps₂) other room unmarked (by rwa [List.length_map]) c
  obtain ⟨x, body, returns⟩ :=
    chosen _ _ (fun _ => Flow.noConfusion) (choose_table within (fun _ => Flow.noConfusion)
    (leads.gives closes))
  exact ⟨h₃, returns _ _ (.of_ret body), (keeps.weaken _).trans (keeps₂.trans keeps₃), marked₃⟩

end Table

end Rendering

section Chunk

variable {base : Heap} {id : ClosureId} {cell : CellId} {name : ByteArray}
  {v : Value} {depth : Depth}

/-- The chunk comes to the call of its function that renders a value, with a new table of marks. -/
theorem leads_chunk (stored : base.closures[id]? = some ⟨chunk, [cell], name⟩)
    (bound : base.cells[cell]? = some (.table Heap.globals))
    (intact : base.Intact) (depth : Depth) :
    ∃ dumpId quoteId env h h',
      Leads depth ((base.closure id).enter [v] base) (execList env code h) ∧
      evalExpr env (own "dump" 0) h = .done (.closure dumpId) h ∧
      Gives depth (evalList env [.varargs, .table [] 0 0] h) [v, .table base.tables.size] h' ∧
      Heap.Keeps none base h' ∧
      Ready base dumpId quoteId base.tables.size h' ∧
        Marks base.tables.size (fun _ => .nil) h' := by
  have start : base.Binds (Env.mk [cell] [v] name).scope [.table Heap.globals] := .cons bound .nil
  obtain ⟨env₁, h₁, quoteId, run₁, binds₁, stored₁, keeps₁, tables₁, varargs₁, -⟩ :=
    Gives.stmt_declareFunction depth quote start
  obtain ⟨env₂, h₂, dumpId, run₂, binds₂, stored₂, keeps₂, tables₂, varargs₂, -⟩ :=
    Gives.stmt_declareFunction depth dump binds₁
  have keeps₃ := Heap.Keeps.newTable h₂ (Table.empty.resized 0 0)
  have same : h₂.tables.size = base.tables.size := by rw [tables₂, tables₁]
  have keeps := (keeps₁.trans keeps₂).trans keeps₃
  have entered : (base.closure id).enter [v] base =
      execList ⟨[cell], [v], name⟩
        (.declareFunction quote :: .declareFunction dump :: code) base := by
    rw [Heap.closure_eq stored]
    exact enter_variadic _ _ _ _ _
  have given : Gives depth (evalList env₂ [.varargs, .table [] 0 0] h₂) [v, .table base.tables.size]
      (h₂.newTable (Table.empty.resized 0 0)).2 := by
    have first : evalExpr env₂ .varargs h₂ = .done v h₂ := by
      rw [evalExpr, varargs₂, varargs₁]
      rfl
    rw [← same]
    exact .list_cons (.of_eq first) (.list_one rfl .expr_emptyTable)
  have marked : Marks base.tables.size (fun _ => .nil)
      (h₂.newTable (Table.empty.resized 0 0)).2 := by
    refine ⟨Table.empty.resized 0 0, by simp [Heap.newTable, ← same], rfl, fun k => ?_⟩
    rw [Table.get, Table.look_resized]
    exact Table.get_empty k
  refine ⟨dumpId, quoteId, env₂, h₂, _, ?_, evalExpr_variable binds₂ rfl, given, keeps, ?_, marked⟩
  · rw [entered]
    exact (leads_stmt run₁).trans (leads_stmt run₂)
  · exact ⟨keeps.kept, Nat.le_refl _, keeps.circumstances, intact,
      ⟨_, _, keeps₃.closures _ _ (keeps₂.closures _ _ stored₁), (binds₁.mono keeps₂).mono keeps₃⟩,
      ⟨_, _, keeps₃.closures _ _ stored₂, binds₂.mono keeps₃⟩⟩

theorem returns_text {calls nested : Nat} {text : List UInt8}
    (stored : base.closures[id]? = some ⟨chunk, [cell], name⟩)
    (bound : base.cells[cell]? = some (.table Heap.globals)) (intact : base.Intact)
    (renders : ∀ dumpId quoteId, Renderable base dumpId quoteId base.tables.size
      (fun _ => .nil) calls nested v text)
    (room : depth.Admits (calls + 1) nested) (site : Site) :
    ∃ h', Returns depth ⟨.closure id, [v], site⟩ base
      [.string (bytes (ascii "return " ++ text))] h' ∧
      Heap.Keeps none base h' := by
  obtain ⟨dumpId, quoteId, env, h, h₁, leads, callee, given, keeps, ready, marked⟩ :=
    leads_chunk stored bound intact depth
  have deeper := room.enter_call (nested_callSite env (own "dump" 0) 35)
  obtain ⟨h₂, returns, keeps₂, -⟩ :=
    renders dumpId quoteId _ h₁ ready marked deeper (callSite env (own "dump" 0) 35)
  have whole :=
    Gives.expr_concat 35 (.of_eq (eval_text "return "))
      (Gives.expr_call 35 callee given room returns)
  rw [← bytes_append] at whole
  have returned :=
    leads.gives (.stmts_stop (fun _ => Flow.noConfusion) (.stmt_ret (.list_one rfl whole)))
  exact ⟨h₂, .of_closure rfl (.of_ret returned), keeps.forget keeps₂ (Nat.le_refl _)⟩

end Chunk

end DumpChunk

end SealedLua.Lua
