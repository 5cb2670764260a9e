import SealedLua.Proofs.Engine.DumpChunk
import SealedLua.Proofs.Lua.Builtins
import SealedLua.Proofs.Lua.Evaluation

/-!
# Runs of the function that quotes

The rendering routine quotes a string by a function of its own, which has the codes
substituted for the bytes that a pattern finds.  It needs three string functions and
nothing else of the library.  Where there is room for its calls it comes to the
quoted text; where there is not, it raises a text, in the substitution if a byte
needs its code and before that if the substitution itself is one call too many.
-/

namespace SealedLua.Lua

namespace Heap

variable {h h' : Heap}

theorem stored_of_get {id : TableId} {key f : Value} (entry : h.get id key = f)
    (there : f.isNil = false) :
    ∃ t, h.tables[id]? = some t ∧ t.get key = f := by
  cases stored : h.tables[id]? with
  | none =>
    rw [get, table, stored] at entry
    rw [Option.getD_none, Table.get_empty] at entry
    rw [← entry] at there
    cases there
  | some t => exact ⟨t, rfl, (get_eq stored key).symm.trans entry⟩

theorem get_kept (kept : ∀ (id : TableId) (t : Table), h.tables[id]? = some t →
    h'.tables[id]? = some t) {id : TableId}
    {key f : Value} (entry : h.get id key = f) (there : f.isNil = false) : h'.get id key = f := by
  obtain ⟨t, stored, held⟩ := stored_of_get entry there
  rw [get_eq (kept id t stored), held]

/-- The string functions that quoting uses are where a script finds them. -/
structure StringsIntact (h : Heap) : Prop where
  string : h.get globals (.ofAscii "string") = .table stringLibrary
  byte : h.get stringLibrary (.ofAscii "byte") = .builtin .stringByte
  format : h.get stringLibrary (.ofAscii "format") = .builtin .stringFormat
  gsub : h.get stringLibrary (.ofAscii "gsub") = .builtin .stringGsub

theorem StringsIntact.mono (strings : h.StringsIntact)
    (kept : ∀ (id : TableId) (t : Table), h.tables[id]? = some t → h'.tables[id]? = some t) :
    h'.StringsIntact := by
  constructor <;> refine get_kept kept ?_ rfl
  exacts [strings.string, strings.byte, strings.format, strings.gsub]

end Heap

namespace DumpChunk

section Names

variable {env : Env} {h : Heap} {vs : List Value} {f : Value} {id : TableId}

theorem eval_text (s : String) : evalExpr env (text s) h = .done (.ofAscii s) h :=
  evalExpr_literal _ _ _

theorem eval_global (name : String) (i line : Nat) (binds : h.Binds env.scope vs)
    (lies : vs[i]? = some (.table Heap.globals))
    (entry : h.get Heap.globals (.ofAscii name) = f) (there : f.isNil = false) :
    evalExpr env (global name i line) h = .done f h :=
  evalExpr_index rfl (evalExpr_variable binds lies) (eval_text name) entry there

theorem eval_global_plain {t : Table} (name : String) (i line : Nat) (binds : h.Binds env.scope vs)
    (lies : vs[i]? = some (.table Heap.globals)) (stored : h.tables[Heap.globals]? = some t)
    (bare : t.metatable = none) :
    evalExpr env (global name i line) h = .done (t.get (.ofAscii name)) h := by
  have globals : evalExpr env (outer "_ENV" i) h = .done (.table Heap.globals) h :=
    evalExpr_variable binds lies
  exact (evalExpr_index_eq (operands_apart env rfl globals (eval_text name))).trans
    (index_plain stored bare _ _ _)

theorem eval_member (library name : String) (i line : Nat) (binds : h.Binds env.scope vs)
    (lies : vs[i]? = some (.table Heap.globals))
    (held : h.get Heap.globals (.ofAscii library) = .table id)
    (entry : h.get id (.ofAscii name) = f)
    (there : f.isNil = false) : evalExpr env (member library name i line) h = .done f h :=
  evalExpr_index rfl (eval_global library i line binds lies held rfl) (eval_text name) entry there

end Names

/-- What the substitution is made of: the string, the pattern and the function
that gives the code of a byte. -/
def substituted : List Expr :=
  [own "text" 0, .literal (.string (bytes Quoting.pattern)), .function encoder]

def substitution : Expr := .call (member "string" "gsub" 2 6) substituted 6

/-- What is done to quote a string, and to give the code of a byte. -/
def quoting : List Stmt := [.ret [.concat (text "\"") (.concat substitution (text "\"") 8) 6]]

def encoding : List Stmt :=
  [.tailCall (member "string" "format" 3 7)
    [.literal (.string (bytes [92, 37, 48, 51, 100])),
      .call (member "string" "byte" 3 7) [own "c" 0] 7] 7]

theorem quote_eq : quote = .mk 1 false quoting := rfl

theorem encoder_eq : encoder = .mk 1 false encoding := rfl

/-- What the function that quotes finds in the heap: the string functions, and
itself in its scope. -/
structure Quoter (id : ClosureId) (h : Heap) : Prop where
  strings : h.StringsIntact
  stored : ∃ scope chunk, h.closures[id]? = some ⟨quote, scope, chunk⟩ ∧
    h.Binds scope [.closure id, .table Heap.globals]

section Quote

variable {h h' : Heap} {id quoteId : ClosureId} {depth : Depth} {scope : List CellId}
  {chunk : ByteArray} {v w : Value} {s : ByteArray}

theorem Quoter.keeps (quoter : Quoter id h) (k : Heap.Keeps none h h') : Quoter id h' := by
  obtain ⟨scope, chunk, stored, binds⟩ := quoter.stored
  exact ⟨quoter.strings.mono k.kept, scope, chunk, k.closures _ _ stored, binds.mono k⟩

/-- The function that gives the code of a byte comes to its two calls. -/
theorem encoder_enters (strings : h.StringsIntact)
    (stored : h.closures[id]? = some ⟨encoder, scope, chunk⟩)
    (binds : h.Binds scope [v, w, .table Heap.globals]) (depth : Depth) (c : UInt8) :
    ∃ env h', (h.closure id).enter [.string (bytes [c])] h = execList env encoding h' ∧
      evalExpr env (member "string" "format" 3 7) h' = .done (.builtin .stringFormat) h' ∧
      evalExpr env (member "string" "byte" 3 7) h' = .done (.builtin .stringByte) h' ∧
      Gives depth (evalList env [own "c" 0] h') [.string (bytes [c])] h' ∧
        Heap.Keeps none h h' := by
  rw [encoder_eq] at stored
  obtain ⟨env, h', within, keeps, -, entered⟩ := enters_body [.string (bytes [c])] stored binds
  have now := strings.mono keeps.kept
  exact ⟨env, h', entered, eval_member "string" "format" 3 7 within rfl now.string now.format rfl,
    eval_member "string" "byte" 3 7 within rfl now.string now.byte rfl,
    .list_one rfl (.of_eq (evalExpr_variable within rfl)), keeps⟩

theorem returns_encoder (strings : h.StringsIntact)
    (stored : h.closures[id]? = some ⟨encoder, scope, chunk⟩)
    (binds : h.Binds scope [v, w, .table Heap.globals]) (room : depth.Admits 1 0)
    (c : UInt8) (site : Site) :
    ∃ h', Returns depth ⟨.closure id, [.string (bytes [c])], site⟩ h
      [.string (bytes (92 :: Quoting.digits c))] h' ∧
      Heap.Keeps none h h' := by
  obtain ⟨env, h', entered, format, byte, argument, keeps⟩ :=
    encoder_enters strings stored binds depth c
  have code : Gives depth (evalList env [.call (member "string" "byte" 3 7) [own "c" 0] 7] h')
      [.integer (Int64.ofNat c.toNat)] h' :=
    .list_last
      (.multi_call 7 byte argument room (.of_builtin rfl fun _ => .of_eq (Builtin.run_byte c)))
  have body := Gives.stmts_tailCall 7 [] format
    (.list_cons (.of_eq (evalExpr_literal _ _ (.string (bytes [92, 37, 48, 51, 100])))) code)
  refine ⟨h', .of_closure rfl ?_, keeps⟩
  rw [entered]
  exact answers_tail_builtin body room fun _ => .of_eq (Builtin.run_format_code c)

theorem throws_encoder (strings : h.StringsIntact)
    (stored : h.closures[id]? = some ⟨encoder, scope, chunk⟩)
    (binds : h.Binds scope [v, w, .table Heap.globals]) (full : ¬depth.Admits 1 0)
    (c : UInt8) (site : Site) :
    ∃ h', Throws depth ⟨.closure id, [.string (bytes [c])], site⟩ h h' ∧ Heap.Keeps none h h' := by
  obtain ⟨env, h', entered, format, byte, argument, keeps⟩ :=
    encoder_enters strings stored binds depth c
  refine ⟨h', .of_closure rfl (.of_raises ?_), keeps⟩
  rw [entered]
  exact .stmts_first (.stmt_tailCall 7 format
    (.list_cons (.of_eq (evalExpr_literal _ _ (.string (bytes [92, 37, 48, 51, 100]))))
      (.list_last (.multi_call_deep 7 byte argument full))))

/-- The substitution cannot have the code of a byte where there is no room for
the call, or in it. -/
theorem raises_encoder {α : Type} (strings : h.StringsIntact)
    (stored : h.closures[id]? = some ⟨encoder, scope, chunk⟩)
    (binds : h.Binds scope [v, w, .table Heap.globals]) (full : ¬depth.Admits 1 1) (c : UInt8) :
    ∃ h', (∀ k : List Value → Heap → Step α,
        Raises depth (.call ⟨.closure id, [.string (bytes [c])], Site.native⟩ h k) h') ∧
          Heap.Keeps none h h' := by
  have deep : Site.native.nested = true := rfl
  by_cases room : (depth.enter Site.native).Admits 0 0
  · obtain ⟨h', throws, keeps⟩ :=
      throws_encoder strings stored binds (mt (Depth.admits_enter_nested deep).1 full) c Site.native
    exact ⟨h', fun _ => .call room throws, keeps⟩
  · exact ⟨h, fun _ => .call_deep room, .refl _ _⟩

/-- The quoting function comes to its substitution, with a new function that
gives the codes of bytes. -/
theorem quote_enters (quoter : Quoter quoteId h) (depth : Depth) (s : ByteArray) :
    ∃ env h₁ h₂ id scope chunk, (h.closure quoteId).enter [.string s] h = execList env quoting h₁ ∧
      evalExpr env (member "string" "gsub" 2 6) h₁ = .done (.builtin .stringGsub) h₁ ∧
      Gives depth (evalList env substituted h₁) [.string s, .string (bytes Quoting.pattern),
        .closure id] h₂ ∧
      h₂.closures[id]? = some ⟨encoder, scope, chunk⟩ ∧
      h₂.Binds scope [.string s, .closure quoteId, .table Heap.globals] ∧
      Heap.Keeps none h h₂ := by
  obtain ⟨scope, chunk, stored, binds⟩ := quoter.stored
  rw [quote_eq] at stored
  obtain ⟨env, h₁, within, keeps, -, entered⟩ := enters_body [.string s] stored binds
  have now := (quoter.keeps keeps).strings
  have callee := eval_member "string" "gsub" 2 6 within rfl now.string now.gsub rfl
  let code : Closure := ⟨encoder, env.scope, env.chunk⟩
  have made : evalExpr env (.function encoder) h₁ = .done (.closure h₁.closures.size)
      (h₁.newClosure code).2 := by
    rw [evalExpr]
    rfl
  have given : Gives depth (evalList env substituted h₁)
      [.string s, .string (bytes Quoting.pattern), .closure h₁.closures.size]
      (h₁.newClosure code).2 :=
    .list_cons (.of_eq (evalExpr_variable within rfl))
      (.list_cons (.of_eq (evalExpr_literal _ _ _)) (.list_one rfl (.of_eq made)))
  have created := Heap.Keeps.newClosure h₁ code
  exact ⟨env, h₁, _, _, env.scope, env.chunk, entered, callee, given,
    by simp [Heap.newClosure, code],
    within.mono created, keeps.trans created⟩

/-- A string is quoted, if there is room for the calls that its bytes need. -/
theorem returns_quote (quoter : Quoter quoteId h)
    (room : depth.Admits (Quoting.calls (codes s)) (Quoting.nested (codes s))) (site : Site) :
    ∃ h', Returns depth ⟨.closure quoteId, [.string s], site⟩ h
      [.string (bytes (Quoting.text (codes s)))] h' ∧
      Heap.Keeps none h h' := by
  obtain ⟨env, h₁, h₂, id, scope, chunk, entered, callee, given, stored, binds, keeps⟩ :=
    quote_enters quoter depth s
  have strings := (quoter.keeps keeps).strings
  have flat := nested_callSite env (member "string" "gsub" 2 6) 6
  let inner := depth.enter (callSite env (member "string" "gsub" 2 6) 6)
  have one := room.mono (Quoting.calls_pos _) (Nat.zero_le _)
  -- Only a byte that needs its code has the substitution call anything.
  have deeper : ∀ c ∈ codes s, Quoting.escapes c = true → (inner.enter Site.native).Admits 1 0 := by
    intro c mem special
    rw [Quoting.calls_of_escapes mem special, Quoting.nested_of_escapes mem special] at room
    exact (room.enter_call flat).enter_nested rfl
  have encodes : Quoting.Encodes (inner.enter Site.native) id s (Heap.Keeps none h₂) := by
    intro c mem h special kept
    obtain ⟨h', returns, more⟩ :=
      returns_encoder (strings.mono kept.kept) (kept.closures _ _ stored) (binds.mono kept)
      (deeper c mem special) c Site.native
    exact ⟨h', returns, kept.trans more⟩
  have asks : Quoting.Room inner s := fun c mem special =>
    (deeper c mem special).mono (Nat.zero_le 1) (Nat.le_refl 0)
  obtain ⟨n, h₃, gsub, kept⟩ := Quoting.gives_gsub asks encodes (Heap.Keeps.refl _ _)
  have quoted : bytes (ascii "\"") ++
      (bytes ((codes s).flatMap Quoting.byte) ++ bytes (ascii "\"")) =
      bytes (Quoting.text (codes s)) := by
    rw [← bytes_append, ← bytes_append]
    rfl
  have called := Gives.expr_call 6 callee given one (.of_builtin rfl gsub)
  have whole := Gives.expr_concat 6 (.of_eq (eval_text "\"")) (Gives.expr_concat 8 called
    (.of_eq (eval_text "\"")))
  rw [quoted] at whole
  refine ⟨h₃, .of_closure rfl ?_, keeps.trans kept⟩
  rw [entered]
  exact .of_ret (.stmts_stop (fun _ => Flow.noConfusion) (.stmt_ret (.list_one rfl whole)))

/-- A string is not quoted, if there is no room for the calls that its bytes need. -/
theorem throws_quote (quoter : Quoter quoteId h)
    (full : ¬depth.Admits (Quoting.calls (codes s)) (Quoting.nested (codes s))) (site : Site) :
    ∃ h', Throws depth ⟨.closure quoteId, [.string s], site⟩ h h' ∧ Heap.Keeps none h h' := by
  obtain ⟨env, h₁, h₂, id, scope, chunk, entered, callee, given, stored, binds, keeps⟩ :=
    quote_enters quoter depth s
  have flat := nested_callSite env (member "string" "gsub" 2 6) 6
  obtain ⟨h₃, called, kept⟩ : ∃ h₃, Raises depth (evalExpr env substitution h₁) h₃ ∧
      Heap.Keeps none h₂ h₃ := by
    -- either the substitution is itself a call too many, or the code of the first byte to need one
    by_cases one : depth.Admits 1 0
    · have special : (codes s).any Quoting.escapes = true := by
        by_contra plain
        rw [Quoting.calls, Quoting.nested, if_neg plain, if_neg plain] at full
        exact full one
      rw [Quoting.calls, Quoting.nested, if_pos special, if_pos special] at full
      obtain ⟨h₃, gsub, kept⟩ := Quoting.raises_gsub special fun c =>
        raises_encoder (quoter.keeps keeps).strings stored binds
        (mt (Depth.admits_enter_call flat).1 full) c
      exact ⟨h₃, .expr_call 6 callee given one (.of_builtin rfl gsub), kept⟩
    · exact ⟨h₂, .expr_call_deep 6 callee given one, .refl _ _⟩
  refine ⟨h₃, .of_closure rfl (.of_raises ?_), keeps.trans kept⟩
  rw [entered]
  exact .stmts_first
    (.stmt_ret (.list_one rfl (.concat_right 6 (.of_eq (eval_text "\"")) (.concat_left 8 called))))

end Quote

end DumpChunk
end SealedLua.Lua
