import SealedLua.Proofs.Engine.Preparation

/-!
# The function that reads no chunks but text

What the routine stores as `load` counts the arguments after the third one, and hands
over to the base function in its place, with the mode for text.  That is all it does:
its run is a call of `select` and one comparison.
-/

namespace SealedLua.Lua.SandboxChunk

open DumpChunk Machine

/-- The last call of the function, which hands over `others` after the mode. -/
def handsOver (others : List Expr) (line : Nat) : Stmt :=
  .tailCall (outer "base_load" 4) ([own "chunk" 2, own "name" 1, text "t"] ++ others) line

/-- How the function goes on when it knows how many arguments come after the third. -/
def afterCount (env : Env) (count : Value) : Action Flow := do
  if ← compare (some (env.position 11)) .gt count (.integer 0) then
    exec env (handsOver [.varargs] 12)
  else exec env (handsOver [] 14)

/-- Where the function calls `select` and the base function. -/
def selectSite (env : Env) : Site := callSite env (outer "select" 3) 11

def loadSite (env : Env) (line : Nat) : Site := callSite env (outer "base_load" 4) line

def entered (h : Heap) (args : List Value) : Heap := h.joined (adjust 3 args).toArray #[]

variable {h : Heap} {env : Env} {outside : List CellId} {name : ByteArray}

theorem entered_eq {args : List Value} {x y z : Value} (three : adjust 3 args = [x, y, z]) :
    entered h args = (((h.newCell x).2.newCell y).2.newCell z).2 := by
  have pushed : ((h.cells.push x).push y).push z = h.cells ++ #[x, y, z] :=
    Array.toList_inj.1 (by simp)
  rw [entered, three]
  simp [Heap.newCell, Heap.joined, pushed]

theorem declare_three (args : List Value) :
    Env.declare ⟨outside, args.drop 3, name⟩ (adjust 3 args) h =
      .done ⟨[h.cells.size + 2, h.cells.size + 1, h.cells.size] ++ outside, args.drop 3,
        name⟩ (entered h args) := by
  obtain ⟨x, y, z, three⟩ := List.length_eq_three.1 (length_adjust 3 args)
  have declared : Env.declare ⟨outside, args.drop 3, name⟩ [x, y, z] h = .done
      ⟨((h.newCell x).2.newCell y).2.cells.size :: (h.newCell x).2.cells.size :: h.cells.size ::
        outside, args.drop 3, name⟩
      (((h.newCell x).2.newCell y).2.newCell z).2 := rfl
  rw [three, declared, entered_eq three]
  simp [Heap.newCell]

theorem evalExpr_compare (op : CompareOp) (left right : Expr) (line : Nat) :
    evalExpr env (.compare op left right line) h =
    (operands env left (evalExpr env left) (evalExpr env right) h).bind fun p h =>
      (compare (some (env.position line)) op p.1 p.2 h).bind fun b h => .done (.boolean b) h := by
  rw [evalExpr]
  rfl

theorem exec_tailCall (callee : Expr) (args : List Expr) (line : Nat) :
    exec env (.tailCall callee args line) h =
    (evalExpr env callee h).bind fun f h => (evalList env args h).bind fun vs h =>
      .done (.tail ⟨f, vs, callSite env callee line⟩) h := by
  rw [exec]
  rfl

theorem tailCall_stops (callee : Expr) (args : List Expr) (line : Nat)
    {after : Flow → Heap → Step Flow} (stops : ∀ r h, after (.tail r) h = .done (.tail r) h) :
    (exec env (.tailCall callee args line) h).bind after =
      exec env (.tailCall callee args line) h := by
  simp only [exec_tailCall, Step.bind_assoc, Step.bind, stops]

theorem execList_tailCall (callee : Expr) (args : List Expr) (line : Nat) (more : List Stmt) :
    execList env (.tailCall callee args line :: more) h =
      exec env (.tailCall callee args line) h := by
  rw [execList]
  exact tailCall_stops callee args line fun _ _ => rfl

def following (rest : List Stmt) : Flow → Action Flow
  | .next env => execList env rest
  | flow => pure flow

theorem execList_branch (condition callee callee' : Expr) (args args' : List Expr)
    (line line' : Nat) :
    execList env [.ifElse condition [.tailCall callee args line] [],
      .tailCall callee' args' line'] h =
      (evalExpr env condition h).bind fun v h =>
        if v.truthy then exec env (.tailCall callee args line) h
          else exec env (.tailCall callee' args' line') h := by
  have first : exec env (.ifElse condition [.tailCall callee args line] []) h =
      (evalExpr env condition h).bind fun v h =>
        if v.truthy then exec env (.tailCall callee args line) h else .done (.next env) h := by
    rw [exec, Action.bind_eq]
    congr 1
    funext v h
    by_cases truthy : v.truthy = true
    · simp only [if_pos truthy]
      rw [Action.bind_eq, execList_tailCall]
      exact tailCall_stops _ _ _ fun _ _ => rfl
    · simp only [if_neg truthy]
      rw [execList]
      rfl
  have both : execList env [.ifElse condition [.tailCall callee args line] [],
      .tailCall callee' args' line'] h =
      (exec env (.ifElse condition [.tailCall callee args line] []) h).bind
        fun flow h => following [.tailCall callee' args' line'] flow h := by
    rw [execList]
    rfl
  rw [both, first, Step.bind_assoc]
  congr 1
  funext v h
  by_cases truthy : v.truthy = true
  · rw [if_pos truthy, if_pos truthy]
    exact tailCall_stops _ _ _ fun _ _ => rfl
  · rw [if_neg truthy, if_neg truthy]
    exact execList_tailCall _ _ _ []

def count : Expr := .call (outer "select" 3) [text "#", .varargs] 11

def asked (env : Env) : Call := ⟨.builtin .select, .ofAscii "#" :: env.varargs, selectSite env⟩

variable (selects : evalExpr env (outer "select" 3) h = .done (.builtin .select) h)

include selects

theorem evalExpr_count :
    evalExpr env count h = .call (asked env) h fun vs h => .done (vs.headD .nil) h := by
  have given : evalList env [text "#", .varargs] h = .done (.ofAscii "#" :: env.varargs) h :=
    evalList_cons (eval_text "#") (by rw [evalList, evalMulti]; rfl)
  have unfolded : evalExpr env count h =
      (evalExpr env (outer "select" 3) h).bind
          fun f h => (evalList env [text "#", .varargs] h).bind fun vs h =>
        Action.call₁ f vs (selectSite env) h := by
    rw [count, evalExpr]
    rfl
  rw [unfolded, selects, Step.bind, given, Step.bind]
  rfl

theorem evalExpr_counted :
    evalExpr env (.compare .gt count (.literal (.number (.integer 0))) 11) h =
    .call (asked env) h fun vs h =>
      (compare (some (env.position 11)) .gt (vs.headD .nil) (.integer 0) h).bind fun b h =>
        .done (.boolean b) h := by
  have apart : ∀ right : Action Value, operands env count (evalExpr env count) right h =
      (evalExpr env count h).bind fun x h => (right h).bind fun y h =>
        .done (x, y) h := fun _ => rfl
  rw [evalExpr_compare, apart, evalExpr_count selects]
  simp only [Step.bind, evalExpr_literal]
  rfl

/-- The statements of the function come to a call of `select`, and go on with its result. -/
theorem execList_guarded : execList env guarded.body h =
    .call (asked env) h fun vs h => afterCount env (vs.headD .nil) h := by
  refine (execList_branch (.compare .gt count
    (.literal (.number (.integer 0))) 11) _ _ _ _ _ _).trans ?_
  rw [evalExpr_counted selects, Step.bind]
  congr 1
  funext vs h
  rw [afterCount, Action.bind_eq, Step.bind_assoc]
  congr 1
  funext b h
  cases b <;> rfl

omit selects

def handed (args : List Value) (site : Site) : Call :=
  ⟨.builtin .load, adjust 2 args ++ .ofAscii "t" :: args.drop 3, site⟩

variable {x y z v : Value} {ws : List Value}

theorem exec_handsOver {others : List Expr} {vs : List Value}
    (given : evalList env (text "t" :: others) h = .done (.ofAscii "t" :: vs) h) (line : Nat) :
    exec env (handsOver others line) h = .done (.tail ⟨h.cell (env.scope[4]?.getD 0),
      h.cell (env.scope[2]?.getD 0) :: h.cell (env.scope[1]?.getD 0) :: .ofAscii "t" :: vs,
        loadSite env line⟩) h := by
  have reads : ∀ name i outer, evalExpr env (.variable ⟨name, i, outer⟩) h =
      .done (h.cell (env.scope[i]?.getD 0)) h := by
    intro name i outer
    rw [evalExpr]
    rfl
  have all := evalList_cons (reads (bytes (ascii "chunk")) 2 false)
    (evalList_cons (reads (bytes (ascii "name")) 1 false) given)
  rw [handsOver, exec_tailCall, outer, reads, Step.bind]
  exact congrArg (Step.bind · _) all

theorem evalList_modeOnly : evalList env [text "t"] h = .done [.ofAscii "t"] h :=
  evalList_one rfl (eval_text "t")

theorem evalList_modeAndRest :
    evalList env [text "t", .varargs] h = .done (.ofAscii "t" :: env.varargs) h :=
  evalList_cons (eval_text "t") (by rw [evalList, evalMulti]; rfl)

theorem afterCount_eq (binds : h.Binds env.scope (z :: y :: x :: v :: .builtin .load :: ws))
    (few : env.varargs.length < 2 ^ 63) :
    ∃ line, afterCount env (.integer (Int64.ofNat env.varargs.length)) h =
      .done
        (.tail ⟨.builtin .load, x :: y :: .ofAscii "t" :: env.varargs, loadSite env line⟩) h := by
  have compared : compare (some (env.position 11)) .gt (.integer (Int64.ofNat env.varargs.length))
      (.integer 0) h =
      .done (decide (0 < env.varargs.length)) h := by
    have less : (0 < Int64.ofNat env.varargs.length) ↔ 0 < env.varargs.length := by
      rw [Int64.lt_iff_toInt_lt, Int64.toInt_ofNat_of_lt few]
      exact Int.natCast_pos
    have unfolded : compare (some (env.position 11)) .gt (.integer (Int64.ofNat env.varargs.length))
        (.integer 0) h =
        .done (decide (0 < Int64.ofNat env.varargs.length)) h := rfl
    rw [unfolded, decide_eq_decide.2 less]
  have unfolded : afterCount env (.integer (Int64.ofNat env.varargs.length)) h =
      if 0 < env.varargs.length then exec env (handsOver [.varargs] 12) h
      else exec env (handsOver [] 14) h := by
    rw [afterCount, Action.bind_eq, compared, Step.bind]
    by_cases given_more : 0 < env.varargs.length <;> simp [given_more]
  have hands : ∀ {others vs}, evalList env (text "t" :: others) h =
      .done (.ofAscii "t" :: vs) h → ∀ line,
      exec env (handsOver others line) h =
        .done (.tail ⟨.builtin .load, x :: y :: .ofAscii "t" :: vs, loadSite env line⟩) h := by
    intro others vs given line
    rw [exec_handsOver given, binds.cell (i := 4) rfl, binds.cell (i := 2) rfl,
      binds.cell (i := 1) rfl]
  rw [unfolded]
  by_cases given_more : 0 < env.varargs.length
  · exact ⟨12, by rw [if_pos given_more, hands evalList_modeAndRest]⟩
  · have nothing_more : env.varargs = [] :=
      List.length_eq_zero_iff.1 (Nat.eq_zero_of_not_pos given_more)
    exact ⟨14, by rw [if_neg given_more, nothing_more, hands evalList_modeOnly]⟩

/-- The scope in which the statements of the function run. -/
def parameters (h : Heap) (outside : List CellId) (args : List Value) (name : ByteArray) : Env :=
  ⟨[h.cells.size + 2, h.cells.size + 1, h.cells.size] ++ outside, args.drop 3, name⟩

theorem binds_parameters (binds : h.Binds outside ws) (args : List Value) (name : ByteArray) :
    (entered h args).Binds (parameters h outside args name).scope
      ((adjust 3 args).reverse ++ ws) := by
  have start : h.Binds (Env.mk outside (args.drop 3) name).scope ws := binds
  obtain ⟨env, h', run, within, -⟩ := declare_binds start (adjust 3 args)
  rw [declare_three] at run
  cases run
  exact within

theorem enter_guarded (binds : h.Binds outside (.builtin .select :: ws)) (args : List Value) :
    Closure.enter ⟨guarded, outside, name⟩ args h =
      .call (asked (parameters h outside args name)) (entered h args)
      fun vs h₁ => afterCount (parameters h outside args name) (vs.headD .nil) h₁ := by
  have unfolded : Closure.enter ⟨guarded, outside, name⟩ args h =
      (Env.declare ⟨outside, args.drop 3, name⟩ (adjust 3 args) h).bind fun env h =>
        execList env guarded.body h := rfl
  have within := binds_parameters binds args name
  obtain ⟨x, y, z, three⟩ := List.length_eq_three.1 (length_adjust 3 args)
  rw [three] at within
  rw [unfolded, declare_three, Step.bind]
  exact execList_guarded (evalExpr_variable within rfl)

/-- Calls of a function are calls of the base function in its place, with the mode for
text and with the arguments after the third one, as many as there are; where there is
no room for another call, they fail as all calls do. -/
def LoadsText (h : Heap) (f : Value) : Prop :=
  ∀ args : List Value, args.length < 2 ^ 63 → ∃ site : Site, site.nested = false ∧
    ∀ (frames : List Frame) (depth : Depth) (place : Site),
    (∀ k closing, frames.head? ≠ some (.task closing k)) →
      match Depth.excess? { depth with calls := depth.calls + 1 } with
      | none => Reaches ⟨frames, depth, .invoke ⟨f, args, place⟩ h⟩
          ⟨.call site (fun vs h => .done (.ret vs) h) :: frames, depth.enter site,
            .invoke (handed args site) (entered h args)⟩
      | some message => ∃ position, Reaches ⟨frames, depth, .invoke ⟨f, args, place⟩ h⟩
          ⟨frames, depth, .step (Action.fail position (bytes (ascii message)) (entered h args))⟩

theorem enter_flat {site : Site} (flat : site.nested = false) (depth : Depth) :
    depth.enter site = { depth with calls := depth.calls + 1 } := by
  rw [Depth.enter, flat]
  rfl

theorem returns_select (depth : Depth) (env : Env) (h : Heap) :
    Returns depth (asked env) h [.integer (Int64.ofNat env.varargs.length)] h :=
  .of_builtin rfl fun _ => .of_eq rfl

theorem loadsText_guarded {id : ClosureId}
    (stored : h.closures[id]? = some ⟨guarded, outside, name⟩)
    (binds : h.Binds outside (.builtin .select :: .builtin .load :: ws)) :
    LoadsText h (.closure id) := by
  intro args few
  have within := binds_parameters binds args name
  obtain ⟨x, y, z, three⟩ := List.length_eq_three.1 (length_adjust 3 args)
  rw [three] at within
  have fewer : (args.drop 3).length < 2 ^ 63 := Nat.lt_of_le_of_lt (by simp) few
  obtain ⟨line, counted⟩ := afterCount_eq within fewer
  have two : adjust 2 args = [x, y] := by
    have first : adjust 2 args = (adjust 3 args).take 2 := by
      rcases args with _ | ⟨a, _ | ⟨b, _ | ⟨c, args⟩⟩⟩ <;> simp [adjust]
    rw [first, three]
    rfl
  let env := parameters h outside args name
  refine ⟨loadSite env line, nested_callSite _ _ _, fun frames depth place waits => ?_⟩
  have enters : (⟨frames, depth, .invoke ⟨.closure id, args, place⟩ h⟩ : Machine).next =
      .more ⟨frames, depth, .step (.call (asked env) (entered h args) fun vs h =>
        afterCount env (vs.headD .nil) h)⟩ := by
    rw [← enter_guarded binds, ← Heap.closure_eq stored]
    rfl
  have selects := enter_flat (nested_callSite env (outer "select" 3) 11) depth
  cases shallow : Depth.excess? { depth with calls := depth.calls + 1 } with
  | some message =>
    refine ⟨some (env.position 11), .move enters (.move ?_ (.refl _))⟩
    rw [← selects] at shallow
    simp only [Machine.next, wait, asked, selectSite, shallow]
    rfl
  | none =>
    have loads := enter_flat (nested_callSite env (outer "base_load" 4) line) depth
    have room : (depth.enter (asked env).site).Admits 0 0 :=
      Depth.excess?_eq_none.1 ((congrArg Depth.excess? selects).trans shallow)
    have gives : Gives depth (.call (asked env) (entered h args) fun vs h =>
        afterCount env (vs.headD .nil) h)
        (.tail (handed args (loadSite env line))) (entered h args) := by
      refine .call room (returns_select _ env _) (.of_eq ?_)
      rw [handed, two]
      exact counted
    have room : (depth.enter (loadSite env line)).excess? = none :=
      (congrArg Depth.excess? loads).trans shallow
    refine .move enters ((gives.reaches frames).trans (.move ?_ (.refl _)))
    cases frames with
    | nil => simp only [Machine.next, deliver, handed, wait, room]
    | cons frame frames =>
      cases frame with
      | task closing k => exact absurd rfl (waits k closing)
      | _ => simp only [Machine.next, deliver, handed, wait, room]

/-- A step that gives no function: it comes to nothing but a message, or raises an error. -/
def Refuses (h : Heap) (x : Step (List Value)) : Prop :=
  (∃ message, x = .done [.nil, .string message] h) ∨ ∃ e, x = .raise e h

section Refusals

variable (context : CallContext) (h : Heap)

theorem badArgument_raises {α : Type} (number : Nat) (reason : ByteArray) :
    ∃ e, (Native.badArgument number reason : Native α) context h = .raise e h := by
  obtain ⟨naming, function, caller⟩ := context
  cases naming with
  | none => exact ⟨_, rfl⟩
  | some named =>
    obtain ⟨kind, name⟩ := named
    cases kind with
    | method =>
      match number with
      | 0 | 1 | n + 2 => exact ⟨_, rfl⟩
    | _ => exact ⟨_, rfl⟩

theorem stringArgOr_cases (args : List Value) (number : Nat) (default : ByteArray) :
    (∃ s, Native.stringArgOr args number default context h = .done s h) ∨
      ∃ e, Native.stringArgOr args number default context h = .raise e h := by
  unfold Native.stringArgOr
  split
  · exact .inl ⟨_, rfl⟩
  · unfold Native.stringArg
    generalize (Native.arg args number).text? = given
    cases given with
    | some s => exact .inl ⟨s, rfl⟩
    | none => exact .inr (badArgument_raises context h _ _)

variable {source : ByteArray} (binary : source.data[0]? = some 27)

include binary

theorem compile_refuses (name : ByteArray) (environment : Option Value) :
    Refuses h (Base.compile source name (bytes (ascii "t")) environment context h) := by
  have byte : (source.data[0]? == some 27) = true := by rw [binary]; rfl
  have other : (codes (bytes (ascii "t"))).contains 98 = false := by decide
  unfold Base.compile
  simp only [byte, if_true, other, Bool.not_false]
  exact .inl ⟨_, rfl⟩

variable {chunk : Value} (name : Value) (more : List Value)

theorem load_refuses (text : chunk.text? = some source) :
    Refuses h (Base.load (chunk :: name :: .ofAscii "t" :: more) context h) := by
  let args := chunk :: name :: .ofAscii "t" :: more
  have unfolded : Base.load args context h =
      (Native.stringArgOr args 2 source context h).bind fun name h =>
      Base.compile source name (bytes (ascii "t")) (Native.given args 4) context h := by
    have first : Native.arg args 1 = chunk := rfl
    have mode : ∀ default, Native.stringArgOr args 3 default =
      pure (bytes (ascii "t")) := fun _ => rfl
    unfold Base.load
    simp only [first, mode, text, pure_bind]
    rfl
  rw [unfolded]
  rcases stringArgOr_cases context h args 2 source with ⟨s, named⟩ | ⟨e, raised⟩
  · rw [named, Step.bind]
    exact compile_refuses context h binary s _
  · rw [raised]
    exact .inr ⟨e, rfl⟩

omit binary

def ofPieces (name : ByteArray) (environment : Option Value) :
    Except Value ByteArray → Native (List Value)
  | .error e => pure [.nil, e]
  | .ok source => Base.compile source name (bytes (ascii "t")) environment

/-- So is one that a function gives piece by piece: when all pieces are there, nothing is
made of them if the first byte is that of a binary chunk. -/
theorem load_reader_refuses (reader : chunk.text? = none) :
    Refuses h (Base.load (chunk :: name :: .ofAscii "t" :: more) context h) ∨
      ∃ k : Except Value ByteArray → Heap → Step (List Value),
        Base.load (chunk :: name :: .ofAscii "t" :: more) context h =
          (Base.gather chunk Base.pieceLimit (bytes []) context h).bind k ∧
        ∀ source h₁, source.data[0]? = some 27 → Refuses h₁ (k (.ok source) h₁) := by
  let args := chunk :: name :: .ofAscii "t" :: more
  have unfolded : Base.load args context h =
      (Native.stringArgOr args 2 (bytes (ascii "=(load)")) context h).bind fun name h =>
        ((if !chunk.isFunction then Native.wrongType args 1 "function" else pure () : Native Unit)
            context h).bind fun _ h =>
          (Base.gather chunk Base.pieceLimit (bytes []) context h).bind fun x h =>
            ofPieces name (Native.given args 4) x context h := by
    have first : Native.arg args 1 = chunk := rfl
    have mode : ∀ default, Native.stringArgOr args 3 default =
      pure (bytes (ascii "t")) := fun _ => rfl
    unfold Base.load
    simp only [first, mode, reader, pure_bind]
    by_cases function : (!chunk.isFunction) = true
    · simp only [if_pos function]
      rfl
    · simp only [if_neg function]
      rfl
  rw [unfolded]
  rcases stringArgOr_cases context h args 2 (bytes (ascii "=(load)")) with ⟨s, named⟩ | ⟨e, raised⟩
  · rw [named, Step.bind]
    by_cases function : (!chunk.isFunction) = true
    · obtain ⟨e, raised⟩ := badArgument_raises (α := Unit) context h 1
        (bytes (ascii ("function" ++ " expected, got ")) ++
          Native.argumentType h (Native.given args 1))
      rw [if_pos function]
      have wrong : (Native.wrongType args 1 "function" : Native Unit) context h =
        .raise e h := raised
      rw [wrong]
      exact .inl (.inr ⟨e, rfl⟩)
    · rw [if_neg function]
      refine .inr ⟨_, rfl, fun source h₁ binary => ?_⟩
      exact compile_refuses context h₁ binary s _
  · rw [raised]
    exact .inl (.inr ⟨e, rfl⟩)

end Refusals

section Calls

variable {f : Value} {m n : Machine} {frames : List Frame} {depth : Depth}

/-- Comes back to these frames with nothing but a message, or raises an error. -/
def GivesNone (m : Machine) (frames : List Frame) (depth : Depth) : Prop :=
  (∃ message h, Reaches m ⟨frames, depth, .step (.done (.ret [.nil, .string message]) h)⟩) ∨
    ∃ inner d e h, Reaches m ⟨inner, d, .step (.raise e h)⟩

theorem GivesNone.of_reaches (gives : GivesNone n frames depth) (reaches : Reaches m n) :
    GivesNone m frames depth := by
  rcases gives with ⟨message, h, comes⟩ | ⟨inner, d, e, h, raised⟩
  · exact .inl ⟨message, h, reaches.trans comes⟩
  · exact .inr ⟨inner, d, e, h, reaches.trans raised⟩

/-- The base function is called in the place of a function that has ended. -/
theorem Refuses.givesNone {x : Step (List Value)} (refuses : Refuses h x) (site : Site)
    (frames : List Frame) (depth : Depth) :
    GivesNone ⟨.call site (fun vs h => .done (.ret vs) h) :: frames, depth.enter site,
      .step (x.bind fun vs h => .done (.ret vs) h)⟩ frames depth := by
  rcases refuses with ⟨message, rfl⟩ | ⟨e, rfl⟩
  · have delivered : (⟨.call site (fun vs h => .done (.ret vs) h) :: frames, depth.enter site,
        .step (.done (.ret [.nil, .string message]) h)⟩ : Machine).next =
        .more ⟨frames, (depth.enter site).leave site,
          .step (.done (.ret [.nil, .string message]) h)⟩ := rfl
    rw [Depth.leave_enter] at delivered
    exact .inl ⟨message, h, .move delivered (.refl _)⟩
  · exact .inr ⟨_, _, e, h, .refl _⟩

/-- Calls of a function on binary chunks give no function.  A chunk is a text, or it is
given piece by piece; then nothing is made of the pieces when all of them are there. -/
def RefusesBinary (h : Heap) (f : Value) : Prop :=
  ∀ args : List Value, args.length < 2 ^ 63 →
    ∀ (frames : List Frame) (depth : Depth) (place : Site),
    (∀ k closing, frames.head? ≠ some (.task closing k)) →
      (∀ source, (args.headD .nil).text? = some source → source.data[0]? = some 27 →
        GivesNone ⟨frames, depth, .invoke ⟨f, args, place⟩ h⟩ frames depth) ∧
      ((args.headD .nil).text? = none →
        GivesNone ⟨frames, depth, .invoke ⟨f, args, place⟩ h⟩ frames depth ∨
        ∃ inner d context h₁ k, Reaches ⟨frames, depth, .invoke ⟨f, args, place⟩ h⟩
            ⟨inner, d, .step
              ((Base.gather (args.headD .nil) Base.pieceLimit (bytes []) context h₁).bind k)⟩ ∧
          ∀ source h₂, source.data[0]? = some 27 →
            GivesNone ⟨inner, d, .step (k (.ok source) h₂)⟩ frames depth)

theorem LoadsText.refusesBinary (loads : LoadsText h f) : RefusesBinary h f := by
  intro args few frames depth place waits
  obtain ⟨site, -, calls⟩ := loads args few
  have called := calls frames depth place waits
  cases room : Depth.excess? { depth with calls := depth.calls + 1 } with
  | some message =>
    rw [room] at called
    obtain ⟨position, fails⟩ := called
    have gives_none : GivesNone ⟨frames, depth, .invoke ⟨f, args, place⟩ h⟩ frames depth :=
      .inr ⟨frames, depth, _, _, fails⟩
    exact ⟨fun _ _ _ => gives_none, fun _ => .inl gives_none⟩
  | none =>
    rw [room] at called
    obtain ⟨name, two⟩ : ∃ name, adjust 2 args = [args.headD .nil, name] := by
      rcases args with _ | ⟨a, _ | ⟨b, args⟩⟩
      exacts [⟨_, rfl⟩, ⟨_, rfl⟩, ⟨b, by simp [adjust]⟩]
    let inner := Frame.call site (fun vs h => .done (.ret vs) h) :: frames
    let context : CallContext := ⟨site.naming, .builtin .load, caller inner⟩
    let given := args.headD .nil :: name :: .ofAscii "t" :: args.drop 3
    have base : Reaches ⟨frames, depth, .invoke ⟨f, args, place⟩ h⟩ ⟨inner, depth.enter site,
        .step ((Base.load given context (entered h args)).bind fun vs h => .done (.ret vs) h)⟩ := by
      refine called.trans (.move ?_ (.refl _))
      rw [handed, two]
      rfl
    refine ⟨fun source text binary => ?_, fun reader => ?_⟩
    · exact ((load_refuses context _ binary name (args.drop 3) text).givesNone site
        frames depth).of_reaches base
    · rcases load_reader_refuses context (entered h args) name (args.drop 3) reader with refuses |
        ⟨k, gathers, refuses⟩
      · exact .inl ((refuses.givesNone site frames depth).of_reaches base)
      · rw [gathers, Step.bind_assoc] at base
        exact .inr ⟨inner, _, context, _, _, base, fun source h₂ binary =>
          (refuses source h₂ binary).givesNone site frames depth⟩

end Calls

end SealedLua.Lua.SandboxChunk
