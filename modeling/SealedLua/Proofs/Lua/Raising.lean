import SealedLua.Proofs.Lua.Evaluation

/-!
# Runs that end in an error

That a running function raises a text, apart from what is below it on the frames:
`Raises` is about a computation, `Throws` about a call and `Breaks` about a task,
as `Gives`, `Returns` and `Loops` are where nothing is raised; `Fails` stands
beside `Answers`.  The frames between
the place of the error and the frames below are of calls and loops, so none of
them keeps the error.
-/

namespace SealedLua.Lua

open Machine

/-- Frames that an error takes off on its way, and nothing else happens. -/
inductive Frame.Passes : Frame → Prop
  | call (site : Site) (k : List Value → Heap → Step Flow) : Passes (.call site k)
  | task (k : Flow → Heap → Step Flow) : Passes (.task none k)

/-- What `pcall` waits with: it returns whether the call came to its end, and
the results or the error. -/
def Frame.pcall : Frame := .guard Site.native none fun ended h =>
  .done (.ret (Base.outcome ended)) h

namespace Machine

/-- A machine raises a text, with frames above the others that the error passes.
What the text says may depend on the frames, since it may tell where the call was. -/
def RaisesAbove (machine : Machine) (frames : List Frame) (heap : Heap) : Prop :=
  ∃ (text : ByteArray) (above : List Frame) (depth : Depth), (∀ frame ∈ above, frame.Passes) ∧
    Reaches machine ⟨above ++ frames, depth, .step (.raise (.string text) heap)⟩

namespace RaisesAbove

variable {machine later : Machine} {frames : List Frame} {heap : Heap}

theorem of_reaches (reaches : Reaches machine later) (raises : RaisesAbove later frames heap) :
    RaisesAbove machine frames heap := by
  obtain ⟨text, above, depth, passes, rest⟩ := raises
  exact ⟨text, above, depth, passes, reaches.trans rest⟩

theorem below {frame : Frame} (passes : frame.Passes)
    (raises : RaisesAbove machine (frame :: frames) heap) :
    RaisesAbove machine frames heap := by
  obtain ⟨text, above, depth, all, reaches⟩ := raises
  refine ⟨text, above ++ [frame], depth, ?_, ?_⟩
  · intro f mem
    rcases List.mem_append.1 mem with mem | mem
    · exact all f mem
    · rwa [List.mem_singleton.1 mem]
  · rwa [List.append_assoc]

end RaisesAbove

section Passing

variable {above frames : List Frame} (passes : ∀ frame ∈ above, frame.Passes)

include passes

theorem handler?_passes (running : Nat) :
    handler? (above ++ frames) running = handler? frames running := by
  induction above with
  | nil => rfl
  | cons frame above ih =>
    have rest := ih fun f mem => passes f (List.mem_cons_of_mem _ mem)
    cases passes frame List.mem_cons_self with
    | call site k => exact rest
    | task k => exact rest

theorem unwinds (frames : List Frame) (error : Value) (heap : Heap) (depth : Depth) :
    ∃ depth', Reaches ⟨above ++ frames, depth, .unwind error heap⟩
      ⟨frames, depth', .unwind error heap⟩ := by
  induction above generalizing depth with
  | nil => exact ⟨depth, .refl _⟩
  | cons frame above ih =>
    have all : ∀ f ∈ above, f.Passes := fun f mem => passes f (List.mem_cons_of_mem _ mem)
    cases passes frame List.mem_cons_self with
    | call site k =>
      obtain ⟨depth', reaches⟩ := ih all (depth.leave site)
      exact ⟨depth', .move rfl reaches⟩
    | task k =>
      obtain ⟨depth', reaches⟩ := ih all depth
      exact ⟨depth', .move rfl reaches⟩

theorem guarded (rest : List Frame) (site : Site) (k : Except Value (List Value) → Heap → Step Flow)
    (error : Value) (heap : Heap) (depth : Depth) :
    ∃ depth', Reaches ⟨above ++ .guard site none k :: rest, depth, .step (.raise error heap)⟩
      ⟨rest, depth', .step (k (.error error) heap)⟩ := by
  let frames := above ++ .guard site none k :: rest
  have unhandled : handler? frames 0 = none := handler?_passes passes 0
  have raised : raise frames depth error heap = ⟨frames, depth, .unwind error heap⟩ := by
    rw [raise, unhandled]
  obtain ⟨depth', reaches⟩ := unwinds passes (.guard site none k :: rest) error heap depth
  exact ⟨depth'.leave site,
    .move (congrArg Progress.more raised) (reaches.trans (.move rfl (.refl _)))⟩

theorem caught (rest : List Frame) (error : Value) (heap : Heap) (depth : Depth) :
    ∃ depth', Reaches ⟨above ++ .pcall :: rest, depth, .step (.raise error heap)⟩
      ⟨rest, depth', .step (.done (.ret [.boolean false, error]) heap)⟩ :=
  guarded passes rest _ _ error heap depth

end Passing

/-- A call of `pcall` is a call of its first argument, with that frame below. -/
theorem enters_pcall (frames : List Frame) {depth : Depth}
    (room : (depth.enter Site.native).Admits 0 0) (f : Value)
    (args : List Value) (site : Site) (heap : Heap) :
    Reaches ⟨frames, depth, .invoke ⟨.builtin .pcall, f :: args, site⟩ heap⟩
      ⟨.pcall :: frames, depth.enter Site.native, .invoke ⟨f, args, Site.native⟩ heap⟩ := by
  have protects : native frames ⟨.builtin .pcall, f :: args, site⟩
      (Builtin.pcall.run (f :: args)) heap =
      .protect ⟨f, args, Site.native⟩ none heap fun ended h =>
        .done (.ret (Base.outcome ended)) h := rfl
  have waits :
      (Machine.mk frames depth (.step (.protect ⟨f, args, Site.native⟩ none heap fun ended h =>
      .done (.ret (Base.outcome ended)) h))).next =
      .more ⟨.pcall :: frames, depth.enter Site.native, .invoke ⟨f, args, Site.native⟩ heap⟩ := by
    simp only [Machine.next, wait, room.excess?, Frame.pcall]
  exact .move (congrArg (fun step => Progress.more ⟨frames, depth, .step step⟩) protects)
    (.move waits (.refl _))

end Machine

section Judgements

variable {α β : Type}

/-- A computation raises a text and leaves this heap, whatever is below and
whatever would follow. -/
def Raises (depth : Depth) (x : Step α) (heap : Heap) : Prop :=
  ∀ (frames : List Frame) (k : α → Heap → Step Flow),
    RaisesAbove ⟨frames, depth, .step (x.bind k)⟩ frames heap

/-- A control on top of a frame that waits for a call raises a text. -/
def Fails (depth : Depth) (control : Control) (heap : Heap) : Prop :=
  ∀ (frames : List Frame) (frame : Frame) (site : Site) (k : List Value → Heap → Step Flow),
    frame.answer? = some (site, k) →
      RaisesAbove ⟨frame :: frames, depth, control⟩ (frame :: frames) heap

/-- A call raises a text and leaves this heap. -/
def Throws (depth : Depth) (request : Call) (before after : Heap) : Prop :=
  Fails depth (.invoke request before) after

def Breaks (depth : Depth) (task : Task) (before after : Heap) : Prop :=
  ∀ (frames : List Frame) (k : Flow → Heap → Step Flow),
    RaisesAbove ⟨.task none k :: frames, depth, .step (task.step before)⟩ frames after

variable {depth : Depth} {x : Step α} {f : α → Heap → Step β} {a : α}
  {h h₁ h₂ : Heap} {request : Call} {task : Task}

namespace Raises

theorem of_eq {s : ByteArray} (eq : x = .raise (.string s) h) : Raises depth x h := by
  intro frames k
  rw [eq]
  exact ⟨s, [], depth, List.forall_mem_nil _, .refl _⟩

theorem first (raises : Raises depth x h₁) : Raises depth (x.bind f) h₁ := by
  intro frames k
  rw [Step.bind_assoc]
  exact raises frames _

theorem bind (gives : Gives depth x a h₁) (raises : Raises depth (f a h₁) h₂) :
    Raises depth (x.bind f) h₂ := by
  intro frames k
  rw [Step.bind_assoc]
  exact (raises frames k).of_reaches (gives frames _)

theorem leads {y : Step α} (leads : Leads depth x y) (raises : Raises depth y h) :
    Raises depth x h :=
  fun frames k => (raises frames k).of_reaches (leads frames k)

theorem action {p : Action α} {q : α → Action β} (raises : Raises depth (p h) h₁) :
    Raises depth ((p >>= q) h) h₁ := raises.first

theorem andThen {p : Action α} {q : α → Action β} (gives : Gives depth (p h) a h₁)
    (raises : Raises depth (q a h₁) h₂) :
    Raises depth ((p >>= q) h) h₂ := raises.bind gives

theorem call {k : List Value → Heap → Step α} (room : (depth.enter request.site).Admits 0 0)
    (throws : Throws (depth.enter request.site) request h h₁) :
    Raises depth (.call request h k) h₁ := by
  intro frames next
  let waiting := Frame.call request.site fun values heap => (k values heap).bind next
  have entered : (Machine.mk frames depth (.step ((Step.call request h k).bind next))).next =
      .more ⟨waiting :: frames, depth.enter request.site, .invoke request h⟩ := by
    simp only [Step.bind, Machine.next, wait, room.excess?, waiting]
  exact ((throws frames waiting request.site _ rfl).below (.call _ _)).of_reaches
    (.move entered (.refl _))

theorem call_deep {k : List Value → Heap → Step α} (full : ¬(depth.enter request.site).Admits 0 0) :
    Raises depth (.call request h k) h := by
  intro frames next
  obtain ⟨message, deep⟩ := Depth.exists_excess full
  have refused : (Machine.mk frames depth (.step ((Step.call request h k).bind next))).next =
      .more ⟨frames, depth,
        .step (Action.fail request.site.position (bytes (ascii message)) h)⟩ := by
    simp only [Step.bind, Machine.next, wait, deep]
  exact ⟨_, [], depth, List.forall_mem_nil _, .move refused (.refl _)⟩

theorem run {k : Flow → Heap → Step α} (plain : task.closing? = none)
    (breaks : Breaks depth task h h₁) :
    Raises depth (.run task h k) h₁ := by
  intro frames next
  have started : (Machine.mk frames depth (.step ((Step.run task h k).bind next))).next =
      .more ⟨.task none (fun flow heap => (k flow heap).bind next) :: frames, depth,
        .step (task.step h)⟩ := by
    simp only [Step.bind, Machine.next, plain]
  exact (breaks frames _).of_reaches (.move started (.refl _))

theorem raisesAbove {x : Step Flow} (raises : Raises depth x h) (frames : List Frame) :
    RaisesAbove ⟨frames, depth, .step x⟩ frames h := by
  have := raises frames .done
  rwa [Step.bind_done] at this

end Raises

namespace Fails

theorem of_raises {x : Step Flow} (raises : Raises depth x h) : Fails depth (.step x) h :=
  fun frames frame _ _ _ => raises.raisesAbove (frame :: frames)

theorem of_tail {x : Step Flow} {id : ClosureId} (body : Gives depth x (.tail request) h)
    (callee : request.callee = .closure id) (throws : Throws depth request h h₁) :
    Fails depth (.step x) h₁ := by
  intro frames frame site k answers
  refine (throws frames frame site k answers).of_reaches
    ((body.reaches _).trans (.move ?_ (.refl _)))
  cases frame <;> cases answers <;> simp only [Machine.next, deliver, callee]

end Fails

namespace Throws

theorem of_closure {id : ClosureId} (callee : request.callee = .closure id)
    (body : Fails depth (.step ((h.closure id).enter request.args h)) h₁) :
    Throws depth request h h₁ := by
  intro frames frame site k answers
  refine (body frames frame site k answers).of_reaches (.move ?_ (.refl _))
  simp only [Machine.next, invoke, callee]

/-- A built-in function that raises a text whatever it is told about the call. -/
theorem of_builtin {b : Builtin} (callee : request.callee = .builtin b)
    (raises : ∀ context, Raises depth (b.run request.args context h) h₁) :
    Throws depth request h h₁ := by
  intro frames frame site k _
  have body :=
    raises ⟨request.site.naming, request.callee, caller (frame :: frames)⟩ (frame :: frames)
    fun values heap => .done (.ret values) heap
  refine body.of_reaches (.move ?_ (.refl _))
  simp only [Machine.next, invoke, callee, native]

end Throws

namespace Breaks

theorem last (round : Raises depth (task.step h) h₁) : Breaks depth task h h₁ := by
  intro frames k
  exact (round.raisesAbove _).below (.task k)

theorem again {next : Task} (round : Gives depth (task.step h) (.again next) h₁)
    (rest : Breaks depth next h₁ h₂) :
    Breaks depth task h h₂ := by
  intro frames k
  exact (rest frames k).of_reaches ((round.reaches _).trans (.move rfl (.refl _)))

end Breaks
end Judgements

section Rules

variable {depth : Depth} {env env' : Env} {h h₁ h₂ : Heap} {f v : Value}
  {vs : List Value} {e e' : Expr}
  {rest args : List Expr} {calls nested : Nat} {s : ByteArray} {stmt : Stmt} {after : List Stmt}

namespace Raises

theorem list_last (raises : Raises depth (evalMulti env e h) h₁) :
    Raises depth (evalList env [e] h) h₁ := by
  rw [evalList]
  exact raises

theorem list_one (one : e.isMulti = false) (raises : Raises depth (evalExpr env e h) h₁) :
    Raises depth (evalList env [e] h) h₁ := by
  refine list_last ?_
  rw [evalMulti_one one]
  exact raises.action

theorem list_cons (first : Gives depth (evalExpr env e h) v h₁)
    (raises : Raises depth (evalList env (e' :: rest) h₁) h₂) :
    Raises depth (evalList env (e :: e' :: rest) h) h₂ := by
  rw [evalList]
  · exact .andThen first raises.action
  · exact List.cons_ne_nil _ _

theorem multi_call (line : Nat) (callee : evalExpr env e h = .done f h)
    (given : Gives depth (evalList env args h) vs h₁) (room : depth.Admits (calls + 1) nested)
    (throws : Throws (depth.enter (callSite env e line)) ⟨f, vs, callSite env e line⟩ h₁ h₂) :
    Raises depth (evalMulti env (.call e args line) h) h₂ := by
  have enough :=
    (room.enter_call (nested_callSite env e line)).mono (Nat.zero_le calls) (Nat.zero_le nested)
  rw [evalMulti]
  exact .andThen (.of_eq callee) (.andThen given (.call enough throws))

theorem expr_call (line : Nat) (callee : evalExpr env e h = .done f h)
    (given : Gives depth (evalList env args h) vs h₁) (room : depth.Admits (calls + 1) nested)
    (throws : Throws (depth.enter (callSite env e line)) ⟨f, vs, callSite env e line⟩ h₁ h₂) :
    Raises depth (evalExpr env (.call e args line) h) h₂ := by
  have enough :=
    (room.enter_call (nested_callSite env e line)).mono (Nat.zero_le calls) (Nat.zero_le nested)
  rw [evalExpr]
  exact .andThen (.of_eq callee) (.andThen given (.call enough throws))

theorem multi_call_deep (line : Nat) (callee : evalExpr env e h = .done f h)
    (given : Gives depth (evalList env args h) vs h₁)
    (full : ¬depth.Admits 1 0) : Raises depth (evalMulti env (.call e args line) h) h₁ := by
  rw [evalMulti]
  exact .andThen (.of_eq callee)
    (.andThen given (.call_deep (mt (Depth.admits_enter_call (nested_callSite env e line)).1 full)))

theorem expr_call_deep (line : Nat) (callee : evalExpr env e h = .done f h)
    (given : Gives depth (evalList env args h) vs h₁)
    (full : ¬depth.Admits 1 0) : Raises depth (evalExpr env (.call e args line) h) h₁ := by
  rw [evalExpr]
  exact .andThen (.of_eq callee)
    (.andThen given (.call_deep (mt (Depth.admits_enter_call (nested_callSite env e line)).1 full)))

theorem concat_left (line : Nat) (raises : Raises depth (evalExpr env e h) h₁) :
    Raises depth (evalExpr env (.concat e e' line) h) h₁ := by
  rw [evalExpr]
  exact raises.action

theorem concat_right (line : Nat) (left : Gives depth (evalExpr env e h) v h₁)
    (raises : Raises depth (evalExpr env e' h₁) h₂) :
    Raises depth (evalExpr env (.concat e e' line) h) h₂ := by
  rw [evalExpr]
  exact .andThen left raises.action

theorem stmts_first (raises : Raises depth (exec env stmt h) h₁) :
    Raises depth (execList env (stmt :: after) h) h₁ := by
  rw [execList]
  exact raises.action

theorem stmt_expression (raises : Raises depth (evalMulti env e h) h₁) :
    Raises depth (exec env (.expression e) h) h₁ := by
  rw [exec]
  exact raises.action

theorem stmt_declare (count : Nat) (raises : Raises depth (evalList env args h) h₁) :
    Raises depth (exec env (.declare count args) h) h₁ := by
  rw [exec]
  exact raises.action

theorem stmt_tailCall (line : Nat) (callee : evalExpr env e h = .done f h)
    (raises : Raises depth (evalList env args h) h₁) :
    Raises depth (exec env (.tailCall e args line) h) h₁ := by
  rw [exec]
  exact .andThen (.of_eq callee) raises.action

theorem stmt_ret (raises : Raises depth (evalList env args h) h₁) :
    Raises depth (exec env (.ret args) h) h₁ := by
  rw [exec]
  exact raises.action

theorem stmt_branch {yes no : List Stmt} (condition : Gives depth (evalExpr env e h) v h₁)
    (branch : Raises depth (execList env (if v.truthy then yes else no) h₁) h₂) :
    Raises depth (exec env (.ifElse e yes no) h) h₂ := by
  rw [exec]
  refine .andThen condition ?_
  by_cases truthy : v.truthy = true
  · rw [if_pos truthy] at branch ⊢
    exact branch.action
  · rw [if_neg truthy] at branch ⊢
    exact branch.action

/-- An assignment to an entry whose value cannot be computed. -/
theorem stmt_assign {object key value : Expr} {line : Nat} {place late : Action Value}
    (object_done : deferred env [] object (evalExpr env object) h = .done place h)
    (key_done : deferred env [] key (evalExpr env key) h = .done late h)
    (raises : Raises depth (evalList env [value] h) h₁) :
    Raises depth (exec env (.assign [.entry object key line] [value]) h) h₁ := by
  obtain ⟨places, targets⟩ : ∃ places, evalTargets env [] [.entry object key line] h =
      .done places h := by
    rw [evalTargets, evalTargets]
    simp only [Action.bind_eq, object_done, key_done, Step.bind, Action.pure_apply]
    exact ⟨_, rfl⟩
  rw [exec]
  exact .andThen (.of_eq targets) raises.action

end Raises

end Rules

end SealedLua.Lua
