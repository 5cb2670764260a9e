import SealedLua.Lua.Machine
import Mathlib.Tactic.Common

/-!
# Runs of the machine

What a running function comes to, apart from what is below it on the frames.
`Gives` is about a computation that comes to a result, `Returns` about a call,
and `Loops` about a task; the rules follow the moves of the machine, so a run
is put together from the runs of its parts.
-/

namespace SealedLua.Lua

namespace Depth

theorem leave_enter (d : Depth) (site : Site) : (d.enter site).leave site = d := by
  unfold leave enter
  split <;> simp

/-- There is room for so many calls between functions of scripts and so many
calls that built-in functions and operators make. -/
def Admits (d : Depth) (calls nested : Nat) : Prop :=
  d.calls + calls < d.limit ∧ d.nested + nested < nestedLimit

section Entering

variable {d : Depth} {calls nested : Nat} {site : Site}

theorem admits_enter_call (flat : site.nested = false) : (d.enter site).Admits calls nested ↔
    d.Admits (calls + 1) nested := by
  simp only [Admits, enter, flat, Bool.false_eq_true, if_false]
  omega

theorem admits_enter_nested (deep : site.nested = true) : (d.enter site).Admits calls nested ↔
    d.Admits calls (nested + 1) := by
  simp only [Admits, enter, deep, if_true]
  omega

/-- Nothing is wrong with a depth exactly if it may be reached. -/
theorem excess?_eq_none : d.excess? = none ↔ d.Admits 0 0 := by
  unfold excess? Admits
  split_ifs <;> simp <;> omega

theorem exists_excess (full : ¬d.Admits 0 0) : ∃ message, d.excess? = some message :=
  Option.ne_none_iff_exists'.1 (mt excess?_eq_none.1 full)

end Entering

namespace Admits

variable {d : Depth} {calls nested : Nat} {site : Site}

theorem mono {calls' nested' : Nat} (h : d.Admits calls nested) (c : calls' ≤ calls)
    (n : nested' ≤ nested) :
    d.Admits calls' nested' :=
  ⟨by have := h.1; omega, by have := h.2; omega⟩

theorem excess? (h : d.Admits 0 0) : d.excess? = none := excess?_eq_none.2 h

theorem enter_call (h : d.Admits (calls + 1) nested) (flat : site.nested = false) :
    (d.enter site).Admits calls nested := (admits_enter_call flat).2 h

theorem enter_nested (h : d.Admits calls (nested + 1)) (deep : site.nested = true) :
    (d.enter site).Admits calls nested := (admits_enter_nested deep).2 h

end Admits

/-- Exactly so many calls between functions of scripts are left, and there is room
for so many that built-in functions and operators make. -/
def Leaves (d : Depth) (calls nested : Nat) : Prop := d.calls + calls + 1 = d.limit ∧
    d.nested + nested < nestedLimit

namespace Leaves

variable {d : Depth} {calls nested : Nat} {site : Site}

theorem admits (h : d.Leaves calls nested) : d.Admits calls nested := ⟨by have := h.1; omega, h.2⟩

theorem enter_call (h : d.Leaves (calls + 1) nested) (flat : site.nested = false) :
    (d.enter site).Leaves calls nested := by
  rw [Depth.enter, flat]
  exact ⟨by have := h.1; simp; omega, h.2⟩

theorem not_admits (h : d.Leaves calls nested) (nested' : Nat) : ¬d.Admits (calls + 1) nested' := by
  have hcalls := h.1
  unfold Admits
  omega

end Leaves

end Depth

namespace Machine

/-- One machine becomes another by moves. -/
inductive Reaches : Machine → Machine → Prop
  | refl (m : Machine) : Reaches m m
  | move {m n o : Machine} : m.next = .more n → Reaches n o → Reaches m o

theorem Reaches.trans {m n o : Machine} (first : Reaches m n) (second : Reaches n o) :
    Reaches m o := by
  induction first with
  | refl => exact second
  | move next _ ih => exact .move next (ih second)

theorem Reaches.call {frames : List Frame} {depth : Depth} {request : Call} {h : Heap}
    {k : List Value → Heap → Step Flow} (room : (depth.enter request.site).Admits 0 0) :
    Reaches ⟨frames, depth, .step (.call request h k)⟩
      ⟨.call request.site k :: frames, depth.enter request.site, .invoke request h⟩ := by
  refine .move ?_ (.refl _)
  simp only [Machine.next, wait, room.excess?]

theorem Reaches.protect {frames : List Frame} {depth : Depth} {request : Call} {h : Heap}
    {handler : Option Value} {k : Except Value (List Value) → Heap → Step Flow}
    (room : (depth.enter request.site).Admits 0 0) :
    Reaches ⟨frames, depth, .step (.protect request handler h k)⟩
      ⟨.guard request.site handler k :: frames, depth.enter request.site, .invoke request h⟩ := by
  refine .move ?_ (.refl _)
  simp only [Machine.next, wait, room.excess?]

end Machine

open Machine

namespace Frame

/-- How a frame that waits for a call goes on with its results. -/
def answer? : Frame → Option (Site × (List Value → Heap → Step Flow))
  | .call site k => some (site, k)
  | .guard site _ k => some (site, fun values heap => k (.ok values) heap)
  | _ => none

end Frame

section Judgements

variable {α β : Type}

/-- A computation comes to a result and a heap, whatever is below and whatever follows. -/
def Gives (depth : Depth) (x : Step α) (a : α) (heap : Heap) : Prop :=
  ∀ (frames : List Frame) (k : α → Heap → Step Flow),
    Reaches ⟨frames, depth, .step (x.bind k)⟩ ⟨frames, depth, .step (k a heap)⟩

/-- A computation goes on as another one, whatever is below and whatever follows. -/
def Leads (depth : Depth) (x y : Step α) : Prop :=
  ∀ (frames : List Frame) (k : α → Heap → Step Flow),
    Reaches ⟨frames, depth, .step (x.bind k)⟩ ⟨frames, depth, .step (y.bind k)⟩

/-- A control on top of a frame that waits for a call comes to the results of the call. -/
def Answers (depth : Depth) (control : Control) (values : List Value) (heap : Heap) : Prop :=
  ∀ (frames : List Frame) (frame : Frame) (site : Site) (k : List Value → Heap → Step Flow),
    frame.answer? = some (site, k) →
      Reaches ⟨frame :: frames, depth, control⟩ ⟨frames, depth.leave site, .step (k values heap)⟩

/-- A call returns these values and leaves this heap. -/
def Returns (depth : Depth) (request : Call) (before : Heap) (values : List Value)
    (after : Heap) : Prop :=
  Answers depth (.invoke request before) values after

def Loops (depth : Depth) (task : Task) (before : Heap) (flow : Flow) (after : Heap) : Prop :=
  ∀ (frames : List Frame) (k : Flow → Heap → Step Flow),
    Reaches ⟨.task none k :: frames, depth, .step (task.step before)⟩
    ⟨frames, depth, .step (k flow after)⟩

variable {depth : Depth} {x : Step α} {f : α → Heap → Step β} {a : α} {b : β}
  {h h₁ h₂ : Heap} {request : Call} {values : List Value} {flow : Flow} {task : Task}

namespace Gives

theorem done (a : α) (h : Heap) : Gives depth (.done a h) a h := fun _ _ => .refl _

theorem bind (first : Gives depth x a h₁) (second : Gives depth (f a h₁) b h₂) :
    Gives depth (x.bind f) b h₂ := by
  intro frames k
  rw [Step.bind_assoc]
  exact (first frames _).trans (second frames k)

/-- The rule for an action that goes on with the result of another. -/
theorem andThen {p : Action α} {q : α → Action β} (first : Gives depth (p h) a h₁)
    (second : Gives depth (q a h₁) b h₂) :
    Gives depth ((p >>= q) h) b h₂ := first.bind second

theorem call {k : List Value → Heap → Step α} (room : (depth.enter request.site).Admits 0 0)
    (returns : Returns (depth.enter request.site) request h values h₁)
    (rest : Gives depth (k values h₁) a h₂) :
    Gives depth (.call request h k) a h₂ := by
  intro frames next
  let waiting := Frame.call request.site fun values heap => (k values heap).bind next
  have entered : (Machine.mk frames depth (.step ((Step.call request h k).bind next))).next =
      .more ⟨waiting :: frames, depth.enter request.site, .invoke request h⟩ := by
    simp only [Step.bind, Machine.next, wait, room.excess?, waiting]
  refine .move entered ((returns frames waiting request.site _ rfl).trans ?_)
  rw [Depth.leave_enter]
  exact rest frames next

theorem protect {k : Except Value (List Value) → Heap → Step α} (handler : Option Value)
    (room : (depth.enter request.site).Admits 0 0)
    (returns : Returns (depth.enter request.site) request h values h₁)
    (rest : Gives depth (k (.ok values) h₁) a h₂) :
    Gives depth (.protect request handler h k) a h₂ := by
  intro frames next
  let waiting := Frame.guard request.site handler fun ended heap => (k ended heap).bind next
  have entered :
    (Machine.mk frames depth (.step ((Step.protect request handler h k).bind next))).next =
      .more ⟨waiting :: frames, depth.enter request.site, .invoke request h⟩ := by
    simp only [Step.bind, Machine.next, wait, room.excess?, waiting]
  refine .move entered ((returns frames waiting request.site _ rfl).trans ?_)
  rw [Depth.leave_enter]
  exact rest frames next

theorem run {k : Flow → Heap → Step α} (plain : task.closing? = none)
    (loop : Loops depth task h flow h₁)
    (rest : Gives depth (k flow h₁) a h₂) : Gives depth (.run task h k) a h₂ := by
  intro frames next
  have started : (Machine.mk frames depth (.step ((Step.run task h k).bind next))).next =
      .more ⟨.task none (fun flow heap => (k flow heap).bind next) :: frames, depth,
        .step (task.step h)⟩ := by
    simp only [Step.bind, Machine.next, plain]
  exact .move started ((loop frames _).trans (rest frames next))

theorem reaches {x : Step Flow} (gives : Gives depth x flow h) (frames : List Frame) :
    Reaches ⟨frames, depth, .step x⟩ ⟨frames, depth, .step (.done flow h)⟩ := by
  have := gives frames .done
  rwa [Step.bind_done] at this

end Gives

namespace Leads

variable {y z : Step α}

theorem trans (first : Leads depth x y) (second : Leads depth y z) : Leads depth x z :=
  fun frames k => (first frames k).trans (second frames k)

theorem bind (gives : Gives depth x a h₁) : Leads depth (x.bind f) (f a h₁) := by
  intro frames k
  rw [Step.bind_assoc]
  exact gives frames _

theorem gives (leads : Leads depth x y) (rest : Gives depth y a h) : Gives depth x a h :=
  fun frames k => (leads frames k).trans (rest frames k)

end Leads

namespace Answers

theorem of_ret {x : Step Flow} (body : Gives depth x (.ret values) h) :
    Answers depth (.step x) values h := by
  intro frames frame site k answers
  refine (body.reaches _).trans (.move ?_ (.refl _))
  cases frame <;> cases answers <;> rfl

theorem of_tail {x : Step Flow} {id : ClosureId} (body : Gives depth x (.tail request) h)
    (callee : request.callee = .closure id) (returns : Returns depth request h values h₁) :
    Answers depth (.step x) values h₁ := by
  intro frames frame site k answers
  refine (body.reaches _).trans (.move ?_ (returns frames frame site k answers))
  cases frame <;> cases answers <;> simp only [Machine.next, deliver, callee]

/-- A body that hands over to a built-in function, which is called from where the body was. -/
theorem of_tail_builtin {x : Step Flow} {b : Builtin} (body : Gives depth x (.tail request) h)
    (callee : request.callee = .builtin b) (room : (depth.enter request.site).Admits 0 0)
    (returns : Returns (depth.enter request.site) request h values h₁) :
    Answers depth (.step x) values h₁ := by
  intro frames frame site k answers
  let waiting := Frame.call request.site fun values heap => .done (.ret values) heap
  have entered : (Machine.mk (frame :: frames) depth (.step (.done (.tail request) h))).next =
      .more ⟨waiting :: frame :: frames, depth.enter request.site, .invoke request h⟩ := by
    cases frame <;> cases answers <;>
      simp only [Machine.next, deliver, callee, wait, room.excess?, waiting]
  refine (body.reaches _).trans (.move entered ((returns _ waiting request.site _ rfl).trans ?_))
  rw [Depth.leave_enter]
  refine .move ?_ (.refl _)
  cases frame <;> cases answers <;> rfl

end Answers

namespace Returns

theorem of_closure {id : ClosureId} (callee : request.callee = .closure id)
    (body : Answers depth (.step ((h.closure id).enter request.args h)) values h₁) :
    Returns depth request h values h₁ := by
  intro frames frame site k answers
  refine .move ?_ (body frames frame site k answers)
  simp only [Machine.next, invoke, callee]

/-- A built-in function that gives its results whatever it is told about the call. -/
theorem of_builtin {b : Builtin} (callee : request.callee = .builtin b)
    (gives : ∀ context, Gives depth (b.run request.args context h) values h₁) :
    Returns depth request h values h₁ := by
  intro frames frame site k answers
  have body := fun context =>
    Answers.of_ret
      ((gives context).bind (f := fun values heap => .done (.ret values) heap) (Gives.done _ _))
  refine .move ?_ (body ⟨request.site.naming, request.callee, caller (frame :: frames)⟩
    frames frame site k answers)
  simp only [Machine.next, invoke, callee, native]

end Returns

namespace Loops

theorem last (round : Gives depth (task.step h) flow h₁) (ends : ∀ t, flow ≠ .again t) :
    Loops depth task h flow h₁ := by
  intro frames k
  refine (round.reaches _).trans (.move ?_ (.refl _))
  cases flow with
  | again t => exact absurd rfl (ends t)
  | _ => rfl

theorem again {next : Task} (round : Gives depth (task.step h) (.again next) h₁)
    (rest : Loops depth next h₁ flow h₂) :
    Loops depth task h flow h₂ := by
  intro frames k
  exact (round.reaches _).trans (.move rfl (rest frames k))

end Loops

end Judgements

end SealedLua.Lua
