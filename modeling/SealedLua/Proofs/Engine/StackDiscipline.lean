import SealedLua.Proofs.Always
import SealedLua.Proofs.Engine.DumpChunk
import SealedLua.Proofs.Engine.Evaluations
import SealedLua.Proofs.Engine.Protocol

/-!
# What marshalling leaves on a stack

Every operation takes some values off the stack and leaves some there, as many as
its name says, and never touches what is below (`Stack.effect_perform`).  An
operation that fails has taken its values, unless there were too few of them.
So the values left by a program follow from the operations that it performed
and from which of them failed, whatever the scripts did in between.
-/

namespace SealedLua

open Lua
open Program (Event Performs performs_bind performs_ask performs_done)

namespace StackOp

def takes : StackOp → Nat
  | .load _ _ | .pushInteger _ | .pushText _ | .depth => 0
  | .duplicateTop | .setGlobal _ | .peekKind | .popInteger | .popText => 1
  | .swap => 2
  | .call args _ => args + 1

def leaves : StackOp → Nat
  | .setGlobal _ | .popInteger | .popText | .depth => 0
  | .load _ _ | .pushInteger _ | .pushText _ | .peekKind => 1
  | .duplicateTop | .swap => 2
  | .call _ results => results

/-- What can fail although the stack has enough values.  A chunk that can be
read is always loaded. -/
def Fallible : StackOp → Prop
  | .load source name => Stack.zeroByte? name = none → ∀ function, Chunk.read source ≠ .ok function
  | .setGlobal _ | .call _ _ | .popInteger | .popText => True
  | .pushInteger _ | .pushText _ | .duplicateTop | .swap | .peekKind | .depth => False

/-- The values on a stack before and after an operation that had this answer. -/
def Effect {α : Type} (op : StackOp) (x : Except EngineError α)
    (before after : List Value) : Prop :=
  match x with
  | .ok _ => op.takes ≤ before.length ∧ ∃ left, left.length = op.leaves ∧
    after = left ++ before.drop op.takes
  | .error _ => if before.length < op.takes then after = before else op.Fallible ∧
    after = before.drop op.takes

end StackOp

namespace Stack

variable {m : Type → Type} [Monad m] [LawfulMonad m]

theorem effect_load (s : Stack) (source : ByteArray) (name : String) :
    (StackOp.load source name).Effect (s.load source name).1 s.values
      (s.load source name).2.values := by
  cases named : zeroByte? name with
  | some i =>
    obtain ⟨e, refused⟩ : ∃ e, s.load source name = (.error e, s) := ⟨_, by rw [load, named]⟩
    rw [refused]
    have unnamed : (StackOp.load source name).Fallible := by
      intro readable
      rw [named] at readable
      cases readable
    exact ⟨unnamed, rfl⟩
  | none =>
    cases read : Chunk.read source with
    | error e =>
      rw [s.load_unreadable read named]
      have unread : (StackOp.load source name).Fallible := by
        intro _ function readable
        rw [read] at readable
        cases readable
      exact ⟨unread, rfl⟩
    | ok function =>
      rw [load_loaded read named s.heap s.values]
      exact ⟨Nat.zero_le _, [_], rfl, rfl⟩

variable {o : StackOp}

/-- What is left after a machine has run in place of the values that were taken. -/
theorem effect_afterwards {before : List Value} (fallible : o.Fallible)
    (enough : o.takes ≤ before.length) (outcome : Outcome) :
    o.Effect (afterwards (before.drop o.takes) o.leaves outcome).1 before
      (afterwards (before.drop o.takes) o.leaves outcome).2.values := by
  cases outcome with
  | finished results heap =>
    refine ⟨enough, (adjust o.leaves results).reverse, ?_, rfl⟩
    rw [List.length_reverse, length_adjust]
  | raised error heap =>
    have taken : ¬before.length < o.takes := by omega
    simp only [StackOp.Effect, afterwards, if_neg taken]
    exact ⟨fallible, trivial⟩

theorem effect_popAs {α : Type} (one : o.takes = 1) (leaves_none : o.leaves = 0)
    (fallible : o.Fallible) (s : Stack) (operation : String) (read : Value → Except EngineError α) :
    o.Effect (s.popAs operation read).1 s.values (s.popAs operation read).2.values := by
  cases values : s.values with
  | nil => simp [popAs, values, StackOp.Effect, one]
  | cons v rest => cases result : read v <;>
    simp [popAs, values, StackOp.Effect, one, leaves_none, fallible, result]

variable (run : Machine → OptionT m Outcome) (outer : Depth)

theorem effect_setGlobal (s : Stack) (name : String) :
    Always (fun r => (StackOp.setGlobal name).Effect r.1 s.values r.2.values)
      (s.setGlobal run outer name) := by
  obtain ⟨heap, values⟩ := s
  cases values with
  | nil => exact always_pure (by simp [StackOp.Effect, StackOp.takes])
  | cons v rest =>
    have enough : (StackOp.setGlobal name).takes ≤ (v :: rest).length := Nat.le_add_left _ _
    rw [setGlobal]
    dsimp only
    split
    · exact always_pure ⟨enough, [], rfl, rfl⟩
    · exact (always_true _).map fun outcome _ =>
        effect_afterwards (o := .setGlobal name) trivial enough outcome

theorem effect_call (s : Stack) (args results : Nat) :
    Always (fun r => (StackOp.call args results).Effect r.1 s.values r.2.values)
      (s.call run outer args results) := by
  rw [call]
  split
  · rename_i short
    exact always_pure (by simp [StackOp.Effect, StackOp.takes, short])
  · rename_i enough
    have taken : (StackOp.call args results).takes ≤ s.values.length := Nat.not_lt.1 enough
    have below : s.values.drop (args + 1) = (s.values.drop args).tail := by rw [List.tail_drop]
    dsimp only
    split
    · rename_i missing
      have length := congrArg List.length missing
      rw [List.length_drop, List.length_nil] at length
      omega
    · rename_i f rest callee
      rw [callee, List.tail_cons] at below
      split
      · exact (always_true _).map fun outcome _ =>
          below ▸ effect_afterwards (o := .call args results) trivial taken outcome
      · refine always_pure ?_
        simp only [StackOp.Effect, StackOp.takes, if_neg enough, below, and_true]
        trivial

theorem effect_pushText (s : Stack) (t : String) :
    Always (fun r => (StackOp.pushText t).Effect r.1 s.values r.2.values)
      (s.pushText run outer t) := by
  rw [pushText]
  split
  · refine (always_true _).bind fun outcome _ => ?_
    cases outcome <;> exact always_pure ⟨Nat.zero_le _, [.ofText t], rfl, rfl⟩
  · exact always_pure ⟨Nat.zero_le _, [.ofText t], rfl, rfl⟩

theorem effect_perform (s : Stack) (op : StackOp) :
    Always (fun r => op.Effect r.1 s.values r.2.values) (s.perform run outer op) := by
  cases op with
  | load source name => exact always_pure (s.effect_load source name)
  | pushInteger n => exact always_pure ⟨Nat.zero_le _, [.integer n], rfl, rfl⟩
  | pushText t => exact effect_pushText run outer s t
  | setGlobal name => exact effect_setGlobal run outer s name
  | call args results => exact effect_call run outer s args results
  | popInteger => exact always_pure (effect_popAs (o := .popInteger) rfl rfl trivial s _ _)
  | popText => exact always_pure (effect_popAs (o := .popText) rfl rfl trivial s _ _)
  | depth => exact always_pure ⟨Nat.zero_le _, [], rfl, rfl⟩
  | duplicateTop =>
    obtain ⟨heap, values⟩ := s
    cases values with
    | nil => exact always_pure (by simp [StackOp.Effect, StackOp.takes])
    | cons v rest => exact always_pure ⟨Nat.le_add_left _ _, [v, v], rfl, rfl⟩
  | peekKind =>
    obtain ⟨heap, values⟩ := s
    cases values with
    | nil => exact always_pure (by simp [StackOp.Effect, StackOp.takes])
    | cons v rest => exact always_pure ⟨Nat.le_add_left _ _, [v], rfl, rfl⟩
  | swap =>
    obtain ⟨heap, values⟩ := s
    match values with
    | [] | [_] => exact always_pure (by simp [StackOp.Effect, StackOp.takes])
    | a :: b :: rest => exact always_pure ⟨Nat.le_add_left _ _, [b, a], rfl, rfl⟩

end Stack

section Traced

variable {Q α β : Type} {m : Type → Type} [Monad m]

/-- Runs a program on a stack, and writes down what was performed and answered. -/
def Surroundings.trace (around : Surroundings Q m) (run : Machine → OptionT m Outcome)
    (outer : Depth) :
    Program (stackInterface Q) α → Stack → OptionT m (List (Event (stackInterface Q)) × α × Stack)
  | .done a, s => pure ([], a, s)
  | .perform (HostOp.stack op) k, s => do
    let (x, s) ← s.perform run outer op
    let (history, ended) ← around.trace run outer (k x) s
    return (⟨.stack op, x⟩ :: history, ended)
  | .perform (HostOp.question q) k, s => do
    let x ← around.answer s.heap.output q
    let (history, ended) ← around.trace run outer (k x) { s with heap := s.heap.flushed }
    return (⟨.question q, x⟩ :: history, ended)

/-- The values on a stack before and after what was performed. -/
inductive Walks : List (Event (stackInterface Q)) → List Value → List Value → Prop
  | here (values : List Value) : Walks [] values values
  | op {op : StackOp} {x : op.Answer} {history : List (Event (stackInterface Q))}
      {before between after : List Value}
      (effect : op.Effect x before between) (later : Walks history between after) :
      Walks (⟨.stack op, x⟩ :: history) before after
  | question (q : Q) (x : Except String Parcel) {history : List (Event (stackInterface Q))}
      {before after : List Value}
      (later : Walks history before after) : Walks (⟨.question q, x⟩ :: history) before after

variable [LawfulMonad m] (around : Surroundings Q m) (run : Machine → OptionT m Outcome)
  (outer : Depth)

theorem Surroundings.evaluate_eq_trace (p : Evaluation Q α) (s : Stack) :
    (around.evaluate run outer p).run s = (do return (← around.trace run outer p.run s).2) := by
  unfold evaluate
  generalize p.run = program
  induction program generalizing s with
  | done a => rw [trace, pure_bind]; rfl
  | perform op k ih =>
    cases op with
    | stack op =>
      simp only [trace, bind_assoc, pure_bind]
      exact bind_congr (m := OptionT m) fun r => ih r.1 r.2
    | question q =>
      simp only [trace, bind_assoc, pure_bind]
      exact (bind_assoc (m := OptionT m) _ _ _).trans (bind_congr (m := OptionT m) fun x =>
        (pure_bind _ _).trans (ih x _))

theorem Surroundings.walks_trace (p : Program (stackInterface Q) α) (s : Stack) :
    Always (fun r => Performs p r.1 (.done r.2.1) ∧ Walks r.1 s.values r.2.2.values)
      (around.trace run outer p s) := by
  induction p generalizing s with
  | done a => exact always_pure ⟨.start _, .here _⟩
  | perform op k ih =>
    cases op with
    | stack op =>
      rw [trace]
      exact (Stack.effect_perform run outer s op).bind fun r effect =>
        (ih r.1 r.2).map fun t ⟨performs, walks⟩ => ⟨.step performs, .op effect walks⟩
    | question q =>
      rw [trace]
      exact (always_true (around.answer s.heap.output q)).bind fun x _ =>
        (ih x _).map fun t ⟨performs, walks⟩ => ⟨.step performs, .question q x walks⟩

/-- What holds at the end of a program that starts on these values, for all that it may perform. -/
def Leaves (p : Evaluation Q α) (before : List Value)
    (post : List (Event (stackInterface Q)) → Except EngineError α → List Value → Prop) : Prop :=
  ∀ history ended after, Performs p.run history (.done ended) → Walks history before after →
    post history ended after

variable {p : Evaluation Q α} {f : α → Evaluation Q β} {before : List Value}
  {mid : List (Event (stackInterface Q)) → Except EngineError α → List Value → Prop}
  {post : List (Event (stackInterface Q)) → Except EngineError β → List Value → Prop}

theorem Walks.append {first second : List (Event (stackInterface Q))} {after : List Value}
    (h : Walks (first ++ second) before after) : ∃ between, Walks first before between ∧
      Walks second between after := by
  induction first generalizing before with
  | nil => exact ⟨before, .here _, h⟩
  | cons e first ih =>
    cases h with
    | op effect later =>
      obtain ⟨between, walks, rest⟩ := ih later
      exact ⟨between, .op effect walks, rest⟩
    | question q x later =>
      obtain ⟨between, walks, rest⟩ := ih later
      exact ⟨between, .question q x walks, rest⟩

theorem Leaves.bind (first : Leaves p before mid)
    (failed : ∀ history e after, mid history (.error e) after → post history (.error e) after)
    (rest : ∀ history a between, mid history (.ok a) between →
      Leaves (f a) between fun later => post (history ++ later)) :
        Leaves (p >>= f) before post := by
  intro history ended after performs walks
  obtain ⟨result, history, later, rfl, performs, rest_performs⟩ := performs_bind.1 performs
  obtain ⟨between, walks, rest_walks⟩ := walks.append
  have known := first _ _ _ performs walks
  cases result with
  | error e =>
    obtain ⟨rfl, rfl⟩ := performs_done.1 rest_performs
    cases rest_walks
    rw [List.append_nil]
    exact failed _ _ _ known
  | ok a => exact rest _ _ _ known _ _ _ rest_performs rest_walks

theorem leaves_pure {a : α}
    {post : List (Event (stackInterface Q)) → Except EngineError α → List Value → Prop}
    (h : post [] (.ok a) before) : Leaves (pure a : Evaluation Q α) before post := by
  intro history ended after performs walks
  obtain ⟨rfl, rfl⟩ := performs_done.1 performs
  cases walks
  exact h

/-- An operation on a stack with enough values touches nothing below those that it takes. -/
theorem Leaves.op {o : StackOp} {f : o.Result → Evaluation Q β} (operands : List Value)
    {below : List Value} (split : before = operands ++ below) (count : operands.length = o.takes)
    (failed : o.Fallible → ∀ e, post [⟨.stack o, .error e⟩] (.error e) below)
    (rest : ∀ x left, left.length = o.leaves →
      Leaves (f x) (left ++ below) fun later => post (⟨.stack o, .ok x⟩ :: later)) :
    Leaves (Evaluation.op o >>= f) before post := by
  have taken : before.drop o.takes = below := split ▸ List.drop_left' count
  have enough : o.takes ≤ before.length := by rw [split, List.length_append]; omega
  intro history ended after performs walks
  rcases performs_op performs with ⟨e, rfl, rfl⟩ | ⟨x, later, rfl, goesOn⟩
  · cases walks with
    | op effect later =>
      cases later
      have known : o.Fallible ∧ after = before.drop o.takes :=
        (if_neg (Nat.not_lt.2 enough)).mp effect
      rw [known.2, taken]
      exact failed known.1 e
  · cases walks with
    | op effect walks =>
      obtain ⟨-, left, counted, rfl⟩ := effect
      rw [taken] at walks
      exact rest x left counted later ended after goesOn walks

theorem Leaves.last {o : StackOp}
    {post : List (Event (stackInterface Q)) → Except EngineError o.Result → List Value → Prop}
    (operands : List Value) {below : List Value} (split : before = operands ++ below)
    (count : operands.length = o.takes)
    (failed : o.Fallible → ∀ e, post [⟨.stack o, .error e⟩] (.error e) below)
    (ended : ∀ x left, left.length = o.leaves → post [⟨.stack o, .ok x⟩] (.ok x) (left ++ below)) :
    Leaves (Evaluation.op o) before post := by
  rw [← bind_pure (Evaluation.op o)]
  exact .op operands split count failed fun x left counted => leaves_pure (ended x left counted)

/-- Marshalling takes exactly one value off a stack, whether it succeeds or fails. -/
theorem leaves_encode (v : Value) (S : List Value) :
    Leaves (Q := Q) encode (v :: S) fun _ _ after => after = S := by
  refine .op [v] rfl rfl (fun impossible => impossible.elim) fun kind left one => ?_
  obtain ⟨v, rfl⟩ := List.length_eq_one_iff.1 one
  have pops : ∀ {o : StackOp} {make : o.Result → Parcel}, o.takes = 1 → o.leaves = 0 → ∀ w,
      Leaves (Q := Q) (do return make (← Evaluation.op o)) (w :: S) fun _ _ after => after = S := by
    intro o make one leaves_none w
    refine .op [w] rfl one.symm (fun _ _ => rfl) fun x left zero => leaves_pure ?_
    rw [List.length_eq_zero_iff.1 (zero.trans leaves_none), List.nil_append]
  cases kind with
  | integer => exact pops (o := .popInteger) rfl rfl v
  | text => exact pops (o := .popText) rfl rfl v
  | other =>
    -- The routine can be read, so the value is never left behind.
    refine .op [] rfl rfl (fun fallible => absurd DumpChunk.read_dump (fallible rfl _))
      fun _ left one => ?_
    obtain ⟨routine, rfl⟩ := List.length_eq_one_iff.1 one
    refine .op [routine, v] rfl rfl (fun impossible => impossible.elim) fun _ left two => ?_
    obtain ⟨a, b, rfl⟩ := List.length_eq_two.1 two
    refine .op [a, b] rfl rfl (fun _ _ => rfl) fun _ left one => ?_
    obtain ⟨w, rfl⟩ := List.length_eq_one_iff.1 one
    exact pops (o := .popText) rfl rfl w

/-- Unmarshalling pushes exactly one value, or nothing when it fails. -/
def Decoded (S : List Value) : Except EngineError Unit → List Value → Prop
  | .ok _, after => ∃ v, after = v :: S
  | .error _, after => after = S

theorem leaves_decode (x : Parcel) (S : List Value) :
    Leaves (Q := Q) (decode x) S fun _ => Decoded S := by
  have pushed : ∀ left : List Value, left.length = 1 → ∃ v, left ++ S = v :: S := by
    intro left one
    obtain ⟨v, rfl⟩ := List.length_eq_one_iff.1 one
    exact ⟨v, rfl⟩
  cases x with
  | number n => exact .last (o := .pushInteger n) [] rfl rfl (fun _ _ => rfl) fun _ => pushed
  | text t => exact .last (o := .pushText t) [] rfl rfl (fun _ _ => rfl) fun _ => pushed
  | code t =>
    refine .op [] rfl rfl (fun _ _ => rfl) fun _ left one => ?_
    obtain ⟨function, rfl⟩ := List.length_eq_one_iff.1 one
    exact .last (o := .call 0 1) [function] rfl rfl (fun _ _ => rfl) fun _ => pushed

/-- An execution failed as its argument could not be unmarshalled. -/
def ArgumentFailed (script : ByteArray) (x : Parcel) (e : EngineError)
    (history : List (Event (stackInterface Q))) : Prop :=
  ∃ decoding, history = Call.event ⟨.load script scriptChunk, .ok ()⟩ :: decoding ∧
    Performs (decode x).run decoding (.done (.error e))

/-- An execution failed as its argument could not be made a global. -/
def GlobalFailed (e : EngineError) (history : List (Event (stackInterface Q))) : Prop :=
  Call.event ⟨.setGlobal argumentName, .error e⟩ ∈ history

/-- What an execution leaves on a stack that held the values `S`. -/
def Executed (script : ByteArray) (x : Parcel) (S : List Value)
    (history : List (Event (stackInterface Q))) :
    Except EngineError Parcel → List Value → Prop
  | .ok _, after => after = S
  | .error e, after => ∃ above, after = above ++ S ∧ above.length ≤ 2 ∧
      (above ≠ [] → ArgumentFailed script x e history ∨ GlobalFailed e history)

theorem leaves_execute (script : ByteArray) (x : Parcel) (S : List Value) :
    Leaves (Q := Q) (execute script x) S (Executed script x S) := by
  have nothing : ∀ history e, Executed (Q := Q) script x S history (.error e) S := fun _ _ =>
    ⟨[], rfl, Nat.zero_le _, fun failed => absurd rfl failed⟩
  refine .op [] rfl rfl (fun _ e => nothing _ e) fun _ left one => ?_
  obtain ⟨function, rfl⟩ := List.length_eq_one_iff.1 one
  have decoding : Leaves (Q := Q) (decode x) (function :: S) fun decoding ended after =>
      Performs (decode x).run decoding (.done ended) ∧ Decoded (function :: S) ended after :=
    fun _ _ _ performs walks => ⟨performs, leaves_decode x _ _ _ _ performs walks⟩
  refine decoding.bind ?_ ?_
  · rintro decoding e after ⟨performs, rfl⟩
    exact ⟨[function], rfl, Nat.le_succ 1, fun _ => .inl ⟨decoding, rfl, performs⟩⟩
  · rintro decoding _ _ ⟨-, v, rfl⟩
    refine .op [v] rfl rfl (fun impossible => impossible.elim) fun _ left two => ?_
    obtain ⟨v, w, rfl⟩ := List.length_eq_two.1 two
    refine .op [v] rfl rfl (fun _ e =>
      ⟨[w, function], rfl, Nat.le_refl 2, fun _ => .inr ?_⟩) fun _ left zero => ?_
    · simp [GlobalFailed, Call.event]
    · obtain rfl := List.length_eq_zero_iff.1 zero
      refine .op [w, function] rfl rfl (fun _ e => nothing _ e) fun _ left one => ?_
      obtain ⟨result, rfl⟩ := List.length_eq_one_iff.1 one
      rintro history (e | p) after performs walks
      · obtain rfl := leaves_encode result S _ _ _ performs walks
        exact nothing _ e
      · exact leaves_encode result S _ _ _ performs walks

theorem Leaves.trace {post : List (Event (stackInterface Q)) → Except EngineError α →
    List Value → Prop} {s : Stack}
    (h : Leaves p s.values post) :
    Always (fun r => post r.1 r.2.1 r.2.2.values) (around.trace run outer p.run s) :=
  (around.walks_trace run outer p.run s).mono fun _ ⟨performs, walks⟩ => h _ _ _ performs walks

theorem Leaves.evaluate {post : Except EngineError α → List Value → Prop} {s : Stack}
    (h : Leaves p s.values fun _ => post) :
    Always (fun r => post r.1 r.2.values) ((around.evaluate run outer p).run s) := by
  rw [around.evaluate_eq_trace]
  exact (h.trace around run outer).map fun _ known => known

/-- Whatever is around a stack, whatever `run` makes of the machines of scripts, with
the functions of the host that these call, and over any heap: marshalling takes
one value off, unmarshalling pushes one value if it succeeds, and an execution
leaves the stack as it was, unless it failed to deliver the argument.  Which of
its operations failed is read off what was performed. -/
theorem stack_discipline (heap : Heap) (S : List Value) :
    (∀ v, Always (fun r => r.2.values = S)
      ((around.evaluate run outer encode).run ⟨heap, v :: S⟩)) ∧
    (∀ x, Always (fun r => Decoded S r.1 r.2.values)
      ((around.evaluate run outer (decode x)).run ⟨heap, S⟩)) ∧
    ∀ script x,
      (around.evaluate run outer (execute script x)).run ⟨heap, S⟩ =
        (do return (← around.trace run outer (execute script x).run ⟨heap, S⟩).2) ∧
      Always (fun r => Executed script x S r.1 r.2.1 r.2.2.values)
        (around.trace run outer (execute script x).run ⟨heap, S⟩) :=
  ⟨fun v => (leaves_encode v S).evaluate around run outer (s := ⟨heap, v :: S⟩),
    fun x => (leaves_decode x S).evaluate around run outer (s := ⟨heap, S⟩),
    fun script x => ⟨around.evaluate_eq_trace run outer _ _,
      (leaves_execute script x S).trace around run outer (s := ⟨heap, S⟩)⟩⟩

end Traced

/-- A number above another value, with nothing around the stack. -/
theorem stack_discipline_number :
    LawfulMonad Id ∧
    Always (fun r => r.2.values = [.nil])
      ((Surroundings.evaluate (Q := Empty) (m := Id) ⟨[], fun _ _ => failure⟩ (fun _ => failure)
        (.outermost 200) encode).run
        ⟨{}, [.integer 7, .nil]⟩) ∧
    (Surroundings.evaluate (Q := Empty) (m := Id) ⟨[], fun _ _ => failure⟩ (fun _ => failure)
      (.outermost 200) encode).run
        ⟨{}, [.integer 7, .nil]⟩ =
      pure (.ok (.number 7), ⟨{}, [.nil]⟩) :=
  ⟨inferInstance, (stack_discipline _ _ _ _ _).1 _, rfl⟩

end SealedLua
