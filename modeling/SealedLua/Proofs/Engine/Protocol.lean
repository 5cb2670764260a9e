import SealedLua.Engine.Evaluation
import SealedLua.Proofs.Program

/-!
# The protocol of an execution

What an execution asks of a stack is known beforehand, except that the last
operations depend on what the stack says of the result, and that the first
operation that fails is the last one.  This holds for stacks of every kind, as
`execute` sees nothing of a stack but the answers.
-/

namespace SealedLua

open Program (Event Performs performs_bind performs_ask performs_done)

/-- An operation on a stack with its answer. -/
abbrev Call := (op : StackOp) × op.Answer

variable {Q : Type}

def Call.event (c : Call) : Event (stackInterface Q) := ⟨.stack c.1, c.2⟩

def argumentCalls : Parcel → List StackOp
  | .number n => [.pushInteger n]
  | .text s => [.pushText s]
  | .code s => [.load s.toUTF8 codeChunk, .call 0 1]

/-- What is asked of a stack to pop a result, of which the stack has told the kind. -/
def resultCalls : ValueKind → List StackOp
  | .integer => [.popInteger]
  | .text => [.popText]
  | .other => [.load Routine.dump.toUTF8 dumpChunk, .swap, .call 1 1, .popText]

def protocol (script : ByteArray) (argument : Parcel) (kind : ValueKind) : List StackOp :=
  .load script scriptChunk :: (argumentCalls argument ++
    .duplicateTop :: .setGlobal argumentName :: .call 1 1 :: .peekKind :: resultCalls kind)

/-- The last call pops a value, which becomes a parcel as its kind was told. -/
inductive Popped : ValueKind → Call → Parcel → Prop
  | integer (n : Int64) : Popped .integer ⟨.popInteger, .ok n⟩ (.number n)
  | text (s : String) : Popped .text ⟨.popText, .ok s⟩ (.text s)
  | code (s : String) : Popped .other ⟨.popText, .ok s⟩ (.code s)

/-- Calls for these operations, one after the other, up to the first that fails. -/
inductive Keeps {α : Type} : List StackOp → List Call → Except EngineError α → Prop
  | whole (a : α) : Keeps [] [] (.ok a)
  | fails (op : StackOp) (ops : List StackOp) (e : EngineError) : Keeps (op :: ops)
    [⟨op, .error e⟩] (.error e)
  | goes {op : StackOp} {ops : List StackOp} {calls : List Call} {ended : Except EngineError α}
      (x : op.Result)
      (later : Keeps ops calls ended) : Keeps (op :: ops) (⟨op, .ok x⟩ :: calls) ended

namespace Keeps

variable {α : Type} {ops : List StackOp} {calls : List Call}

theorem isPrefix {ended : Except EngineError α} (h : Keeps ops calls ended) :
    calls.map Sigma.fst <+: ops := by
  induction h with
  | whole a => exact List.prefix_rfl
  | fails op ops e => exact ⟨ops, rfl⟩
  | goes x later ih => exact (List.prefix_cons_inj _).2 ih

theorem eq_of_ok {a : α} (h : Keeps ops calls (.ok a)) : calls.map Sigma.fst = ops := by
  generalize ended : (.ok a : Except EngineError α) = result at h
  induction h with
  | whole a => rfl
  | fails op ops e => cases ended
  | goes x later ih => rw [List.map_cons, ih ended]

theorem succeeds_of_ok {a : α} (h : Keeps ops calls (.ok a)) :
    ∀ c ∈ calls, ∀ e, c.2 ≠ .error e := by
  generalize ended : (.ok a : Except EngineError α) = result at h
  induction h with
  | whole a => exact fun _ => nofun
  | fails op ops e => cases ended
  | goes x later ih => exact List.forall_mem_cons.2 ⟨fun _ => nofun, ih ended⟩

theorem last_of_error {e : EngineError} (h : Keeps ops calls (.error e : Except EngineError α)) :
    ∃ before last, calls = before ++ [last] ∧ last.2 = .error e ∧ ∀ c ∈ before,
      ∀ e', c.2 ≠ .error e' := by
  generalize ended : (.error e : Except EngineError α) = result at h
  induction h with
  | whole a => cases ended
  | fails op ops e' =>
    cases ended
    exact ⟨[], _, rfl, rfl, fun _ => nofun⟩
  | goes x later ih =>
    obtain ⟨before, last, rfl, failed, earlier⟩ := ih ended
    exact ⟨_ :: before, last, rfl, failed, List.forall_mem_cons.2 ⟨fun _ => nofun, earlier⟩⟩

end Keeps

/-- Calls that keep to a plan, and end with a parcel of the kind that was told. -/
structure Conducted (kind : ValueKind) (ops : List StackOp) (calls : List Call)
    (ended : Except EngineError Parcel) :
    Prop where
  keeps : Keeps ops calls ended
  told : ∀ k, (⟨.peekKind, .ok k⟩ : Call) ∈ calls → k = kind
  popped : ∀ p, ended = .ok p → ∃ before last, calls = before ++ [last] ∧ Popped kind last p

/-- Whatever the answers, the program keeps to the plan for a kind among `kinds`. -/
def Conducts (kinds : ValueKind → Prop) (plan : ValueKind → List StackOp)
    (p : Evaluation Q Parcel) : Prop :=
  ∀ history ended, Performs p.run history (.done ended) →
    ∃ kind calls, kinds kind ∧ history = calls.map Call.event ∧
      Conducted kind (plan kind) calls ended

/-- After an operation a program goes on with the result, or ends with the failure. -/
theorem performs_op {op : StackOp} {β : Type} {f : op.Result → Evaluation Q β}
    {history : List (Event (stackInterface Q))} {ended : Except EngineError β}
    (h : Performs (Evaluation.op op >>= f).run history (.done ended)) :
    (∃ e, history = [Call.event ⟨op, .error e⟩] ∧ ended = .error e) ∨
      ∃ x later, history = Call.event ⟨op, .ok x⟩ :: later ∧
        Performs (f x).run later (.done ended) := by
  obtain ⟨answer, first, second, rfl, asked, rest⟩ := performs_bind.1 h
  obtain rfl := performs_ask.1 asked
  match answer with
  | .error e =>
    obtain ⟨rfl, rfl⟩ := performs_done.1 rest
    exact .inl ⟨e, rfl, rfl⟩
  | .ok x => exact .inr ⟨x, second, rfl, rest⟩

variable {kinds : ValueKind → Prop} {plan : ValueKind → List StackOp}

theorem Conducted.fails (kind : ValueKind) (op : StackOp) (ops : List StackOp) (e : EngineError) :
    Conducted kind (op :: ops) [⟨op, .error e⟩] (.error e) where
  keeps := .fails op ops e
  told k asked := by
    cases op with
    | peekKind => simp at asked
    | _ => simp at asked
  popped _ := nofun

theorem Conducts.op {o : StackOp} {f : o.Result → Evaluation Q Parcel} (silent : o ≠ .peekKind)
    (possible : ∃ kind, kinds kind) (rest : ∀ x, Conducts kinds plan (f x)) :
    Conducts kinds (fun kind => o :: plan kind) (Evaluation.op o >>= f) := by
  intro history ended h
  rcases performs_op h with ⟨e, rfl, rfl⟩ | ⟨x, later, rfl, hlater⟩
  · obtain ⟨kind, allowed⟩ := possible
    exact ⟨kind, [⟨o, .error e⟩], allowed, rfl, .fails kind o _ e⟩
  · obtain ⟨kind, calls, allowed, rfl, conducted⟩ := rest x later ended hlater
    refine ⟨kind, ⟨o, .ok x⟩ :: calls, allowed, rfl, .goes x conducted.keeps,
      fun k asked => ?_, fun p result => ?_⟩
    · rcases List.mem_cons.1 asked with same | asked
      · exact absurd (congrArg Sigma.fst same).symm silent
      · exact conducted.told k asked
    · obtain ⟨before, last, rfl, popped⟩ := conducted.popped p result
      exact ⟨_ :: before, last, rfl, popped⟩

theorem Conducts.pop {o : StackOp} {kind : ValueKind} {make : o.Result → Parcel}
    (planned : plan kind = [o])
    (silent : o ≠ .peekKind) (popped : ∀ x, Popped kind ⟨o, .ok x⟩ (make x)) :
    Conducts (Q := Q) (· = kind) plan (do return make (← Evaluation.op o)) := by
  intro history ended h
  rcases performs_op h with ⟨e, rfl, rfl⟩ | ⟨x, later, rfl, hlater⟩
  · exact ⟨kind, [⟨o, .error e⟩], rfl, rfl, planned ▸ .fails kind o _ e⟩
  · obtain ⟨rfl, rfl⟩ := performs_done.1 hlater
    refine ⟨kind, [⟨o, .ok x⟩], rfl, rfl, planned ▸ .goes x (.whole _),
      fun k asked => ?_, fun p result => ?_⟩
    · exact absurd (congrArg Sigma.fst (List.mem_singleton.1 asked)).symm silent
    · cases result
      exact ⟨[], _, rfl, popped x⟩

/-- A result is popped as the stack tells its kind, and the kind is asked for once. -/
theorem conducts_encode :
    Conducts (Q := Q) (fun _ => True) (fun kind => .peekKind :: resultCalls kind) encode := by
  intro history ended h
  rcases performs_op h with ⟨e, rfl, rfl⟩ | ⟨told, later, rfl, hlater⟩
  · exact ⟨.other, [⟨.peekKind, .error e⟩], trivial, rfl, .fails _ _ _ e⟩
  · have branch : ∃ kind calls, kind = told ∧ later = calls.map Call.event ∧
        Conducted kind (resultCalls kind) calls ended := by
      cases told with
      | integer => exact Conducts.pop (o := .popInteger) rfl nofun Popped.integer later ended hlater
      | text => exact Conducts.pop (o := .popText) rfl nofun Popped.text later ended hlater
      | other =>
        have dumps : Conducts (Q := Q) (· = .other) (fun _ => resultCalls .other) (do
            Evaluation.op (.load Routine.dump.toUTF8 dumpChunk)
            Evaluation.op .swap
            Evaluation.op (.call 1 1)
            return .code (← Evaluation.op .popText)) :=
          .op nofun ⟨_, rfl⟩ fun _ => .op nofun ⟨_, rfl⟩ fun _ => .op nofun ⟨_, rfl⟩ fun _ =>
            .pop (o := .popText) rfl nofun Popped.code
        obtain ⟨_, calls, rfl, same, conducted⟩ := dumps later ended hlater
        exact ⟨_, calls, rfl, same, conducted⟩
    obtain ⟨kind, calls, rfl, rfl, conducted⟩ := branch
    refine ⟨kind, ⟨.peekKind, .ok kind⟩ :: calls, trivial, rfl, .goes _ conducted.keeps,
      fun k asked => ?_,
      fun p result => ?_⟩
    · rcases List.mem_cons.1 asked with same | asked
      · simpa using same
      · exact conducted.told k asked
    · obtain ⟨before, last, rfl, popped⟩ := conducted.popped p result
      exact ⟨_ :: before, last, rfl, popped⟩

theorem Conducts.decode {argument : Parcel} {f : Unit → Evaluation Q Parcel}
    (possible : ∃ kind, kinds kind) (rest : Conducts kinds plan (f ())) :
    Conducts kinds (fun kind => argumentCalls argument ++ plan kind)
      (SealedLua.decode argument >>= f) := by
  cases argument with
  | number n => exact .op (o := .pushInteger n) nofun possible fun _ => rest
  | text s => exact .op (o := .pushText s) nofun possible fun _ => rest
  | code s =>
    have sequence : SealedLua.decode (.code s) >>= f =
        (do Evaluation.op (.load s.toUTF8 codeChunk); Evaluation.op (.call 0 1) >>= f) :=
          bind_assoc _ _ _
    rw [sequence]
    exact .op nofun possible fun _ => .op nofun possible fun _ => rest

theorem conducts_execute (script : ByteArray) (argument : Parcel) :
    Conducts (Q := Q) (fun _ => True) (protocol script argument) (execute script argument) :=
  .op nofun ⟨.other, trivial⟩ fun _ => .decode ⟨.other, trivial⟩ <|
    .op nofun ⟨.other, trivial⟩ fun _ => .op nofun ⟨.other, trivial⟩ fun _ => .op nofun
        ⟨.other, trivial⟩ fun _ =>
      conducts_encode

/-- An implementation of the operations on a stack, with a state of its own. -/
def implementation {σ : Type} (answer : (op : StackOp) → StateM σ op.Answer) :
    (op : HostOp Empty) → StateM σ op.Answer
  | .stack op => answer op
  | .question q => q.elim

/-- Whatever a stack answers, the calls of an execution are a prefix of the
protocol, for the kind that the stack tells, if it gets that far.  With a result
they are all of it and none has failed, and the result is what the last of them
popped.  With a failure the last call is the only one that failed, and with this
failure. -/
theorem calls_execute {σ : Type} (answer : (op : StackOp) → StateM σ op.Answer)
    (s : σ) (script : ByteArray) (argument : Parcel) :
    ∃ (calls : List Call) (kind : ValueKind),
      Program.performed (I := stackInterface Empty) (implementation answer)
        (execute script argument).run s =
        calls.map Call.event ∧
      calls.map Sigma.fst <+: protocol script argument kind ∧
      (∀ k, (⟨.peekKind, .ok k⟩ : Call) ∈ calls → k = kind) ∧
      match ((Program.run (I := stackInterface Empty) (implementation answer)
        (execute script argument).run).run s).1 with
      | .ok p =>
        calls.map Sigma.fst = protocol script argument kind ∧ (∀ c ∈ calls, ∀ e, c.2 ≠ .error e) ∧
          ∃ before last, calls = before ++ [last] ∧ Popped kind last p
      | .error e =>
        ∃ before last, calls = before ++ [last] ∧ last.2 = .error e ∧ ∀ c ∈ before,
          ∀ e', c.2 ≠ .error e' := by
  have performs := Program.performs_performed (I := stackInterface Empty) (implementation answer)
    (execute script argument).run s
  obtain ⟨kind, calls, -, same, conducted⟩ := conducts_execute script argument _ _ performs
  refine ⟨calls, kind, same, conducted.keeps.isPrefix, conducted.told, ?_⟩
  split
  · rename_i p result
    rw [result] at conducted
    exact ⟨conducted.keeps.eq_of_ok, conducted.keeps.succeeds_of_ok, conducted.popped p rfl⟩
  · rename_i e result
    rw [result] at conducted
    exact conducted.keeps.last_of_error

end SealedLua
