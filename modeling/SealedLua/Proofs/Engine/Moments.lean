import SealedLua.Engine.Interpreter
import SealedLua.Proofs.Always
import Mathlib.Logic.Relation

/-!
# The moments of a run

A run of an interpreter is taken apart into moments.  At each of them either the
host is between two operations on a stack, or a script runs.  What has called waits
below: a stack whose operation runs a script, or a script that called a function of
the host.  The moments are those of all programs, all functions of the host and all
answers to their questions; what any run comes to is one of them (`evaluates_leads`).
-/

namespace SealedLua

open Lua

inductive Waiting where
  /-- The stack below a call, and how many results are pushed on it. -/
  | stack (values : List Value) (results : Nat)
  /-- The stack with which the host goes on, whatever comes of finalizers. -/
  | finalizers (values : List Value)
  | script (call : HostCall)

inductive Moment where
  | host (stack : Stack) (below : List Waiting)
  | script (machine : Machine) (below : List Waiting)

namespace Moment

/-- How deep calls are where the host is, in an interpreter with so many calls. -/
def depth (limit : Nat) : List Waiting → Depth
  | .script c :: _ => c.depth
  | _ => .outermost limit

def heapOf : Outcome → Heap
  | .finished _ h | .raised _ h => h

/-- A machine that has come to its end. -/
inductive Ends : Machine → Outcome → Prop
  | finished {m : Machine} {vs : List Value} {h : Heap} (last : m.next = .finished vs h) :
  Ends m (.finished vs h)
  | raised {m : Machine} {e : Value} {h : Heap} (last : m.next = .raised e h) : Ends m (.raised e h)
  /-- The function of the host that is called does not exist. -/
  | missing {m : Machine} {c : HostCall} (last : m.next = .waits c) : Ends m (.raised .nil c.heap)

inductive Next (limit : Nat) : Moment → Moment → Prop
  /-- The host performs an operation that runs no script. -/
  | performs {s : Stack} {below : List Waiting} (op : StackOp) {r : op.Answer × Stack}
      (direct : (s.perform (m := Id) (fun _ => failure) (depth limit below) op).run = some r) :
      Next limit (.host s below) (.host r.2 below)
  /-- The host makes one of its functions a value. -/
  | binds (s : Stack) (below : List Waiting) (id : HostId) : Next limit (.host s below)
    (.host (s.push (.host id)) below)
  /-- The host passes on what was printed. -/
  | prints (s : Stack) (below : List Waiting) : Next limit (.host s below)
    (.host { s with heap := s.heap.flushed } below)
  | calls {s : Stack} {f : Value} {args rest : List Value} (below : List Waiting)
      (values : s.values = args.reverse ++ f :: rest)
      (results : Nat) : Next limit (.host s below) (.script
        (.ofCall (depth limit below) f (s.heap.passAll args).1 (s.heap.passAll args).2)
        (.stack rest results :: below))
  /-- An assignment to a global may call a metamethod. -/
  | stores {s : Stack} {v : Value} {rest : List Value} (below : List Waiting)
      (values : s.values = v :: rest) (name : String) :
      Next limit (.host s below) (.script (.ofAction (depth limit below)
        (setIndex none (.table Heap.globals) (.ofText name) (s.heap.pass v).1 none)
        (s.heap.pass v).2) (.stack rest 0 :: below))
  /-- The collector ends a cycle when a text is pushed. -/
  | collects {s : Stack} (below : List Waiting) (t : String) (now : s.heap.collectsNow = true) :
      Next limit (.host s below) (.script
        (.ofAction (depth limit below) (Collector.collect (.ofText t :: s.values)) s.heap)
        (.finalizers (.ofText t :: s.values) :: below))
  /-- The interpreter comes to its end. -/
  | finishes (s : Stack) : Next limit (.host s [])
      (.script (.ofAction (.outermost limit) Collector.finish s.heap) [.finalizers s.values])
  | moves {m n : Machine} (below : List Waiting) (next : m.next = .more n) :
    Next limit (.script m below) (.script n below)
  | asks {m : Machine} {c : HostCall} (below : List Waiting) (next : m.next = .waits c)
      {Q : Type} (f : HostFunction Q) :
      Next limit (.script m below) (.host (Surroundings.frame f c) (.script c :: below))
  | answers (s : Stack) (c : HostCall) (below : List Waiting) (ended : Except EngineError Unit) :
      Next limit (.host s (.script c :: below)) (.script (Surroundings.resume c ended s) below)
  | returns {m : Machine} {o : Outcome} (ends : Ends m o) (values : List Value) (results : Nat)
      (below : List Waiting) :
      Next limit (.script m (.stack values results :: below))
      (.host (Stack.afterwards values results o).2 below)
  | collected {m : Machine} {o : Outcome} (ends : Ends m o) (values : List Value)
      (below : List Waiting) :
      Next limit (.script m (.finalizers values :: below)) (.host ⟨heapOf o, values⟩ below)

/-- The moment in which an interpreter has been made. -/
def start (circumstances : Circumstances) : Moment :=
  .host (Interpreter.create circumstances : Interpreter Empty).stack []

/-- What can follow, in any number of steps. -/
abbrev Leads (limit : Nat) : Moment → Moment → Prop := Relation.ReflTransGen (Next limit)

end Moment

namespace Lua.Machine

/-- A function is called on top of what waits for it, and that is not a task. -/
def Seated (m : Machine) : Prop :=
  ∀ r h, m.control = .invoke r h → ∀ k closing, m.frames.head? ≠ some (.task closing k)

section Moves

variable {frames : List Frame} {depth : Depth} {h : Heap} {n : Machine}

theorem seated_step (x : Step Flow) : Seated ⟨frames, depth, .step x⟩ := by
  rintro _ _ ⟨⟩

theorem seated_unwind (e : Value) (h : Heap) : Seated ⟨frames, depth, .unwind e h⟩ := by
  rintro _ _ ⟨⟩

theorem seated_wait {frame : Frame} (calls : ∀ k closing, frame ≠ .task closing k)
    (r : Call) (h : Heap) :
    Seated (wait frames depth frame r h) := by
  unfold wait
  dsimp only
  split
  · exact seated_step _
  · rintro _ _ - k closing head
    exact calls k closing (Option.some.inj head)

theorem seated_close {frame : Frame} (calls : ∀ k closing, frame ≠ .task closing k) (v e : Value)
    (position : Option Position) (h : Heap) : Seated (close frames depth frame v e position h) :=
  seated_wait calls _ h

theorem seated_raise (e : Value) (h : Heap) : Seated (raise frames depth e h) := by
  unfold raise
  split
  · exact seated_unwind e h
  · split
    · exact seated_unwind _ h
    · rintro _ _ - _ _ ⟨⟩

/-- A function that ends with a call makes it in its own place, or waits for it. -/
theorem seated_tail {r : Call} (waits : ∀ k closing, frames.head? ≠ some (.task closing k))
    (moved : (match r.callee with
      | .closure _ => Progress.more ⟨frames, depth, .invoke r h⟩
      | _ => .more (wait frames depth (.call r.site fun vs h => .done (.ret vs) h) r h)) =
        .more n) : Seated n := by
  split at moved
  · cases moved
    exact fun _ _ _ => waits
  · cases moved
    exact seated_wait (by rintro _ _ ⟨⟩) r h

theorem seated_deliver {flow : Flow} (moved : deliver frames depth flow h = .more n) :
    Seated n := by
  cases frames with
  | nil =>
    cases flow with
    | tail r => exact seated_tail (by rintro _ _ ⟨⟩) moved
    | _ => cases moved
  | cons frame frames =>
    cases frame with
    | task closing k =>
      cases flow with
      | again t =>
        cases moved
        exact seated_step _
      | _ =>
        cases closing with
        | none =>
          cases moved
          exact seated_step _
        | some closed =>
          cases moved
          exact seated_close (by rintro _ _ ⟨⟩) _ _ _ h
    | call site k =>
      cases flow with
      | tail r => exact seated_tail (by rintro _ _ ⟨⟩) moved
      | _ =>
        cases moved
        exact seated_step _
    | guard site handler k =>
      cases flow with
      | tail r => exact seated_tail (by rintro _ _ ⟨⟩) moved
      | _ =>
        cases moved
        exact seated_step _
    | _ =>
      cases flow with
      | tail r => exact seated_tail (by rintro _ _ ⟨⟩) moved
      | _ =>
        cases moved
        exact seated_unwind _ h

theorem seated_invoke {r : Call} (waits : ∀ k closing, frames.head? ≠ some (.task closing k))
    (moved : invoke frames depth r h = .more n) : Seated n := by
  unfold invoke at moved
  split at moved
  · cases moved
    exact seated_step _
  · cases moved
    exact seated_step _
  · cases moved
    exact seated_step _
  · cases moved
  · dsimp only at moved
    split at moved
    · cases moved
      exact seated_step _
    · cases moved
      exact fun _ _ _ => waits

theorem seated_unwound {e : Value} (moved : unwind frames depth e h = .more n) : Seated n := by
  cases frames with
  | nil => cases moved
  | cons frame frames =>
    cases frame with
    | guard site handler k =>
      cases moved
      exact seated_step _
    | task closing k =>
      cases closing with
      | none =>
        cases moved
        exact seated_unwind e h
      | some closed =>
        cases moved
        exact seated_close (by rintro _ _ ⟨⟩) _ _ _ h
    | _ =>
      cases moved
      exact seated_unwind e h

end Moves

theorem Seated.next {m n : Machine} (seated : Seated m) (next : m.next = .more n) : Seated n := by
  obtain ⟨frames, depth, control⟩ := m
  cases control with
  | step x =>
    cases x with
    | done flow h => exact seated_deliver next
    | raise e h =>
      cases next
      exact seated_raise e h
    | call r h k =>
      cases next
      exact seated_wait (by rintro _ _ ⟨⟩) r h
    | protect r handler h k =>
      cases next
      exact seated_wait (by rintro _ _ ⟨⟩) r h
    | run t h k =>
      cases next
      exact seated_step _
  | invoke r h => exact seated_invoke (seated r h rfl) next
  | unwind e h => exact seated_unwound next

end Lua.Machine

namespace Moment

section Runs

variable (limit : Nat) {Q α : Type} {m : Type → Type} [Monad m] [LawfulMonad m]

/-- A machine leads to a machine that has come to this end. -/
def LeadsTo (machine : Machine) (below : List Waiting) (o : Outcome) : Prop :=
  ∃ last, Ends last o ∧ Leads limit (.script machine below) (.script last below)

/-- Whatever waits below, machines come to nothing but where they lead. -/
def Follows (run : Machine → OptionT m Outcome) : Prop :=
  ∀ machine below, Always (LeadsTo limit machine below) (run machine)

variable {limit} {run : Machine → OptionT m Outcome} (follows : Follows limit run)
  (s : Stack) (below : List Waiting)

include follows

theorem afterwards_leads {machine : Machine} {values : List Value} {results : Nat}
    (next : Next limit (.host s below) (.script machine (.stack values results :: below))) :
    Always (fun r => Leads limit (.host s below) (.host r.2 below))
      (do return Stack.afterwards values results (← run machine)) := by
  refine (follows machine (.stack values results :: below)).map fun o leads => ?_
  obtain ⟨last, ends, moved⟩ := leads
  exact (moved.head next).tail (.returns ends values results below)

theorem call_leads (args results : Nat) :
    Always (fun r => Leads limit (.host s below) (.host r.2 below))
      (s.call run (depth limit below) args results) := by
  have direct : ∀ {r},
      (s.perform (m := Id) (fun _ => failure) (depth limit below) (.call args results)).run =
        some r →
      Leads limit (.host s below) (.host r.2 below) := fun direct => .single (.performs _ direct)
  simp only [Stack.perform] at direct
  unfold Stack.call at direct ⊢
  split at direct
  · next few =>
    rw [if_pos few]
    exact always_pure (direct rfl)
  · next enough =>
    rw [if_neg enough]
    dsimp only at direct ⊢
    split at direct
    · exact always_pure (direct rfl)
    · next f rest found =>
      split at direct
      · next function =>
        rw [if_pos function]
        refine afterwards_leads follows s below (.calls below ?_ results)
        rw [List.reverse_reverse, ← found, List.take_append_drop]
      · next other =>
        rw [if_neg other]
        exact always_pure (direct rfl)

theorem setGlobal_leads (name : String) :
    Always (fun r => Leads limit (.host s below) (.host r.2 below))
      (s.setGlobal run (depth limit below) name) := by
  have direct : ∀ {r},
      (s.perform (m := Id) (fun _ => failure) (depth limit below) (.setGlobal name)).run = some r →
      Leads limit (.host s below) (.host r.2 below) := fun direct => .single (.performs _ direct)
  simp only [Stack.perform] at direct
  unfold Stack.setGlobal at direct ⊢
  split at direct
  · exact always_pure (direct rfl)
  · next v rest values =>
    dsimp only at direct ⊢
    split at direct
    · next plain =>
      rw [if_pos plain]
      exact always_pure (direct rfl)
    · next other =>
      rw [if_neg other]
      exact afterwards_leads follows s below (.stores below values name)

theorem pushText_leads (t : String) :
    Always (fun r => Leads limit (.host s below) (.host r.2 below))
      (s.pushText run (depth limit below) t) := by
  have direct : ∀ {r},
      (s.perform (m := Id) (fun _ => failure) (depth limit below) (.pushText t)).run = some r →
      Leads limit (.host s below) (.host r.2 below) := fun direct => .single (.performs _ direct)
  simp only [Stack.perform] at direct
  unfold Stack.pushText at direct ⊢
  split at direct
  · next now =>
    rw [if_pos now]
    have made :=
      follows (.ofAction (depth limit below) (Collector.collect (.ofText t :: s.values)) s.heap)
      (.finalizers (.ofText t :: s.values) :: below)
    refine made.bind fun o leads => ?_
    obtain ⟨last, ends, moved⟩ := leads
    have leads :=
      (moved.head (.collects below t now)).tail (.collected ends (.ofText t :: s.values) below)
    cases o <;> exact always_pure leads
  · next later =>
    rw [if_neg later]
    exact always_pure (direct rfl)

theorem perform_leads (op : StackOp) :
    Always (fun r => Leads limit (.host s below) (.host r.2 below))
      (s.perform run (depth limit below) op) := by
  have direct : ∀ {r},
      (s.perform (m := Id) (fun _ => failure) (depth limit below) op).run = some r →
      Leads limit (.host s below) (.host r.2 below) := fun direct => .single (.performs op direct)
  cases op with
  | call args results => exact call_leads follows s below args results
  | setGlobal name => exact setGlobal_leads follows s below name
  | pushText t => exact pushText_leads follows s below t
  | _ => obtain ⟨h, _ | ⟨a, _ | ⟨b, rest⟩⟩⟩ := s <;> exact always_pure (direct rfl)

theorem evaluate_leads (around : Surroundings Q m) (p : Evaluation Q α) :
    Always (fun r => Leads limit (.host s below) (.host r.2 below))
      ((around.evaluate run (depth limit below) p).run s) := by
  unfold Surroundings.evaluate
  generalize p.run = program
  induction program generalizing s with
  | done a => exact always_pure .refl
  | perform op k ih =>
    cases op with
    | stack op =>
      refine (perform_leads follows s below op).bind fun r first => ?_
      exact (ih r.1 r.2).mono fun _ rest => first.trans rest
    | question q =>
      let t : Stack := { s with heap := s.heap.flushed }
      have asked := (always_true (around.answer s.heap.output q)).map (Q := fun r => r.2 = t)
        (f := fun x => (x, t)) fun _ _ => rfl
      refine asked.bind fun r same => ?_
      refine (ih r.1 r.2).mono fun _ rest => .head ?_ rest
      rw [same]
      exact .prints s below

omit follows in
/-- Machines come to nothing but where they lead, whatever functions of the host do. -/
theorem drive_follows (around : Surroundings Q m) (fuel : Nat) :
    Follows limit (around.drive fuel) := by
  induction fuel with
  | zero => exact fun _ _ => always_failure
  | succ fuel ih =>
    intro machine below
    rw [Surroundings.drive]
    cases next : machine.next with
    | more n =>
      refine (ih n below).mono fun o leads => ?_
      obtain ⟨last, ends, moved⟩ := leads
      exact ⟨last, ends, moved.head (.moves below next)⟩
    | finished vs h => exact always_pure ⟨machine, .finished next, .refl⟩
    | raised e h => exact always_pure ⟨machine, .raised next, .refl⟩
    | waits c =>
      dsimp only
      split
      · exact always_pure ⟨machine, .missing next, .refl⟩
      · next f _ =>
        refine (evaluate_leads ih (Surroundings.frame f c) (.script c :: below) around f.body).bind
          fun r asked => ?_
        refine (ih (Surroundings.resume c r.1 r.2) below).mono fun o leads => ?_
        obtain ⟨last, ends, moved⟩ := leads
        have called : Leads limit (.script machine below) (.host r.2 (.script c :: below)) :=
          asked.head (.asks below next f)
        exact ⟨last, ends, (called.tail (.answers r.2 c below r.1)).trans moved⟩

end Runs
end Moment

namespace Interpreter

open Moment

variable {Q α : Type} {m : Type → Type} [Monad m] [LawfulMonad m] (i : Interpreter Q) (fuel : Nat)
  (answer : ByteArray → Q → OptionT m (Except String Parcel))

/-- A program leaves an interpreter in a moment to which the one before it leads. -/
theorem evaluates_leads (p : Evaluation Q α) :
    Always (fun r => Leads i.stack.heap.circumstances.callLimit (.host i.stack [])
      (.host r.2.stack [])) (i.evaluate fuel answer p) := by
  let around : Surroundings Q m := ⟨i.functions, answer⟩
  exact (evaluate_leads (drive_follows around fuel) i.stack [] around p).map fun _ leads => leads

theorem bind_leads (answer : Q → OptionT m (Except String Parcel))
    (name : String) (f : HostFunction Q) :
    Always (fun r => Leads i.stack.heap.circumstances.callLimit (.host i.stack [])
      (.host r.2.stack [])) (i.bind fuel answer name f) := by
  let extended : Interpreter Q := ⟨i.stack.push (.host i.functions.length), i.functions ++ [f]⟩
  exact (extended.evaluates_leads fuel (fun _ => answer) (Evaluation.op (.setGlobal name))).mono
      fun _ leads =>
    leads.head (.binds i.stack [] i.functions.length)

theorem finish_leads :
    Always (fun j => Leads i.stack.heap.circumstances.callLimit (.host i.stack [])
      (.host j.stack [])) (i.finish fuel answer) := by
  unfold finish
  split
  · exact always_pure .refl
  · let around : Surroundings Q m := ⟨i.functions, answer⟩
    have follows : Follows i.stack.heap.circumstances.callLimit (around.drive fuel) :=
      drive_follows around fuel
    refine (follows (.ofAction i.outermost Collector.finish i.stack.heap)
      [.finalizers i.stack.values]).bind fun o leads => ?_
    obtain ⟨last, ends, moved⟩ := leads
    have leads := (moved.head (.finishes i.stack)).tail (.collected ends i.stack.values [])
    cases o <;> exact always_pure leads

end Interpreter
end SealedLua
