import SealedLua.Proofs.Engine.Failures
import SealedLua.Proofs.Gateway.Limits
import SealedLua.Proofs.Lua.Uncaught

/-!
# Failures of nested calls

A nested call that fails raises an error in the script that made it, and what
becomes of the error is up to the script.  Here the word of `ToldOp` is put in
where a function of the host fails and the failure passes every guard that the
script has set up at that moment.  After the word a machine comes to no results,
whatever the script does while values are closed, and so the run fails, and fails
as a script does.
-/

namespace SealedLua

open Lua
open Program (Only Tracks Performs Event performs_done performs_bindOption tracks_any)

variable {Q α : Type}

namespace Surroundings

open scoped Classical in
/-- Runs a machine to its end, and says the word where a function of the host
fails and nothing catches the failure. -/
noncomputable def tell (s : Surroundings Q (Program toldInterface)) :
    Nat → Machine → OptionT (Program toldInterface) Outcome
  | 0, _ => failure
  | fuel + 1, machine =>
    match machine.next with
    | .more machine => s.tell fuel machine
    | .finished values heap => pure (.finished values heap)
    | .raised e heap => pure (.raised e heap)
    | .waits c =>
      match s.functions[c.host]? with
      | none => pure (.raised .nil c.heap)
      | some f => do
        let (ended, stack) ← s.evaluate (s.drive fuel) c.depth f.body (frame f c)
        if (∃ e, ended = .error e) ∧
          Uncaught c.frames then OptionT.lift (Program.ask (I := toldInterface) .refused)
        s.tell fuel (resume c ended stack)

theorem erased_tell {functions : List (HostFunction Q)}
    {answer : ByteArray → Q → OptionT (Program toldInterface) (Except String Parcel)}
    {answer' : ByteArray → Q → OptionT (Program platformInterface) (Except String Parcel)}
    (h : ∀ text q, Told.erasure.Rel (answer text q) (answer' text q))
    (fuel : Nat) (machine : Machine) :
    Told.erasure.Rel ((Surroundings.mk functions answer).tell fuel machine)
      ((Surroundings.mk functions answer').drive fuel machine) := by
  induction fuel generalizing machine with
  | zero => exact Told.erasure.failure
  | succ fuel ih =>
    rw [tell, drive]
    cases machine.next with
    | more machine => exact ih machine
    | finished values heap => exact Told.erasure.pure _
    | raised e heap => exact Told.erasure.pure _
    | waits c =>
      cases there : functions[c.host]? with
      | none =>
        simp only [there]
        exact Told.erasure.pure _
      | some f =>
        simp only [there]
        apply Told.erasure.bind (Told.erasure.evaluate h (Told.erasure.drive h fuel) _ _ _)
        rintro ⟨ended, stack⟩
        dsimp only
        split
        · exact ih _
        · exact ih _

open scoped Classical in
/-- Runs the machine of an operation.  Where finalizers are called because a text is
pushed, the word is not said, since no script waits for them. -/
noncomputable def tellScripts (s : Surroundings Q (Program toldInterface))
    (fuel : Nat) (machine : Machine) :
    OptionT (Program toldInterface) Outcome :=
  if ∃ outer held heap, machine = .ofAction outer (Collector.collect held)
    heap then s.drive fuel machine
  else s.tell fuel machine

theorem erased_tellScripts {functions : List (HostFunction Q)}
    {answer : ByteArray → Q → OptionT (Program toldInterface) (Except String Parcel)}
    {answer' : ByteArray → Q → OptionT (Program platformInterface) (Except String Parcel)}
    (h : ∀ text q, Told.erasure.Rel (answer text q) (answer' text q))
    (fuel : Nat) (machine : Machine) :
    Told.erasure.Rel ((Surroundings.mk functions answer).tellScripts fuel machine)
      ((Surroundings.mk functions answer').drive fuel machine) := by
  unfold tellScripts
  split
  · exact Told.erasure.drive h fuel machine
  · exact erased_tell h fuel machine

end Surroundings

/-- Operations of the platform, in which the word is not said. -/
abbrev Silent (op : toldInterface.Op) : Prop := ToldOp.isRefused op = false

def Told.heard (said : Bool) (event : Event toldInterface) : Bool := said || event.1.isRefused

theorem Told.heard_silent {event : Event toldInterface} (h : Silent event.1) (said : Bool) :
    Told.heard said event = said := by
  rw [heard, h, Bool.or_false]

/-- The word has not been said at the end of a history in which nothing says it. -/
theorem Told.foldl_heard {history : List (Event toldInterface)} :
    history.foldl heard false = false ↔ NoRefusal history := by
  have heard_from : ∀ said, history.foldl heard said = false ↔
      said = false ∧ NoRefusal history := by
    induction history with
    | nil =>
      intro said
      exact ⟨fun h => ⟨h, nofun⟩, And.left⟩
    | cons event history ih =>
      intro said
      rw [List.foldl_cons, ih, heard, Bool.or_eq_false_iff, and_assoc, NoRefusal,
        NoRefusal, List.forall_mem_cons]
  exact (heard_from false).trans (and_iff_right rfl)

theorem Program.Only.unsaid {p : Program toldInterface α} (h : Only Silent p) (said : Bool) :
    Tracks Told.heard (fun _ => True) (fun _ now => now = said) p said := by
  induction h with
  | done a => exact .done trivial rfl
  | perform allowed rest ih =>
    refine .perform trivial fun x => ?_
    rw [Told.heard_silent allowed]
    exact ih x

theorem lifted_only (p : Platform α) : Only Silent (Told.lifted p) := by
  induction p with
  | done a => exact .done a
  | perform op k ih => exact .perform (I := toldInterface) rfl ih

namespace Surroundings

theorem doomed_resume {c : HostCall} (h : ∀ result heap, Doomed (c.resume result heap))
    (ended : Except EngineError Unit) (stack : Stack) : Doomed (resume c ended stack) := by
  cases ended with
  | ok u =>
    exact h (.ok (stack.heap.passAll stack.values.reverse).1)
      (stack.heap.passAll stack.values.reverse).2
  | error e =>
    exact h (.error (stack.heap.newFailure e.asFailure).1) (stack.heap.newFailure e.asFailure).2

/-- A failure that nothing catches sets a machine on its way to an error. -/
theorem doomed_of_uncaught {c : HostCall} (h : Uncaught c.frames)
    (e : EngineError) (stack : Stack) :
    Doomed (resume c (.error e) stack) := Doomed.raising h

variable {functions : List (HostFunction Q)}
  {answer : ByteArray → Q → OptionT (Program toldInterface) (Except String Parcel)}

theorem tell_doomed (fuel : Nat) {machine : Machine} (h : Doomed machine) (said : Bool) :
    Tracks Told.heard (fun _ => True) (Outcome.Ended fun _ => False)
      ((Surroundings.mk functions answer).tell fuel machine).run said := by
  induction fuel generalizing machine said with
  | zero => exact .done trivial fun _ _ => nofun
  | succ fuel ih =>
    have moves := h.next
    rw [tell]
    cases next : machine.next with
    | more machine =>
      rw [next] at moves
      exact ih moves said
    | finished values heap =>
      rw [next] at moves
      cases moves
    | raised e heap => exact .done trivial fun _ _ => nofun
    | waits c =>
      rw [next] at moves
      cases there : functions[c.host]? with
      | none =>
        simp only [there]
        exact .done trivial fun _ _ => nofun
      | some f =>
        simp only [there]
        apply Tracks.bindOption (tracks_any Told.heard _ said)
        · exact fun _ _ _ _ _ => nofun
        · rintro ⟨ended, stack⟩ said _ _
          have goesOn := doomed_resume moves ended stack
          dsimp only
          split
          · exact .perform trivial fun _ => ih goesOn _
          · exact ih goesOn said

/-- If the word has been said when a machine ends, there are no results. -/
theorem tell_tracks (h : ∀ text q, Only Silent (answer text q).run)
    (fuel : Nat) (machine : Machine) :
    Tracks Told.heard (fun _ => True) (Outcome.Ended (· = false))
      ((Surroundings.mk functions answer).tell fuel machine).run false := by
  have silent : ∀ text q, (Correspondence.only Silent).Rel (answer text q) failure := h
  induction fuel generalizing machine with
  | zero => exact .done trivial fun _ _ _ => rfl
  | succ fuel ih =>
    rw [tell]
    cases machine.next with
    | more machine => exact ih machine
    | finished values heap => exact .done trivial fun _ _ _ => rfl
    | raised e heap => exact .done trivial fun _ _ _ => rfl
    | waits c =>
      cases there : functions[c.host]? with
      | none =>
        simp only [there]
        exact .done trivial fun _ _ _ => rfl
      | some f =>
        simp only [there]
        have quiet : Only Silent (((Surroundings.mk functions answer).evaluate
            ((Surroundings.mk functions answer).drive fuel) c.depth f.body).run (frame f c)).run :=
          (Correspondence.only Silent).evaluate silent
            ((Correspondence.only Silent).drive silent fuel) _ _ _
        apply Tracks.bindOption (quiet.unsaid false)
        · exact fun _ _ _ _ _ => nofun
        · rintro ⟨ended, stack⟩ said _ rfl
          dsimp only
          split
          · next uncaught =>
            obtain ⟨⟨e, rfl⟩, uncaught⟩ := uncaught
            refine .perform trivial fun _ => ?_
            exact (tell_doomed fuel (doomed_of_uncaught uncaught e stack) _).mono
                fun _ _ none values heap ended =>
              (none values heap ended).elim
          · exact ih _

theorem watches_tellScripts (h : ∀ text q, Only Silent (answer text q).run) (fuel : Nat) :
    Watches Told.heard (· = false) ((Surroundings.mk functions answer).tellScripts fuel) := by
  have silent : ∀ text q, (Correspondence.only Silent).Rel (answer text q) failure := h
  have driven : ∀ machine,
      Only Silent ((Surroundings.mk functions answer).drive fuel machine).run :=
    (Correspondence.only Silent).drive silent fuel
  constructor
  · rintro machine _ rfl
    unfold tellScripts
    split
    · exact ((driven machine).unsaid false).mono fun _ _ unsaid _ _ _ => unsaid
    · exact tell_tracks h fuel machine
  · rintro outer held heap _ rfl
    rw [tellScripts, if_pos ⟨outer, held, heap, rfl⟩]
    exact (driven _).unsaid false

end Surroundings

theorem GatewayError.code_ofEngine_of_ofStack {e : EngineError} (h : e.OfStack) :
    (GatewayError.ofEngine e).code = Code.scriptFailed := by
  cases h <;> rfl

section Settled

variable {I : Interface} {ω : Type} {see : ω → Event I → ω} {good : ω → Prop} {w : ω}

/-- Work of an interpreter after which the observer finds `good`, or which fails
as a script does. -/
def SettledAs (good : ω → Prop) (ended : Option (Except GatewayError α)) (w : ω) : Prop :=
  ∀ result ∈ ended, (∃ a, result = .ok a ∧ good w) ∨ ∃ e, result = .error e ∧
    e.code = Code.scriptFailed

theorem settledAs_settled {x : OptionT (Program I) (Except EngineError α × Interpreter Q)}
    (h : Tracks see (fun _ => True) (Ended good) x.run w) :
    Tracks see (fun _ => True) (SettledAs good) (settled x).run.run w := by
  apply Tracks.bindOption h
  · exact fun _ _ _ => nofun
  · rintro ⟨result, i⟩ w _ known
    cases known _ rfl with
    | ok a now =>
      refine .done trivial fun result there => ?_
      cases there
      exact .inl ⟨_, rfl, now⟩
    | error h =>
      refine .done trivial fun result there => ?_
      cases there
      exact .inr ⟨_, rfl, GatewayError.code_ofEngine_of_ofStack h⟩

theorem settledAs_finished {print : ByteArray → OptionT (Program I) Unit} {fuel : Nat}
    {answer : ByteArray → Q → OptionT (Program I) (Except String Parcel)}
    {x : OptionT (Program I) (Except EngineError α × Interpreter Q)}
    (ends : ∀ (i : Interpreter Q) w, good w → Tracks see (fun _ => True) (fun _ => good)
      (i.finish fuel answer).run w)
    (prints : ∀ text w, good w → Tracks see (fun _ => True) (fun _ => good) (print text).run w)
    (h : Tracks see (fun _ => True) (Ended good) x.run w) :
    Tracks see (fun _ => True) (SettledAs good) (finished print fuel answer x).run.run w := by
  apply Tracks.bindOption h
  · exact fun _ _ _ => nofun
  · rintro ⟨result, i⟩ w _ known
    cases known _ rfl with
    | ok a now =>
      apply Tracks.bindOption (ends i w now)
      · exact fun _ _ _ => nofun
      · intro i w _ now
        apply Tracks.bindOption (prints _ w now)
        · exact fun _ _ _ => nofun
        · intro _ w _ now
          refine .done trivial fun result there => ?_
          cases there
          exact .inl ⟨_, rfl, now⟩
    | error h =>
      apply Tracks.bindOption (tracks_any see _ w)
      · exact fun _ _ _ => nofun
      · intro i w _ _
        apply Tracks.bindOption (tracks_any see _ w)
        · exact fun _ _ _ => nofun
        · intro _ w _ _
          refine .done trivial fun result there => ?_
          cases there
          exact .inr ⟨_, rfl, GatewayError.code_ofEngine_of_ofStack h⟩

/-- Work in two parts succeeds only if both parts do. -/
theorem settledAs_bind {β : Type} {x : ExceptT GatewayError (OptionT (Program I)) α}
    {f : α → ExceptT GatewayError (OptionT (Program I)) β}
    (first : Tracks see (fun _ => True) (SettledAs good) x.run.run w)
    (second : ∀ a w, good w → Tracks see (fun _ => True) (SettledAs good) (f a).run.run w) :
    Tracks see (fun _ => True) (SettledAs good) (x >>= f).run.run w := by
  apply Tracks.bindOption first
  · exact fun _ _ _ => nofun
  · intro result w _ settled
    rcases settled result rfl with ⟨a, rfl, known⟩ | ⟨e, rfl, code⟩
    · exact second a w known
    · refine .done trivial fun result there => ?_
      cases there
      exact .inr ⟨e, rfl, code⟩

/-- An interpreter that was admitted fails as a script does, whatever the answers to its calls. -/
theorem settledAs_interpreted (print : ByteArray → OptionT (Program I) Unit) (fuel : Nat)
    (answers : ByteArray → NestedCall → OptionT (Program I) (Except String Parcel))
    (script : ByteArray) (argument : Parcel) (circumstances : Circumstances) :
    Tracks see (fun _ => True) (SettledAs fun _ => True)
      (interpreted print fuel answers script argument circumstances).run.run w := by
  have anything : ∀ {β : Type} (p : Program I β) w,
      Tracks see (fun _ => True) (fun _ _ => True) p w :=
    fun p w => (tracks_any see p w).mono fun _ _ _ => trivial
  apply settledAs_bind
  · exact settledAs_settled (ended_bind _ _ (fun _ => watches_any) trivial)
  · intro bound w _
    exact settledAs_finished (fun _ _ _ => anything _ _) (fun _ _ _ => anything _ _)
      ((stops_execute script argument).ended_run (fun _ => watches_any) trivial)

end Settled

/-- Runs a program on the interpreter's stack, with the word. -/
noncomputable def Interpreter.tell (i : Interpreter Q) (fuel : Nat)
    (answer : ByteArray → Q → OptionT (Program toldInterface) (Except String Parcel))
    (p : Evaluation Q α) :
    OptionT (Program toldInterface) (Except EngineError α × Interpreter Q) := do
  let around : Surroundings Q (Program toldInterface) := ⟨i.functions, answer⟩
  let (result, stack) ← around.evaluate (around.tellScripts fuel) i.outermost p i.stack
  return (result, { i with stack := stack })

theorem Interpreter.tell_ended (i : Interpreter Q) (fuel : Nat)
    {answer : ByteArray → Q → OptionT (Program toldInterface) (Except String Parcel)}
    (silent : ∀ text q, Only Silent (answer text q).run)
    {p : Evaluation Q α} (stops : Stops p.run) :
    Tracks Told.heard (fun _ => True) (Ended (· = false)) (i.tell fuel answer p).run false :=
  ended_map (fun stack => { i with stack := stack })
    (stops.ended (Surroundings.watches_tellScripts silent fuel) i.outermost i.stack rfl)

namespace Gateway

/-- Answers to nested calls; the word is not said for them. -/
def Answers.lifted (answers : Answers) (printed : ByteArray) (call : NestedCall) :
    OptionT (Program toldInterface) (Except String Parcel) :=
  OptionT.mk (Told.lifted (answers printed call).run)

/-- `Gateway.runWith` with the word: it is said where the failure of a nested call is
not caught, unless it is the failure of a finalizer. -/
noncomputable def tellingRun (fuel : Nat) (answers : Answers) (script : ByteArray)
    (argument : Parcel) : ToldWork Parcel := do
  let circumstances ← ToldWork.ofWork (Work.ofPlatform .ofEngine Platform.admitInterpreter)
  let i := Interpreter.create circumstances
  let ((), i) ← settled (i.bind fuel (answers.lifted (bytes [])) hostCallName ⟨2, hostCall⟩)
  finished ToldWork.print fuel answers.lifted (i.tell fuel answers.lifted (execute script argument))

variable (fuel : Nat) (answers : Answers) (script : ByteArray) (argument : Parcel)

theorem erased_tellingRun :
    Told.erased (tellingRun fuel answers script argument).run.run =
      (runWith fuel answers script argument).run.run := by
  have h : ∀ printed call, Told.erasure.Rel (answers.lifted printed call) (answers printed call) :=
    fun printed call => Told.erased_lifted _
  have prints : ∀ text, Told.erasure.Rel (ToldWork.print text) (printing text) :=
    fun text => Told.erased_lifted _
  refine Told.erasure.bindExcept (Told.erased_lifted _) fun circumstances => ?_
  refine Told.erasure.bindExcept
    (Told.erasure.settled (Told.erasure.interpret (fun _ => h _) _ _ _)) fun bound => ?_
  refine Told.erasure.finished prints h ?_ fuel
  exact Told.erasure.bind (Told.erasure.evaluate h (Surroundings.erased_tellScripts h fuel) _ _ _)
    fun _ => Told.erasure.pure _

/-- An interpreter that was admitted says the word only if it fails, and it
fails as a script does. -/
theorem interpreted_tracks (circumstances : Circumstances) :
    Tracks Told.heard (fun _ => True) (SettledAs (· = false)) (do
      let i := Interpreter.create circumstances
      let ((), i) ← settled (i.bind fuel (answers.lifted (bytes [])) hostCallName ⟨2, hostCall⟩)
      finished ToldWork.print fuel answers.lifted
        (i.tell fuel answers.lifted (execute script argument)) :
        ToldWork Parcel).run.run false := by
  have silent : ∀ printed call, Only Silent (answers.lifted printed call).run :=
    fun printed call => lifted_only _
  have rel : ∀ printed call,
    (Correspondence.only Silent).Rel (answers.lifted printed call) failure := silent
  apply settledAs_bind
  · refine settledAs_settled (ended_bind hostCallName _ (fun functions => ?_) rfl)
    have quiet : ∀ machine,
        Only Silent
        ((Surroundings.mk functions fun _ => answers.lifted (bytes [])).drive fuel machine).run :=
      (Correspondence.only Silent).drive (fun _ => rel _) fuel
    constructor
    · rintro machine _ rfl
      exact ((quiet machine).unsaid false).mono fun _ _ unsaid _ _ _ => unsaid
    · rintro outer held heap _ rfl
      exact (quiet _).unsaid false
  · rintro ⟨_, i⟩ said rfl
    refine settledAs_finished (fun i w unsaid => ?_) (fun text w unsaid =>
      ?_) (i.tell_ended fuel silent (stops_execute script argument))
    · subst unsaid
      exact (i.finish_only silent fuel).unsaid false
    · subst unsaid
      exact (lifted_only _).unsaid false

/-- A run in which the word is said fails, if it ends, and fails as a script does. -/
theorem tellingRun_fails {history : List (Event toldInterface)} {ended : Except GatewayError Parcel}
    (performs : Performs (tellingRun fuel answers script argument).run.run
      history (.done (some ended)))
    (said : ¬Told.NoRefusal history) : ∃ e, ended = .error e ∧ e.code = Code.scriptFailed := by
  obtain ⟨admitted, first, second, rfl, admitting, performs⟩ := performs_bindOption.1 performs
  have unsaid := Told.foldl_heard.1 (((lifted_only _).unsaid false).at_end admitting)
  have later : ¬Told.NoRefusal second := fun none => said (Told.noRefusal_append.2 ⟨unsaid, none⟩)
  cases admitted with
  | error refusal =>
    obtain ⟨rfl, -⟩ := performs_done.1 performs
    exact absurd (fun _ => nofun) later
  | ok circumstances =>
    rcases (interpreted_tracks fuel answers script argument circumstances).at_end performs ended
      rfl with ⟨a, -, unsaid⟩ | failed
    · exact absurd (Told.foldl_heard.1 unsaid) later
    · exact failed

theorem called_of_hostCall (g : Gateway) (depth : Nat) {functions : List (HostFunction NestedCall)}
    {run : Machine → OptionT (Program platformInterface) Outcome} {outer : Depth} {s t : Stack}
    {history : List (Event platformInterface)}
    (performs : Performs
      (((Surroundings.mk functions (g.answersAt fuel depth)).evaluate run outer hostCall).run s).run
      history (.done (some (.ok (), t)))) :
    ∃ call result first called last, history = first ++ called ++ last ∧
      Performs (g.callAt fuel depth call).run.run called (.done (some (.ok result))) := by
  rw [hostCall_eq, Surroundings.evaluate_bind] at performs
  obtain ⟨⟨taken, u⟩, first, second, rfl, -, performs⟩ := performs_bindOption.1 performs
  cases taken with
  | error e =>
    obtain ⟨-, ended⟩ := performs_done.1 performs
    cases ended
  | ok call =>
    simp only [answerOf, Surroundings.evaluate_bind, Surroundings.evaluate_ask,
      bind_assoc, pure_bind] at performs
    obtain ⟨answer, answering, last, rfl, answers, performs⟩ := performs_bindOption.1 performs
    obtain ⟨-, printing, answering, rfl, -, answers⟩ := performs_bindOption.1 answers
    obtain ⟨result, called, nothing, rfl, calls, given⟩ := performs_bindOption.1 answers
    obtain ⟨rfl, same⟩ := performs_done.1 given
    cases same
    cases result with
    | ok parcel => exact ⟨call, parcel, first ++ printing, called, last, by simp, calls⟩
    | error e =>
      obtain ⟨-, ended⟩ := performs_done.1 performs
      cases ended

end Gateway
end SealedLua
