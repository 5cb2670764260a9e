import SealedLua.Platform.Host
import SealedLua.Proofs.Gateway.Nesting

/-!
# Raising the nesting limit

The limit shows only where a nested call is refused for it.  `told` is the run
of a script with a word put in at each such place, for an observer of what is
performed.  If the observer never hears the word, then the same operations with
the same answers lead a gateway with a higher limit to the same end.  This is
carried by a relation between programs that respects how work is put together,
so that what scripts do with their calls, caught errors included, need not be
looked at.
-/

namespace SealedLua

open Program (Performs Event performs_done performs_bind)

/-- The operations of a platform, and the word that a nested call is refused for the limit. -/
inductive ToldOp where
  | platform (op : PlatformOp)
  | refused

def ToldOp.Answer : ToldOp → Type
  | .platform op => op.Answer
  | .refused => Unit

def ToldOp.isRefused : ToldOp → Bool
  | .platform _ => false
  | .refused => true

abbrev toldInterface : Interface := ⟨ToldOp, ToldOp.Answer⟩

variable {α β : Type}

namespace Told

/-- A program without the word. -/
def erased (p : Program toldInterface α) : Platform α :=
  Program.run (I := toldInterface) (fun
    | .platform op => Program.ask (I := platformInterface) op
    | .refused => pure ()) p

/-- A platform that hears the word. -/
def answer {σ : Type} (answer : (op : PlatformOp) → StateM σ op.Answer) :
    (op : ToldOp) → StateM σ op.Answer
  | .platform op => answer op
  | .refused => pure ()

def lifted (p : Platform α) : Program toldInterface α :=
  Program.run (I := platformInterface) (fun op => Program.ask (I := toldInterface) (.platform op)) p

/-- The operations of the platform in a history. -/
def platformEvents (history : List (Event toldInterface)) : List (Event platformInterface) :=
  history.filterMap fun
    | ⟨.platform op, x⟩ => some ⟨op, x⟩
    | ⟨.refused, _⟩ => none

/-- Nothing is refused in a history. -/
abbrev NoRefusal (history : List (Event toldInterface)) : Prop :=
  ∀ e ∈ history, e.1.isRefused = false

theorem noRefusal_append {first second : List (Event toldInterface)} :
    NoRefusal (first ++ second) ↔ NoRefusal first ∧ NoRefusal second := by
  exact List.forall_mem_append

theorem platformEvents_append (first second : List (Event toldInterface)) :
    platformEvents (first ++ second) = platformEvents first ++ platformEvents second :=
  List.filterMap_append

theorem erased_lifted (p : Platform α) : erased (lifted p) = p := by
  induction p with
  | done a => rfl
  | perform op k ih => exact congrArg (Program.perform (I := platformInterface) op) (funext ih)

theorem performs_erased {p rest : Program toldInterface α} {history : List (Event toldInterface)}
    (h : Performs p history rest) : Performs (erased p) (platformEvents history) (erased rest) := by
  induction h with
  | start p => exact .start _
  | @step op k x history rest later ih =>
    cases op with
    | platform op => exact Performs.step (I := platformInterface) ih
    | refused => exact ih

/-- Leaving out the word, as a relation between programs. -/
def erasure : Correspondence (Program toldInterface) (Program platformInterface) where
  Rel p q := erased p.run = q.run
  pure _ := rfl
  failure := rfl
  bind := Program.run_bind_congr

/-- The first program comes to an end only with a refusal, or the second performs
the same and comes to the same end. -/
def ToldOrSame (p : Program toldInterface α) (q : Platform α) : Prop :=
  ∀ history ended, Performs p history (.done ended) → NoRefusal history →
    Performs q (platformEvents history) (.done ended)

theorem toldOrSame_done (a : α) : ToldOrSame (.done a) (.done a) := by
  intro history ended hperforms _
  obtain ⟨rfl, rfl⟩ := performs_done.1 hperforms
  exact .start _

theorem toldOrSame_lifted (p : Platform α) : ToldOrSame (lifted p) p := by
  intro history ended hperforms _
  have herased := performs_erased hperforms
  rw [erased_lifted] at herased
  exact herased

theorem toldOrSame_refused (k : Unit → Program toldInterface α) (q : Platform α) :
    ToldOrSame (.perform (I := toldInterface) ToldOp.refused k) q := by
  intro history ended hperforms hrefusal
  cases hperforms with
  | step later => cases hrefusal _ List.mem_cons_self

theorem ToldOrSame.bind {p : Program toldInterface α} {q : Platform α}
    {f : α → Program toldInterface β} {g : α → Platform β}
    (h : ToldOrSame p q) (hf : ∀ a, ToldOrSame (f a) (g a)) : ToldOrSame (p.bind f) (q.bind g) := by
  intro history ended hperforms hrefusal
  obtain ⟨a, first, second, rfl, hfirst, hsecond⟩ := performs_bind.1 hperforms
  obtain ⟨hnone, hnone'⟩ := noRefusal_append.1 hrefusal
  rw [platformEvents_append]
  exact performs_bind.2 ⟨a, _, _, rfl, h _ _ hfirst hnone, hf a _ _ hsecond hnone'⟩

def unlessTold : Correspondence (Program toldInterface) (Program platformInterface) where
  Rel p q := ToldOrSame p.run q.run
  pure a := toldOrSame_done (some a)
  failure := toldOrSame_done none
  bind {α β p q f g} hp hf := by
    refine ToldOrSame.bind hp fun a => ?_
    cases a with
    | none => exact toldOrSame_done none
    | some a => exact hf a

end Told

abbrev ToldWork (α : Type) : Type := ExceptT GatewayError (OptionT (Program toldInterface)) α

namespace ToldWork

def ofWork (x : Work α) : ToldWork α := ExceptT.mk (OptionT.mk (Told.lifted x.run.run))

def refuse (limit : Nat) : ToldWork Parcel :=
  ExceptT.mk do
    OptionT.lift (Program.ask (I := toldInterface) .refused)
    return .error (.recursionLimit limit)

def print (text : ByteArray) : OptionT (Program toldInterface) Unit :=
  OptionT.mk (Told.lifted (Gateway.printing text).run)

/-- An interpreter in which nested calls are answered with the word. -/
def runWith (fuel : Nat)
    (answers : ByteArray → NestedCall → OptionT (Program toldInterface) (Except String Parcel))
    (script : ByteArray) (argument : Parcel) : ToldWork Parcel := do
  let circumstances ← ofWork (Work.ofPlatform .ofEngine Platform.admitInterpreter)
  interpreted print fuel answers script argument circumstances

end ToldWork

namespace Gateway

open ToldWork (ofWork)

/-- `Gateway.run` with the word: it is said where no levels are left. -/
def told (g : Gateway) (fuel : Nat) : Nat → ByteArray → Parcel → ToldWork Parcel
  | 0, script, argument =>
    ToldWork.runWith fuel (fun printed _ =>
      reported (ToldWork.print printed) (ToldWork.refuse g.depthLimit)) script argument
  | levels + 1, script, argument =>
    ToldWork.runWith fuel (fun printed call => reported (ToldWork.print printed) do
      let body ← ofWork (g.loadScript call.name.toUTF8)
      g.told fuel levels body call.argument) script argument

def toldRequest (g : Gateway) (fuel : Nat) (x : RunSlots) (isSaved : Bool) : ToldWork Parcel := do
  let argument ← ofWork (Work.ofExcept (g.argument x))
  let script ← ofWork (g.requestedScript x isSaved)
  g.told fuel g.depthLimit script argument

/-- A command that runs a script, with the word. -/
def toldCommand (g : Gateway) (fuel : Nat) (x : RunSlots) (isSaved : Bool) :
    OptionT (Program toldInterface) (Except GatewayError Unit × Slots) := do
  return g.concluded x (← (g.toldRequest fuel x isSaved).run)

variable (c : Correspondence (Program toldInterface) (Program platformInterface))

/-- An interpreter corresponds to itself with the word, if the answers to its calls do. -/
theorem corresponds_runWith
    (hlifted : ∀ {α : Type} (p : Platform (Option α)),
      c.Rel (OptionT.mk (Told.lifted p)) (OptionT.mk p))
    (fuel : Nat)
    {answers : ByteArray → NestedCall → OptionT (Program toldInterface) (Except String Parcel)}
    {answers' : Answers} (h : ∀ printed call, c.Rel (answers printed call) (answers' printed call))
    (script : ByteArray) (argument : Parcel) :
    c.Rel (ToldWork.runWith fuel answers script argument).run
      (runWith fuel answers' script argument).run := by
  rw [runWith_eq]
  apply c.bindExcept
  · exact hlifted _
  · intro circumstances
    exact c.interpreted (fun text => hlifted (printing text).run) h fuel script argument
      circumstances

/-- A command corresponds to itself with the word, under any limit under which its runs do. -/
theorem corresponds_command
    (hlifted : ∀ {α : Type} (p : Platform (Option α)),
      c.Rel (OptionT.mk (Told.lifted p)) (OptionT.mk p))
    (g : Gateway) (limit fuel : Nat)
    (h : ∀ script argument, c.Rel (g.told fuel g.depthLimit script argument).run
      (run { g with depthLimit := limit } fuel limit script argument).run)
        (x : RunSlots) (isSaved : Bool) :
    c.Rel (g.toldCommand fuel x isSaved)
      (dispatch { g with depthLimit := limit } fuel (runOf x isSaved).command.id
        (runOf x isSaved).slots) := by
  have hrequest : c.Rel (g.toldRequest fuel x isSaved).run
      (runRequest { g with depthLimit := limit } fuel x isSaved).run := by
    rw [runRequest_eq]
    apply c.bindExcept
    · exact hlifted _
    · intro argument
      apply c.bindExcept
      · exact hlifted _
      · intro script
        exact h script argument
  rw [dispatch_request]
  cases isSaved with
  | false => exact c.bind hrequest fun ended => c.pure (g.concluded x ended)
  | true => exact c.bind hrequest fun ended => c.pure (g.concluded x ended)

theorem erased_told (g : Gateway) (fuel levels : Nat) (script : ByteArray) (argument : Parcel) :
    Told.erasure.Rel (g.told fuel levels script argument).run
      (g.run fuel levels script argument).run := by
  induction levels generalizing script argument with
  | zero =>
    apply corresponds_runWith Told.erasure Told.erased_lifted
    intro printed call
    exact Told.erasure.reported (Told.erased_lifted (printing printed).run) rfl
  | succ levels ih =>
    apply corresponds_runWith Told.erasure Told.erased_lifted
    intro printed call
    apply Told.erasure.reported (Told.erased_lifted (printing printed).run)
    apply Told.erasure.bindExcept
    · exact Told.erased_lifted _
    · intro body
      exact ih body call.argument

/-- With as many levels or more a run does the same, unless the word is said. -/
theorem unlessTold_told (g : Gateway) (limit fuel : Nat) {levels more : Nat}
    (h : levels ≤ more) (script : ByteArray) (argument : Parcel) :
    Told.unlessTold.Rel (g.told fuel levels script argument).run
      (run { g with depthLimit := limit } fuel more script argument).run := by
  induction levels generalizing more script argument with
  | zero =>
    have hrefused : ∀ printed work, Told.unlessTold.Rel
        (reported (ToldWork.print printed) (ToldWork.refuse g.depthLimit))
        (answered printed work) := by
      intro printed work
      refine Told.unlessTold.bind (Told.toldOrSame_lifted (printing printed).run) fun _ => ?_
      exact Told.toldOrSame_refused _ _
    cases more with
    | zero =>
      exact corresponds_runWith Told.unlessTold Told.toldOrSame_lifted fuel (fun printed _ =>
        hrefused printed _) script argument
    | succ more =>
      exact corresponds_runWith Told.unlessTold Told.toldOrSame_lifted fuel (fun printed _ =>
        hrefused printed _) script argument
  | succ levels ih =>
    obtain ⟨fewer, rfl⟩ : ∃ fewer, more = fewer + 1 := ⟨more - 1, by omega⟩
    apply corresponds_runWith Told.unlessTold Told.toldOrSame_lifted
    intro printed call
    apply Told.unlessTold.reported (Told.toldOrSame_lifted (printing printed).run)
    apply Told.unlessTold.bindExcept
    · exact Told.toldOrSame_lifted _
    · intro body
      exact ih (by omega) body call.argument

/-- A higher limit changes nothing of what stays within the limit.  A command that
runs a script is its told form without the word.  If the told form comes to an
end without the word, then the command comes to that end with the operations that
were performed and the answers to them, both under the limit and under any that
is higher: the same result or failure, the same reads of whatever storage, and
the same interpreters. -/
theorem higher_limit_changes_nothing (g : Gateway) (fuel : Nat) (x : RunSlots)
    (isSaved : Bool) {limit : Nat} (h : g.depthLimit ≤ limit) :
    Told.erased (g.toldCommand fuel x isSaved).run =
        (g.dispatch fuel (runOf x isSaved).command.id (runOf x isSaved).slots).run ∧
      ∀ history ended, Performs (g.toldCommand fuel x isSaved).run history (.done ended) →
        Told.NoRefusal history →
        Performs (g.dispatch fuel (runOf x isSaved).command.id (runOf x isSaved).slots).run
            (Told.platformEvents history) (.done ended) ∧
          Performs (dispatch { g with depthLimit := limit } fuel (runOf x isSaved).command.id
            (runOf x isSaved).slots).run
            (Told.platformEvents history) (.done ended) := by
  have herased : Told.erased (g.toldCommand fuel x isSaved).run =
      (g.dispatch fuel (runOf x isSaved).command.id (runOf x isSaved).slots).run :=
    corresponds_command Told.erasure Told.erased_lifted g g.depthLimit fuel
      (fun script argument => g.erased_told fuel g.depthLimit script argument) x isSaved
  refine ⟨herased, ?_⟩
  intro history ended hperforms hrefusal
  constructor
  · rw [← herased]
    exact Told.performs_erased hperforms
  · have hsame : Told.unlessTold.Rel (g.toldCommand fuel x isSaved)
        (dispatch { g with depthLimit := limit } fuel (runOf x isSaved).command.id
          (runOf x isSaved).slots) :=
      corresponds_command Told.unlessTold Told.toldOrSame_lifted g limit fuel
        (fun script argument => g.unlessTold_told limit fuel h script argument) x isSaved
    exact hsame history ended hperforms hrefusal

/-- A saved script is read, and a host that admits no interpreter ends its run;
under the limit 2 as under the limit 1. -/
theorem run_without_interpreter_under_limits :
    let g : Gateway := { secret := ⟨bytes (List.replicate 32 0), size_bytes _⟩, depthLimit := 1 }
    let host : Host := {
      process := { root := none, memory := ⟨[(Scripts.recordId "f", bytes (ascii "return 1"))]⟩ }
      interpreterLimit := some 0 }
    let x : RunSlots := ⟨bytes (ascii "f"), ⟨0, 0⟩, ⟨0, 0⟩, bytes []⟩
    let history := Program.performed (I := toldInterface) (Told.answer Host.answer)
      (g.toldCommand 9 x true).run host
    g.depthLimit ≤ 2 ∧ history.length = 2 ∧ ∃ ended,
      Performs
        (dispatch { g with depthLimit := 2 } 9 (runOf x true).command.id (runOf x true).slots).run
        (Told.platformEvents history) (.done ended) := by
  intro g host x history
  have hlimit : g.depthLimit ≤ 2 := by decide
  have hperforms := Program.performs_performed (I := toldInterface) (Told.answer Host.answer)
    (g.toldCommand 9 x true).run host
  have hrefusal : Told.NoRefusal history := by decide +kernel
  have hlength : history.length = 2 := by decide +kernel
  exact ⟨hlimit, hlength, _,
    ((g.higher_limit_changes_nothing 9 x true hlimit).2 history _ hperforms hrefusal).2⟩

end Gateway
end SealedLua
