import SealedLua.Proofs.Engine.Evaluations
import SealedLua.Proofs.Gateway.Reads
import SealedLua.Proofs.Gateway.Requests

/-!
# Nested runs

How deep runs nest is seen from outside by an observer who is told the depth of
each interpreter that is made, and when its execution has returned.  `watched`
is the run of a script with these words put in: every interpreter is asked for
with its depth, and another operation, which does nothing, says that it has
returned.  Without the words it is the run itself (`erased_watched`), so what
the observer sees at any moment is what there is.
-/

namespace SealedLua

open Program (Only Tracks Performs Event)

/-- The operations of a platform with words about interpreters. -/
inductive WatchedOp where
  | storage (op : StorageOp)
  | drawSerial
  /-- Leave is asked for an interpreter at a depth. -/
  | admitInterpreter (depth : Nat)
  /-- The execution of the interpreter at a depth has returned. -/
  | returned (depth : Nat)
  | print (text : ByteArray)

def WatchedOp.Answer : WatchedOp → Type
  | .storage op => op.Answer
  | .drawSerial => UInt64
  | .admitInterpreter _ => Except EngineError Lua.Circumstances
  | .returned _ | .print _ => Unit

abbrev watchedInterface : Interface := ⟨WatchedOp, WatchedOp.Answer⟩

variable {α β : Type}

namespace Watched

/-- A program without the words. -/
def erased (p : Program watchedInterface α) : Platform α :=
  Program.run (I := watchedInterface) (fun
    | .storage op => Platform.storage op
    | .drawSerial => Platform.drawSerial
    | .admitInterpreter _ => Platform.admitInterpreter
    | .returned _ => pure ()
    | .print text => Program.ask (I := platformInterface) (.print text)) p

/-- A program of which all interpreters are at one depth. -/
def labelled (depth : Nat) (p : Platform α) : Program watchedInterface α :=
  Program.run (I := platformInterface) (fun
    | .storage op => Program.ask (I := watchedInterface) (.storage op)
    | .drawSerial => Program.ask (I := watchedInterface) .drawSerial
    | .admitInterpreter => Program.ask (I := watchedInterface) (.admitInterpreter depth)
    | .print text => Program.ask (I := watchedInterface) (.print text)) p

theorem erased_labelled (depth : Nat) (p : Platform α) : erased (labelled depth p) = p := by
  induction p with
  | done a => rfl
  | perform op k ih =>
    cases op with
    | storage op =>
      exact congrArg (Program.perform (I := platformInterface) (PlatformOp.storage op)) (funext ih)
    | drawSerial =>
      exact congrArg (Program.perform (I := platformInterface) PlatformOp.drawSerial) (funext ih)
    | admitInterpreter =>
      exact congrArg
        (Program.perform (I := platformInterface) PlatformOp.admitInterpreter) (funext ih)
    | print text =>
      exact congrArg (Program.perform (I := platformInterface) (PlatformOp.print text)) (funext ih)

/-- Leaving out the words, as a relation between programs. -/
def erasure : Correspondence (Program watchedInterface) (Program platformInterface) where
  Rel p q := erased p.run = q.run
  pure _ := rfl
  failure := rfl
  bind := Program.run_bind_congr

end Watched

section Anywhere

variable {m n : Type → Type} [Monad m] [Monad n] {Q : Type}

/-- Work of an interpreter, of which only the result is kept. -/
def settled (x : OptionT m (Except EngineError α × Interpreter Q)) :
    ExceptT GatewayError (OptionT m) (α × Interpreter Q) :=
  ExceptT.mk do
    match ← x with
    | (.ok a, i) => return .ok (a, i)
    | (.error e, _) => return .error (.ofEngine e)

/-- The last work of an interpreter, and its end. -/
def finished (print : ByteArray → OptionT m Unit) (fuel : Nat)
    (answer : ByteArray → Q → OptionT m (Except String Parcel))
    (x : OptionT m (Except EngineError α × Interpreter Q)) : ExceptT GatewayError (OptionT m) α :=
  ExceptT.mk do
    let (result, i) ← x
    let i ← i.finish fuel answer
    print i.stack.heap.output
    return result.mapError .ofEngine

/-- What an interpreter does, once it may be made, until its execution returns. -/
def interpreted (print : ByteArray → OptionT m Unit) (fuel : Nat)
    (answers : ByteArray → NestedCall → OptionT m (Except String Parcel))
    (script : ByteArray) (argument : Parcel)
    (circumstances : Lua.Circumstances) : ExceptT GatewayError (OptionT m) Parcel := do
  let i := Interpreter.create circumstances
  let ((), i) ←
    settled (i.bind fuel (answers (bytes [])) Gateway.hostCallName ⟨2, Gateway.hostCall⟩)
  finished print fuel answers (i.evaluate fuel answers (execute script argument))

/-- The words of a failure as an answer to a nested call, after printing. -/
def reported (printing : OptionT m Unit) (x : ExceptT GatewayError (OptionT m) Parcel) :
    OptionT m (Except String Parcel) := do
  printing
  return (← x.run).mapError GatewayError.message

namespace Correspondence

variable (c : Correspondence m n)

theorem bindExcept {ε : Type} {x : ExceptT ε (OptionT m) α} {y : ExceptT ε (OptionT n) α}
    {f : α → ExceptT ε (OptionT m) β} {g : α → ExceptT ε (OptionT n) β} (hx : c.Rel x.run y.run)
    (hf : ∀ a, c.Rel (f a).run (g a).run) : c.Rel (x >>= f).run (y >>= g).run := by
  refine c.bind hx fun a => ?_
  cases a with
  | error e => exact c.pure _
  | ok a => exact hf a

theorem settled {x : OptionT m (Except EngineError α × Interpreter Q)}
    {y : OptionT n (Except EngineError α × Interpreter Q)} (h : c.Rel x y) :
    c.Rel (SealedLua.settled x).run (SealedLua.settled y).run := by
  refine c.bind h fun ended => ?_
  obtain ⟨result, i⟩ := ended
  cases result with
  | error e => exact c.pure _
  | ok a => exact c.pure _

variable {print : ByteArray → OptionT m Unit} {print' : ByteArray → OptionT n Unit}
  (hprint : ∀ text, c.Rel (print text) (print' text))

include hprint

theorem finished {answer : ByteArray → Q → OptionT m (Except String Parcel)}
    {answer' : ByteArray → Q → OptionT n (Except String Parcel)}
    (h : ∀ text q, c.Rel (answer text q) (answer' text q))
    {x : OptionT m (Except EngineError α × Interpreter Q)}
    {y : OptionT n (Except EngineError α × Interpreter Q)} (hx : c.Rel x y) (fuel : Nat) :
    c.Rel (SealedLua.finished print fuel answer x).run
      (SealedLua.finished print' fuel answer' y).run := by
  refine c.bind hx fun ended => ?_
  obtain ⟨result, i⟩ := ended
  exact c.bind (c.finish h i fuel) fun i => c.bind (hprint _) fun _ => c.pure _

/-- The interpreters of a run correspond if the answers to nested calls do. -/
theorem interpreted {answers : ByteArray → NestedCall → OptionT m (Except String Parcel)}
    {answers' : ByteArray → NestedCall → OptionT n (Except String Parcel)}
    (h : ∀ text call, c.Rel (answers text call) (answers' text call)) (fuel : Nat)
    (script : ByteArray) (argument : Parcel) (circumstances : Lua.Circumstances) :
    c.Rel (SealedLua.interpreted print fuel answers script argument circumstances).run
      (SealedLua.interpreted print' fuel answers' script argument circumstances).run := by
  refine c.bindExcept (c.settled (c.interpret (fun _ => h (bytes [])) _ _ _)) fun bound => ?_
  exact c.finished hprint h (c.interpret h _ _ _) fuel

omit hprint in
theorem reported {printing : OptionT m Unit} {printing' : OptionT n Unit}
    (hprinting : c.Rel printing printing')
    {x : ExceptT GatewayError (OptionT m) Parcel} {y : ExceptT GatewayError (OptionT n) Parcel}
    (h : c.Rel x.run y.run) :
    c.Rel (SealedLua.reported printing x) (SealedLua.reported printing' y) :=
  c.bind hprinting fun _ => c.bind h fun _ => c.pure _

end Correspondence
end Anywhere

/-- Work of a gateway with the words. -/
abbrev WatchedWork (α : Type) : Type := ExceptT GatewayError (OptionT (Program watchedInterface)) α

namespace WatchedWork

def ofWork (depth : Nat) (x : Work α) : WatchedWork α :=
  ExceptT.mk (OptionT.mk (Watched.labelled depth x.run.run))

/-- Says that the execution at a depth has returned. -/
def returned (depth : Nat) : OptionT (Program watchedInterface) Unit :=
  OptionT.lift (Program.ask (I := watchedInterface) (.returned depth))

def print (text : ByteArray) : OptionT (Program watchedInterface) Unit :=
  OptionT.mk (Watched.labelled 0 (Gateway.printing text).run)

/-- An interpreter at a depth, from leave to make it to its return. -/
def runWith (fuel depth : Nat)
    (answers : ByteArray → NestedCall → OptionT (Program watchedInterface) (Except String Parcel))
    (script : ByteArray) (argument : Parcel) : WatchedWork Parcel := do
  let circumstances ← ofWork depth (Work.ofPlatform .ofEngine Platform.admitInterpreter)
  ExceptT.mk do
    let ended ← (interpreted print fuel answers script argument circumstances).run
    returned depth
    return ended

end WatchedWork

namespace Gateway

open WatchedWork (ofWork)

/-- `Gateway.run` with the words: where so many levels are left, the depth is the
limit less these. -/
def watched (g : Gateway) (fuel : Nat) : Nat → ByteArray → Parcel → WatchedWork Parcel
  | 0, script, argument =>
    WatchedWork.runWith fuel g.depthLimit
      (fun printed _ => reported (WatchedWork.print printed) (throw (.recursionLimit g.depthLimit)))
      script argument
  | levels + 1, script, argument =>
    WatchedWork.runWith fuel (g.depthLimit - (levels + 1)) (fun printed call =>
        reported (WatchedWork.print printed) do
      let body ← ofWork g.depthLimit (g.loadScript call.name.toUTF8)
      g.watched fuel levels body call.argument) script argument

/-- A run asks whether its interpreter may be made, and then does what that interpreter does. -/
theorem runWith_eq (fuel : Nat) (answers : Answers) (script : ByteArray) (argument : Parcel) :
    runWith fuel answers script argument = (do
      let circumstances ← Work.ofPlatform .ofEngine Platform.admitInterpreter
      interpreted printing fuel answers script argument circumstances) := rfl

theorem erased_print (text : ByteArray) :
    Watched.erasure.Rel (WatchedWork.print text) (printing text) :=
  Watched.erased_labelled 0 (printing text).run

theorem erased_runWith (fuel depth : Nat)
    {answers : ByteArray → NestedCall → OptionT (Program watchedInterface) (Except String Parcel)}
    {answers' : Answers}
    (h : ∀ text call, Watched.erasure.Rel (answers text call) (answers' text call))
    (script : ByteArray) (argument : Parcel) :
    Watched.erasure.Rel (WatchedWork.runWith fuel depth answers script argument).run
      (runWith fuel answers' script argument).run := by
  have hadmit : Watched.erasure.Rel
      (ofWork depth (Work.ofPlatform .ofEngine Platform.admitInterpreter)).run
      (Work.ofPlatform .ofEngine Platform.admitInterpreter).run := Watched.erased_labelled _ _
  have hend : ∀ ended : Except GatewayError Parcel, Watched.erasure.Rel (do
      WatchedWork.returned depth
      return ended) (pure ended) := fun _ => rfl
  have hplain : ∀ circumstances, interpreted printing fuel answers' script argument circumstances =
      ExceptT.mk
        ((interpreted printing fuel answers' script argument circumstances).run >>= pure) := by
    intro circumstances
    rw [bind_pure]
    rfl
  rw [runWith_eq]
  refine Watched.erasure.bindExcept hadmit fun circumstances => ?_
  rw [hplain]
  exact Watched.erasure.bind
    (Watched.erasure.interpreted erased_print h fuel script argument circumstances) hend

theorem erased_watched (g : Gateway) (fuel levels : Nat) (script : ByteArray) (argument : Parcel) :
    Watched.erasure.Rel (g.watched fuel levels script argument).run
      (g.run fuel levels script argument).run := by
  induction levels generalizing script argument with
  | zero =>
    exact erased_runWith fuel _ (fun text call => Watched.erasure.reported (erased_print text) rfl)
      script argument
  | succ levels ih =>
    refine erased_runWith fuel _ (fun text call => ?_) script argument
    refine Watched.erasure.reported (erased_print text) (Watched.erasure.bindExcept ?_ fun body =>
      ih body call.argument)
    exact Watched.erased_labelled _ _

def requestedScript (g : Gateway) (x : RunSlots) (isSaved : Bool) : Work ByteArray :=
  if isSaved then g.loadScript x.script else Work.ofExcept (g.unsealed (x.mode.a != 0) x.script)

theorem runRequest_eq (g : Gateway) (fuel : Nat) (x : RunSlots) (isSaved : Bool) :
    g.runRequest fuel x isSaved = (do
      let argument ← Work.ofExcept (g.argument x)
      let script ← g.requestedScript x isSaved
      g.run fuel g.depthLimit script argument) := by
  cases isSaved <;> rfl

def watchedRequest (g : Gateway) (fuel : Nat) (x : RunSlots) (isSaved : Bool) :
    WatchedWork Parcel := do
  let argument ← ofWork 0 (Work.ofExcept (g.argument x))
  let script ← ofWork 0 (g.requestedScript x isSaved)
  g.watched fuel g.depthLimit script argument

/-- A command that runs a script, with the words. -/
def watchedCommand (g : Gateway) (fuel : Nat) (x : RunSlots) (isSaved : Bool) :
    OptionT (Program watchedInterface) (Except GatewayError Unit × Slots) := do
  return g.concluded x (← (g.watchedRequest fuel x isSaved).run)

theorem erased_watchedCommand (g : Gateway) (fuel : Nat) (x : RunSlots) (isSaved : Bool) :
    Watched.erased (g.watchedCommand fuel x isSaved).run =
      (g.dispatch fuel (runOf x isSaved).command.id (runOf x isSaved).slots).run := by
  have hrequest : Watched.erasure.Rel (g.watchedRequest fuel x isSaved).run
      (g.runRequest fuel x isSaved).run := by
    rw [runRequest_eq]
    refine Watched.erasure.bindExcept (Watched.erased_labelled _ _) fun argument => ?_
    refine Watched.erasure.bindExcept (Watched.erased_labelled _ _) fun script => ?_
    exact g.erased_watched fuel g.depthLimit script argument
  rw [g.dispatch_request, g.carryOut_runOf]
  have hcommand := Watched.erasure.bind hrequest fun ended =>
    Watched.erasure.pure (g.concluded x ended)
  exact hcommand.trans (Program.map_run _ (g.concluded x))

end Gateway

/-- The depths of the interpreters whose execution has not returned, the last
one that was made first. -/
def openDepths : List Nat → Event watchedInterface → List Nat
  | depths, ⟨.admitInterpreter depth, .ok _⟩ => depth :: depths
  | depths, ⟨.returned depth, ()⟩ => depths.erase depth
  | depths, _ => depths

def descending (k : Nat) : List Nat := (List.range k).reverse

theorem descending_succ (k : Nat) : descending (k + 1) = k :: descending k := by
  simp [descending, List.range_succ]

/-- The depths go down to zero without a gap, and none is beyond the limit. -/
def Gapless (limit : Nat) (depths : List Nat) : Prop := ∃ k ≤ limit + 1, depths = descending k

/-- The same depths are open at the end as at the start, if there is an end. -/
def Back (depths : List Nat) (result : Option α) (now : List Nat) : Prop :=
  result.isSome → now = depths

/-- Keeping the depths, as a relation that does not look at its second part. -/
def Correspondence.back {limit : Nat} {depths : List Nat} (h : Gapless limit depths) :
    Correspondence (Program watchedInterface) Id where
  Rel p _ := Tracks openDepths (Gapless limit) (Back depths) p.run depths
  pure _ := .done h fun _ => rfl
  failure := .done h fun _ => rfl
  bind {α β p q f g} hp hf := by
    refine Tracks.bindOption hp (fun _ _ _ => nofun) fun a now _ hback => ?_
    obtain rfl : now = depths := hback rfl
    exact hf a

theorem tracks_labelled {limit depth : Nat} {depths : List Nat} (h : Gapless limit depths)
    {p : Platform (Option α)}
    (hp : Only (I := platformInterface) (fun op => op ≠ PlatformOp.admitInterpreter) p) :
    Tracks openDepths (Gapless limit) (Back depths) (Watched.labelled depth p) depths := by
  induction hp with
  | done a => exact .done h fun _ => rfl
  | @perform op k allowed rest ih =>
    cases op with
    | storage op => exact .perform h fun x => ih x
    | drawSerial => exact .perform h fun x => ih x
    | print text => exact .perform h fun x => ih x
    | admitInterpreter => exact absurd rfl allowed

theorem tracks_print {limit : Nat} {depths : List Nat} (h : Gapless limit depths)
    (text : ByteArray) :
    Tracks openDepths (Gapless limit) (Back depths) (WatchedWork.print text).run depths :=
  tracks_labelled h (Gateway.printing_only (fun _ => nofun) text)

/-- When the deepest interpreter returns, the depths around it are left. -/
theorem tracks_returned {limit depth : Nat} (hdepth : depth ≤ limit) (ended : α) :
    Tracks openDepths (Gapless limit) (Back (descending depth)) (do
      WatchedWork.returned depth
      return ended : OptionT (Program watchedInterface) α).run (descending (depth + 1)) := by
  have hafter : Tracks openDepths (Gapless limit) (Back (descending depth))
      (.done (some ended) : Program watchedInterface (Option α))
      (openDepths (descending (depth + 1)) ⟨.returned depth, ()⟩) := by
    rw [descending_succ, openDepths, List.erase_cons_head]
    exact .done ⟨depth, by omega, rfl⟩ fun _ => rfl
  exact .perform ⟨depth + 1, by omega, rfl⟩ fun _ => hafter

/-- An interpreter keeps the depths around it, if the answers to its calls keep
them with its own. -/
theorem tracks_runWith {limit depth : Nat} (hdepth : depth ≤ limit)
    {answers : ByteArray → NestedCall → OptionT (Program watchedInterface) (Except String Parcel)}
    (hanswers : ∀ text call, Tracks openDepths (Gapless limit) (Back (descending (depth + 1)))
      (answers text call).run
      (descending (depth + 1)))
    (fuel : Nat) (script : ByteArray) (argument : Parcel) :
    Tracks openDepths (Gapless limit) (Back (descending depth))
      (WatchedWork.runWith fuel depth answers script argument).run.run (descending depth) := by
  have houtside : Gapless limit (descending depth) := ⟨depth, by omega, rfl⟩
  have hinside : Gapless limit (descending (depth + 1)) := ⟨depth + 1, by omega, rfl⟩
  refine .perform houtside fun admitted => ?_
  cases admitted with
  | error e => exact .done houtside fun _ => rfl
  | ok circumstances =>
    have hanswers : ∀ text call, (Correspondence.back hinside).Rel (answers text call) failure :=
      hanswers
    have hprint : ∀ text, (Correspondence.back hinside).Rel (WatchedWork.print text) failure :=
      tracks_print hinside
    have hrun : Tracks openDepths (Gapless limit) (Back (descending (depth + 1)))
        (interpreted WatchedWork.print fuel answers script argument circumstances).run.run
        (descending (depth + 1)) :=
      (Correspondence.back hinside).interpreted hprint hanswers fuel script argument circumstances
    have hrest : Tracks openDepths (Gapless limit) (Back (descending depth)) (do
        let ended ← (interpreted WatchedWork.print fuel answers script argument circumstances).run
        WatchedWork.returned depth
        return ended : OptionT (Program watchedInterface) (Except GatewayError Parcel)).run
          (descending (depth + 1)) := by
      refine Tracks.bindOption hrun (fun _ _ _ => nofun) fun ended now hnow hback => ?_
      obtain rfl : now = descending (depth + 1) := hback rfl
      exact tracks_returned hdepth ended
    rw [descending_succ] at hrest
    exact hrest

/-- The depths of a watched run go from zero to the limit at most, by induction
on the levels that are left. -/
theorem Gateway.tracks_watched (g : Gateway) (fuel levels : Nat) (hlevels : levels ≤ g.depthLimit)
    (script : ByteArray) (argument : Parcel) :
    Tracks openDepths (Gapless g.depthLimit) (Back (descending (g.depthLimit - levels)))
      (g.watched fuel levels script argument).run.run (descending (g.depthLimit - levels)) := by
  induction levels generalizing script argument with
  | zero =>
    refine tracks_runWith (Nat.le_refl _) (fun text call => ?_) fuel script argument
    have hgapless : Gapless g.depthLimit (descending (g.depthLimit + 1)) := ⟨_, Nat.le_refl _, rfl⟩
    let back := Correspondence.back hgapless
    have hprint : back.Rel (WatchedWork.print text) failure := tracks_print hgapless text
    exact back.reported hprint (back.pure _)
  | succ levels ih =>
    refine tracks_runWith (Nat.sub_le _ _) (fun text call => ?_) fuel script argument
    have hinner : g.depthLimit - (levels + 1) + 1 = g.depthLimit - levels := by omega
    have hgapless : Gapless g.depthLimit (descending (g.depthLimit - levels)) := ⟨_, by omega, rfl⟩
    rw [hinner]
    let back := Correspondence.back hgapless
    have hload :
        back.Rel (WatchedWork.ofWork g.depthLimit (g.loadScript call.name.toUTF8)).run failure :=
      tracks_labelled hgapless (loadScript_only (fun _ => nofun) g _)
    have hrun : ∀ body, back.Rel (g.watched fuel levels body call.argument).run failure :=
      fun body => ih (by omega) body call.argument
    have hprint : back.Rel (WatchedWork.print text) failure := tracks_print hgapless text
    exact back.reported hprint (back.bindExcept hload hrun)

namespace Gateway

theorem requestedScript_only (g : Gateway) (x : RunSlots) (isSaved : Bool) :
    Only (I := platformInterface) (fun op => op ≠ PlatformOp.admitInterpreter)
      (g.requestedScript x isSaved).run.run := by
  cases isSaved with
  | false => exact .done _
  | true => exact loadScript_only (fun _ => nofun) g _

/-- The depths of a watched command start from none and go up to the limit at most. -/
theorem tracks_watchedCommand (g : Gateway) (fuel : Nat) (x : RunSlots) (isSaved : Bool) :
    Tracks openDepths (Gapless g.depthLimit) (Back [])
      (g.watchedCommand fuel x isSaved).run [] := by
  have hnone : Gapless g.depthLimit [] := ⟨0, Nat.zero_le _, rfl⟩
  let back := Correspondence.back hnone
  have hargument : back.Rel (WatchedWork.ofWork 0 (Work.ofExcept (g.argument x))).run failure :=
    tracks_labelled hnone (.done _)
  have hscript : back.Rel (WatchedWork.ofWork 0 (g.requestedScript x isSaved)).run failure :=
    tracks_labelled hnone (g.requestedScript_only x isSaved)
  have hrun : ∀ script argument,
      back.Rel (g.watched fuel g.depthLimit script argument).run failure := by
    intro script argument
    have htracks := g.tracks_watched fuel g.depthLimit (Nat.le_refl _) script argument
    rw [Nat.sub_self] at htracks
    exact htracks
  have hrequest : back.Rel (g.watchedRequest fuel x isSaved).run _ :=
    back.bindExcept hargument fun argument => back.bindExcept hscript fun script =>
      hrun script argument
  exact back.bind hrequest fun ended => back.pure (g.concluded x ended)

/-- The work for a nested call of a script at a depth. -/
def callAt (g : Gateway) (fuel depth : Nat) (call : NestedCall) : Work Parcel :=
  if depth < g.depthLimit then do
    let body ← g.loadScript call.name.toUTF8
    g.run fuel (g.depthLimit - depth - 1) body call.argument
  else throw (.recursionLimit g.depthLimit)

theorem callAt_limit (g : Gateway) (fuel : Nat) {depth : Nat} (h : g.depthLimit ≤ depth)
    (call : NestedCall) :
    g.callAt fuel depth call = throw (.recursionLimit g.depthLimit) :=
  if_neg (Nat.not_lt.2 h)

theorem callAt_below (g : Gateway) (fuel : Nat) {depth : Nat} (h : depth < g.depthLimit)
    (call : NestedCall) :
    g.callAt fuel depth call = (do
      let body ← g.loadScript call.name.toUTF8
      g.run fuel (g.depthLimit - depth - 1) body call.argument) :=
  if_pos h

/-- The answers to the calls of a script that runs at a depth. -/
def answersAt (g : Gateway) (fuel depth : Nat) : Answers := fun printed call =>
  answered printed (g.callAt fuel depth call)

theorem run_eq_runWith (g : Gateway) (fuel : Nat) {depth : Nat} (h : depth ≤ g.depthLimit)
    (script : ByteArray) (argument : Parcel) :
    g.run fuel (g.depthLimit - depth) script argument =
      runWith fuel (g.answersAt fuel depth) script argument := by
  cases left : g.depthLimit - depth with
  | zero =>
    have refused : g.answersAt fuel depth = fun printed _ => answered printed
        (throw (.recursionLimit g.depthLimit)) :=
      funext fun printed => funext fun call =>
        congrArg (answered printed) (g.callAt_limit fuel (by omega) call)
    rw [refused, run]
  | succ levels =>
    have carried_out : g.answersAt fuel depth = (fun printed call => answered printed do
        let body ← g.loadScript call.name.toUTF8
        g.run fuel levels body call.argument) := by
      funext printed call
      have fewer : g.depthLimit - depth - 1 = levels := by omega
      rw [answersAt, g.callAt_below fuel (by omega) call, fewer]
    rw [carried_out, run]

/-- The interpreter that is seen at a depth has its calls answered by the work for that depth. -/
theorem watched_eq_callAt (g : Gateway) (fuel : Nat) {depth : Nat} (hdepth : depth ≤ g.depthLimit) :
    ∃ answers : ByteArray → NestedCall → OptionT (Program watchedInterface) (Except String Parcel),
      (∀ script argument, g.watched fuel (g.depthLimit - depth) script argument =
        WatchedWork.runWith fuel depth answers script argument) ∧
      ∀ printed call, Watched.erased (answers printed call).run =
        (g.answersAt fuel depth printed call).run := by
  cases hlevels : g.depthLimit - depth with
  | zero =>
    obtain rfl : depth = g.depthLimit := by omega
    refine ⟨_, fun _ _ => rfl, fun printed call => ?_⟩
    rw [answersAt, g.callAt_limit fuel (Nat.le_refl _) call]
    exact Watched.erasure.reported (erased_print printed) rfl
  | succ levels =>
    obtain rfl : depth = g.depthLimit - (levels + 1) := by omega
    refine ⟨_, fun _ _ => rfl, fun printed call => ?_⟩
    have hleft : g.depthLimit - (g.depthLimit - (levels + 1)) - 1 = levels := by omega
    rw [answersAt, g.callAt_below fuel (by omega) call, hleft]
    refine Watched.erasure.reported (erased_print printed)
      (Watched.erasure.bindExcept ?_ fun body => ?_)
    · exact Watched.erased_labelled _ _
    · exact g.erased_watched fuel levels body call.argument

/-- What a nested call takes from the stack: its argument and its name. -/
def marshalled : Evaluation NestedCall NestedCall := do
  let argument ← encode
  let name ← Evaluation.op .popText
  return ⟨name, argument⟩

def answerOf (call : NestedCall) : Evaluation NestedCall Unit := do
  match ← Evaluation.ask call with
  | .ok result => decode result
  | .error reason => throw (.hostCall hostCallName reason)

theorem hostCall_eq : hostCall = marshalled >>= answerOf := by
  simp only [marshalled, bind_assoc, pure_bind]
  rfl

end Gateway

/-- A question is answered from around the stack, which stays as it is but for
what was printed. -/
theorem Surroundings.evaluate_ask {Q : Type} {m : Type → Type} [Monad m] [LawfulMonad m]
    (around : Surroundings Q m)
    (run : Lua.Machine → OptionT m Outcome) (outer : Lua.Depth) (q : Q) (s : Stack) :
    (around.evaluate run outer (Evaluation.ask q)).run s =
      (do return (.ok (← around.answer s.heap.output q), { s with heap := s.heap.flushed })) := by
  have opened : (around.evaluate run outer (Evaluation.ask q)).run s = (do
      let answered ←
        (do return (← around.answer s.heap.output q, { s with heap := s.heap.flushed }) :
        OptionT m (Except String Parcel × Stack))
      return (.ok answered.1, answered.2)) := rfl
  rw [opened, bind_assoc]
  simp only [pure_bind]

namespace Gateway

/-- A call at the limit fails as soon as its argument and its name are taken.  What
the script has printed before is passed on, and nothing else is performed after that. -/
theorem hostCall_at_limit (g : Gateway) (fuel : Nat) {depth : Nat} (h : g.depthLimit ≤ depth)
    (functions : List (HostFunction NestedCall))
    (run : Lua.Machine → OptionT (Program platformInterface) Outcome)
    (outer : Lua.Depth) (s : Stack) :
    let around : Surroundings NestedCall (Program platformInterface) :=
  ⟨functions, g.answersAt fuel depth⟩
    (around.evaluate run outer hostCall).run s = (do
      match ← (around.evaluate run outer marshalled).run s with
      | (.error e, t) => return (.error e, t)
      | (.ok _, t) =>
        printing t.heap.output
        return (.error (.hostCall hostCallName (GatewayError.recursionLimit g.depthLimit).message),
          { t with heap := t.heap.flushed })) := by
  intro around
  rw [hostCall_eq, Surroundings.evaluate_bind]
  refine bind_congr (m := OptionT (Program platformInterface)) fun ended => ?_
  obtain ⟨taken, t⟩ := ended
  cases taken with
  | error e => rfl
  | ok call =>
    have hanswer : around.answer t.heap.output call = (do
        printing t.heap.output
        return .error (GatewayError.recursionLimit g.depthLimit).message) := by
      simp only [around, answersAt]
      rw [g.callAt_limit fuel h call]
      rfl
    have hopened : (around.evaluate run outer (answerOf call)).run t = (do
        let x ← around.answer t.heap.output call
        (around.evaluate run outer (match x with
          | .ok result => decode result
          | .error reason =>
            throw (.hostCall hostCallName reason))).run { t with heap := t.heap.flushed }) := by
      rw [answerOf, Surroundings.evaluate_bind, Surroundings.evaluate_ask, bind_assoc]
      refine bind_congr (m := OptionT (Program platformInterface)) fun x => ?_
      rw [pure_bind]
    dsimp only
    rw [hopened, hanswer, bind_assoc]
    rfl

/-- Work that does not end with a refusal for its depth. -/
def Passes (x : Work α) : Prop :=
  Tracks (fun (_ : Unit) _ => ()) (fun _ => True)
    (fun (ended : Option (Except GatewayError α)) _ => ∀ limit,
      ended ≠ some (.error (.recursionLimit limit))) x.run.run ()

theorem Passes.bind {x : Work α} {f : α → Work β} (hx : Passes x) (hf : ∀ a, Passes (f a)) :
    Passes (x >>= f) := by
  refine Tracks.bindOption hx (fun _ _ _ _ => nofun) fun ended _ _ hended => ?_
  cases ended with
  | error e =>
    refine .done trivial fun limit heq => ?_
    cases heq
    exact hended limit rfl
  | ok a => exact hf a

theorem passes_pure (a : α) : Passes (pure a) := .done trivial fun _ => nofun

theorem passes_ofPlatform {ε : Type} {convert : ε → GatewayError}
    (h : ∀ e limit, convert e ≠ .recursionLimit limit)
    (p : Platform (Except ε α)) : Passes (Work.ofPlatform convert p) := by
  have hconverted : ∀ ended : Except ε α, ∀ limit, ended.mapError convert ≠
      .error (.recursionLimit limit) := by
    intro ended limit heq
    cases ended with
    | error e => exact h e limit (Except.error.inj heq)
    | ok a => cases heq
  have hinner : Tracks (fun (_ : Unit) _ => ()) (fun _ => True)
      (fun (ended : Except GatewayError α) _ => ∀ limit, ended ≠ .error (.recursionLimit limit))
      (p.bind fun ended => .done (ended.mapError convert)) () :=
    Tracks.bind (Program.tracks_any _ p ()) fun ended _ _ _ => .done trivial (hconverted ended)
  refine Tracks.bind hinner fun ended _ _ hended => .done trivial fun limit heq => ?_
  exact hended limit (Option.some.inj heq)

theorem passes_ofInterpreter {Q : Type}
    (x : OptionT (Program platformInterface) (Except EngineError α × Interpreter Q)) :
    Passes (Work.ofInterpreter x) := by
  refine Tracks.bindOption (Program.tracks_any _ x.run ()) (fun _ _ _ _ => nofun)
    fun ended _ _ _ => ?_
  obtain ⟨result, i⟩ := ended
  cases result with
  | ok a => exact .done trivial fun _ => nofun
  | error e =>
    refine .done trivial fun limit heq => ?_
    cases e <;> cases heq

theorem passes_finishing {Q : Type} (fuel : Nat)
    (answer : ByteArray → Q → OptionT (Program platformInterface) (Except String Parcel))
    (x : OptionT (Program platformInterface) (Except EngineError α × Interpreter Q)) :
    Passes (Work.finishing fuel answer x) := by
  refine Tracks.bindOption (Program.tracks_any _ x.run ()) (fun _ _ _ _ => nofun)
    fun ended _ _ _ => ?_
  obtain ⟨result, i⟩ := ended
  refine Tracks.bindOption (Program.tracks_any _ (i.finish fuel answer).run ()) (fun _ _ _ _ =>
    nofun) fun i _ _ _ => ?_
  refine Tracks.bindOption (Program.tracks_any _ (printing i.stack.heap.output).run ())
    (fun _ _ _ _ => nofun) fun _ _ _ _ => ?_
  refine .done trivial fun limit heq => ?_
  cases result with
  | ok a => cases heq
  | error e => cases e <;> cases heq

theorem passes_runWith (fuel : Nat) (answers : Answers) (script : ByteArray) (argument : Parcel) :
    Passes (runWith fuel answers script argument) := by
  have hengine : ∀ e limit, GatewayError.ofEngine e ≠ .recursionLimit limit := by
    intro e limit heq
    cases e <;> cases heq
  unfold runWith
  refine (passes_ofPlatform hengine _).bind fun _ => ?_
  exact (passes_ofInterpreter _).bind fun bound => passes_finishing _ _ _

/-- A call below the limit may fail, but not for its own depth. -/
theorem passes_callAt (g : Gateway) (fuel : Nat) {depth : Nat} (h : depth < g.depthLimit)
    (call : NestedCall) :
    Passes (g.callAt fuel depth call) := by
  have hstore : ∀ e limit, GatewayError.ofStore e ≠ .recursionLimit limit := by
    intro e limit heq
    cases e <;> cases heq
  rw [g.callAt_below fuel h call]
  refine Passes.bind ?_ fun body => ?_
  · exact (passes_ofPlatform hstore _).bind fun record => passes_pure _
  · generalize g.depthLimit - depth - 1 = levels
    cases levels with
    | zero => exact passes_runWith _ _ _ _
    | succ levels => exact passes_runWith _ _ _ _

/-- Nesting is bounded, whatever the scripts do and whatever storage holds.

First, a command that runs a script is its watched form without the words, and
at every moment of the latter, whatever the answers so far, the interpreters
whose execution has not returned are at the depths from zero on without a gap,
the limit at most.  Second, the interpreter that is seen at a depth has its
calls answered by the work for that depth.  Third, a call at the limit takes its
argument and its name and then fails; what the script has printed before is passed
on, and no other operation is performed in between or after.
Fourth, the work for a call below the limit never ends with a refusal for its
own depth. -/
theorem nesting_is_bounded (g : Gateway) (fuel : Nat) :
    (∀ x isSaved,
      Watched.erased (g.watchedCommand fuel x isSaved).run =
          (g.dispatch fuel (runOf x isSaved).command.id (runOf x isSaved).slots).run ∧
        ∀ history rest, Performs (g.watchedCommand fuel x isSaved).run history rest →
          ∃ k ≤ g.depthLimit + 1, history.foldl openDepths [] = (List.range k).reverse) ∧
      (∀ depth ≤ g.depthLimit,
        ∃ answers : ByteArray → NestedCall →
            OptionT (Program watchedInterface) (Except String Parcel),
        (∀ script argument, g.watched fuel (g.depthLimit - depth) script argument =
          WatchedWork.runWith fuel depth answers script argument) ∧
        ∀ printed call, Watched.erased (answers printed call).run =
          (answered printed (g.callAt fuel depth call)).run) ∧
      (∀ functions run outer s,
        let around : Surroundings NestedCall (Program platformInterface) :=
          ⟨functions, fun printed call => answered printed (g.callAt fuel g.depthLimit call)⟩
        (around.evaluate run outer hostCall).run s = (do
          match ← (around.evaluate run outer marshalled).run s with
          | (.error e, t) => return (.error e, t)
          | (.ok _, t) =>
            printing t.heap.output
            return (.error
              (.hostCall hostCallName (GatewayError.recursionLimit g.depthLimit).message),
              { t with heap := t.heap.flushed }))) ∧
      ∀ depth < g.depthLimit, ∀ call history e,
        Performs (g.callAt fuel depth call).run.run history (.done (some (.error e))) →
          ∀ limit, e ≠ .recursionLimit limit := by
  refine ⟨fun x isSaved =>
    ⟨g.erased_watchedCommand fuel x isSaved, fun history rest moment => ?_⟩, ?_, ?_, ?_⟩
  · exact (g.tracks_watchedCommand fuel x isSaved).at_moment moment
  · intro depth hdepth
    exact g.watched_eq_callAt fuel hdepth
  · intro functions run outer s
    exact g.hostCall_at_limit fuel (Nat.le_refl _) functions run outer s
  · intro depth hdepth call history e moment limit heq
    subst heq
    exact (g.passes_callAt fuel hdepth call).at_end moment limit rfl

end Gateway
end SealedLua
