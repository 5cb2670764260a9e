import SealedLua.CommandLine.Run
import SealedLua.Proofs.Gateway.Requests
import SealedLua.Proofs.Gateway.Sessions

/-!
# Jobs without slots

The program talks to its gateway through a session and slots, like any caller.
`Job.direct` does what is asked for without them: it gives an argument to the
gateway as it is and tells of the result as it is.  Both are the same program
(`perform_eq_direct`), so nothing that can go wrong on the way through slots and
sessions ever does, but that an argument or a result is too long.
-/

namespace SealedLua.CommandLine.Job

open SealedLua.Gateway (mode runOf)

variable {α β : Type}

/-- Work on the platform of a process, what is printed there included. -/
def hosted (p : Process) (work : OptionT (Program platformInterface) α) :
    StateT ByteArray (OptionT (Program systemInterface)) α := fun printed =>
  OptionT.mk do
    let (result, p) ← (work.run.run (I := platformInterface) (Process.answer askFile)).run p
    return result.map fun a => (a, printed ++ p.printed)

def inNewProcess (circumstances : Nat → Lua.Circumstances) (c : Configuration) (work : Work α) :
    Job (Except GatewayError α) := do
  let process ← ofProgram (fun e => .gateway (.ofStore e)) (Process.start askFile circumstances c)
  ExceptT.lift (hosted process work.run)

/-- What the program says of an argument that is too long. -/
def checkFits (c : Configuration) (argument : Parcel) : Except Failure Unit :=
  if c.capacity < argument.content.toUTF8.size then
    .error (.unfit (.capacity argument.content.toUTF8.size c.capacity))
  else .ok ()

/-- What becomes of the result of a run.  A failure is told by its code. -/
def told (c : Configuration) (command : Command) :
    Except GatewayError Parcel → Except Failure Parcel
  | .ok result =>
    if c.capacity < result.content.toUTF8.size then .error
      (.command command ⟨Code.shortBuffer, .trustedApp⟩)
    else .ok result
  | .error e => .error (.command command ⟨e.code, .trustedApp⟩)

/-- Does what is asked for without slots and without a session. -/
def direct (circumstances : Nat → Lua.Circumstances) (c : Configuration) (fuel : Nat) :
    Action → Job String
  | .sealFile input output => perform circumstances c fuel (.sealFile input output)
  | .run script isSealed argument => do
    let body ← readFile script
    ofExcept (checkFits c argument)
    let ended ← inNewProcess circumstances c (c.toGateway.runInline fuel body isSealed argument)
    return (← ofExcept (told c .runInline ended)).display
  | .save name script isSealed => do
    let body ← readFile script
    let ended ← inNewProcess circumstances c (c.toGateway.save name.toUTF8 body isSealed)
    ofExcept (ended.mapError fun e => .command .save ⟨e.code, .trustedApp⟩)
    return "saved " ++ Quoted.text name
  | .runSaved name argument => do
    ofExcept (checkFits c argument)
    let ended ← inNewProcess circumstances c (c.toGateway.runSaved fuel name.toUTF8 argument)
    return (← ofExcept (told c .runSaved ended)).display

variable (circumstances : Nat → Lua.Circumstances) (c : Configuration) (fuel : Nat)

theorem hosted_map (p : Process) (work : OptionT (Program platformInterface) α) (f : α → β) :
    hosted p (do return f (← work)) = (do return f (← hosted p work)) := by
  have mapped := Program.run_bind (I := platformInterface) (Process.answer askFile) work.run
    fun a => .done (a.map f)
  refine funext fun printed => ?_
  unfold hosted
  rw [Program.map_run, mapped]
  let ran := (Program.run (I := platformInterface) (Process.answer askFile) work.run).run p
  let ended := fun x : Option α × Process => x.1.map fun a => (a, printed ++ x.2.printed)
  -- Both sides run the work and then look at its result and at what was printed.
  have left := Program.bind_assoc ran (fun x => .done (x.1.map f, x.2))
    fun x => .done (x.1.map fun b => (b, printed ++ x.2.printed))
  refine OptionT.ext
    (left.trans (Eq.trans ?_ (Program.bind_assoc ran (fun x => .done (ended x)) _).symm))
  refine congrArg ran.bind (funext fun x => ?_)
  obtain ⟨none | a, p⟩ := x <;> rfl

def heard (slots : Slots) : Except GatewayError Unit × Slots → Except ErrorCode Unit × Slots
  | (.ok (), changed) => (.ok (), changed)
  | (.error e, _) => (.error (e.withOrigin .trustedApp), slots)

theorem invoke_open (g : Gateway) (command : UInt32) (slots : Slots) :
    Session.invoke ⟨true⟩ g fuel command slots =
      (do return heard slots (← g.dispatch fuel command slots)) := by
  rw [Session.invoke, if_pos rfl]
  refine bind_congr fun ended => ?_
  obtain ⟨e | u, changed⟩ := ended <;> rfl

theorem lift_map (x : StateT ByteArray (OptionT (Program systemInterface)) α) (f : α → β) :
    (ExceptT.lift (do return f (← x)) : Job β) = do return f (← (ExceptT.lift x : Job α)) := by
  refine ExceptT.ext ?_
  simp only [ExceptT.run_lift, ExceptT.run_bind_lift, ExceptT.run_pure, map_bind, map_pure]

/-- A command is given in a session that is opened and closed for it, and neither fails. -/
theorem command_eq (command : Command) (slots : Slots) :
    Job.command circumstances c fuel command slots = (do
      let process ← ofProgram (fun e => .gateway (.ofStore e))
        (Process.start askFile circumstances c)
      let ended ←
        (ExceptT.lift (hosted process (c.toGateway.dispatch fuel command.id slots)) : Job _)
      match ended with
      | (.ok (), changed) => return changed
      | (.error e, _) => throw (.command command (e.withOrigin .trustedApp))) := by
  obtain ⟨id, manager, opened, found⟩ : ∃ id manager,
      SessionManager.empty.openSession Gateway.uuid {} = (.ok id, manager) ∧
        manager.find? id = some ⟨true⟩ :=
    ⟨_, _, SessionManager.openSession_eq SessionManager.empty rfl, rfl⟩
  unfold Job.command
  refine bind_congr fun process => ?_
  rw [opened]
  dsimp only
  rw [SessionManager.invoke_of_found _ _ found,
    SessionManager.closeSession_of_found found, invoke_open]
  have session :
      (ExceptT.lift
        (hosted process (do return heard slots (← c.toGateway.dispatch fuel command.id slots))) :
        Job _) =
      do return heard slots (←
        (ExceptT.lift (hosted process (c.toGateway.dispatch fuel command.id slots)) : Job _)) := by
    rw [hosted_map, lift_map]
  refine (congrArg (· >>= _) session).trans ?_
  rw [bind_assoc]
  refine bind_congr fun ended => ?_
  obtain ⟨e | u, changed⟩ := ended <;> rfl

def laid (script : ByteArray) (isSealed : Bool) (argument : Parcel) : RunSlots :=
  ⟨script, ⟨argument.tag, argument.word⟩, ⟨mode isSealed, 0⟩, argument.content.toUTF8⟩

theorem callSlots_eq (script : ByteArray) (isSealed : Bool) (argument : Parcel) :
    callSlots c script isSealed argument = (do
      ofExcept (checkFits c argument)
      return (laid script isSealed argument).slots) := by
  unfold callSlots checkFits
  rw [Parcel.toSlots_eq]
  split_ifs <;> rfl

theorem argument_laid (script : ByteArray) (isSealed : Bool) {argument : Parcel}
    (fits : argument.content.toUTF8.size ≤ c.capacity) :
    c.toGateway.argument (laid script isSealed argument) = .ok argument := by
  have read := Parcel.ofSlots_layout fits
  rw [Gateway.argument, laid, read]
  rfl

theorem mode_bne (isSealed : Bool) : (mode isSealed != 0) = isSealed := by
  cases isSealed <;> decide

theorem commandWithResult_eq (x : RunSlots) (isSaved : Bool) :
    commandWithResult circumstances c fuel (runOf x isSaved).command x.slots = (do
      ofExcept
        (told c (runOf x isSaved).command
          (← inNewProcess circumstances c (c.toGateway.runRequest fuel x isSaved)))) := by
  have same : (runOf x isSaved).slots = x.slots := by cases isSaved <;> rfl
  have carried : c.toGateway.carryOut fuel (runOf x isSaved) =
      do return c.toGateway.concluded x (← (c.toGateway.runRequest fuel x isSaved).run) := by
    cases isSaved <;> rfl
  unfold commandWithResult
  rw [← same, command_eq, Gateway.dispatch_request, carried, inNewProcess]
  simp only [hosted_map, lift_map, bind_assoc, pure_bind]
  refine bind_congr fun process => bind_congr fun ended => ?_
  cases ended with
  | error e => rfl
  | ok result =>
    rw [Gateway.concluded, Gateway.conclude, Parcel.toSlots_eq, told]
    by_cases long : c.capacity < result.content.toUTF8.size
    · rw [if_pos long, if_pos long]
      rfl
    · rw [if_neg long, if_neg long]
      have read := Parcel.ofSlots_layout (Nat.le_of_not_lt long)
      have slots : (Parcel.ofSlots ⟨result.tag, result.word, result.content.toUTF8⟩
          c.capacity).mapError Failure.malformed =
          .ok result := by rw [read]; rfl
      exact congrArg ofExcept slots

theorem call_eq (script : ByteArray) (isSealed : Bool) (argument : Parcel) (isSaved : Bool) :
    (do commandWithResult circumstances c fuel (if isSaved then .runSaved
      else .runInline) (← callSlots c script isSealed argument)) = (do
      ofExcept (checkFits c argument)
      let ended ← inNewProcess circumstances c
        (if isSaved then c.toGateway.runSaved fuel script argument
        else c.toGateway.runInline fuel script isSealed argument)
      ofExcept (told c (if isSaved then .runSaved else .runInline) ended)) := by
  have command : (runOf (laid script isSealed argument) isSaved).command = if isSaved then .runSaved
      else .runInline := by
    cases isSaved <;> rfl
  have called := commandWithResult_eq circumstances c fuel (laid script isSealed argument) isSaved
  rw [command] at called
  rw [callSlots_eq, bind_assoc, checkFits]
  by_cases long : c.capacity < argument.content.toUTF8.size
  · rw [if_pos long]
    rfl
  · rw [if_neg long]
    have request : c.toGateway.runRequest fuel (laid script isSealed argument) isSaved =
        if isSaved then c.toGateway.runSaved fuel script argument
        else c.toGateway.runInline fuel script isSealed argument := by
      rw [Gateway.runRequest, argument_laid c script isSealed (Nat.le_of_not_lt long)]
      have mode := mode_bne isSealed
      cases isSaved
      · exact congrArg (fun isSealed => c.toGateway.runInline fuel script isSealed argument) mode
      · rfl
    rw [request] at called
    exact called

theorem save_eq (name script : ByteArray) (isSealed : Bool) :
    Job.command circumstances c fuel .save (SaveSlots.slots ⟨name, script, ⟨mode isSealed, 0⟩⟩) =
      (do
      let ended ← inNewProcess circumstances c (c.toGateway.save name script isSealed)
      ofExcept (ended.mapError fun e => .command .save ⟨e.code, .trustedApp⟩)
      return SaveSlots.slots ⟨name, script, ⟨mode isSealed, 0⟩⟩) := by
  let x : SaveSlots := ⟨name, script, ⟨mode isSealed, 0⟩⟩
  have dispatched : c.toGateway.dispatch fuel Command.save.id x.slots =
      do return (← (c.toGateway.save name script isSealed).run, x.slots) := by
    rw [show Command.save = (Request.save x).command from rfl, show x.slots =
      (Request.save x).slots from rfl, Gateway.dispatch_request, Gateway.carryOut,
      show (x.mode.a != 0) = isSealed from mode_bne isSealed]
    rfl
  rw [command_eq, dispatched, inNewProcess]
  simp only [hosted_map, lift_map, bind_assoc, pure_bind]
  refine bind_congr fun process => bind_congr fun ended => ?_
  cases ended <;> rfl

/-- The program does what is asked for as if it had neither slots nor sessions. -/
theorem perform_eq_direct (action : Action) :
    perform circumstances c fuel action = direct circumstances c fuel action := by
  cases action with
  | sealFile input output => rfl
  | run script isSealed argument =>
    refine bind_congr fun body => ?_
    have called := congrArg (fun job => do return Parcel.display (← job))
      (call_eq circumstances c fuel body isSealed argument false)
    simp only [Bool.false_eq_true, if_false, bind_assoc] at called
    exact called
  | save name script isSealed =>
    refine bind_congr fun body => ?_
    have saved := congrArg (fun job => do let _ ← job; return "saved " ++ Quoted.text name)
      (save_eq circumstances c fuel name.toUTF8 body isSealed)
    simp only [bind_assoc, pure_bind] at saved
    exact saved
  | runSaved name argument =>
    have called := congrArg (fun job => do return Parcel.display (← job))
      (call_eq circumstances c fuel name.toUTF8 false argument true)
    simp only [if_true, bind_assoc] at called
    exact called

end SealedLua.CommandLine.Job
