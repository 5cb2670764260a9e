import SealedLua.Proofs.Crypto.Opening
import SealedLua.Proofs.Engine.CallingConvention

/-!
# The codes of commands

A caller hears a code, and which codes a command can end with is read off how its
work is put together: a list of codes for each piece, and the lists of a sequence
joined.  Of an interpreter nothing comes but the failure of a script, however its
calls of other scripts failed; only the refusal of the interpreter itself has its
own words.  That a failed call is heard at all is said with a word that is put in
where the failure passes every guard (`Surroundings.tell`), those with which the
collector waits for finalizers included.
-/

namespace SealedLua

open Lua
open Program
  (ComesTo Tracks Performs Event performs_ask performs_done performs_bind performs_bindOption)

/-- Failures of storage that is not to be had. -/
inductive StoreError.IsFault : StoreError → Prop
  | files (failure : FileFailure) : IsFault (.files failure)
  | lock (object : String) : IsFault (.lock object)
  | backend (reason : String) : IsFault (.backend reason)

/-- If storage failed, it was not to be had. -/
def PlatformOp.Expected : Event platformInterface → Prop
  | ⟨.storage op, x⟩ => ∀ e, (show op.Answer from x) = .error e → e.IsFault
  | ⟨.drawSerial, _⟩ | ⟨.admitInterpreter, _⟩ | ⟨.print _, _⟩ => True

open PlatformOp (Expected)

variable {α β Q : Type}

theorem GatewayError.code_ofStore_of_isFault {e : StoreError} (h : e.IsFault) :
    (GatewayError.ofStore e).code = Code.storageNotAvailable := by
  cases h <;> rfl

theorem GatewayError.code_ofStore (e : StoreError) :
    (GatewayError.ofStore e).code ∈ [Code.badParameters, Code.itemNotFound,
      Code.storageNotAvailable] := by
  cases e with
  | invalidName reason => exact .head _
  | notFound name => exact .tail _ (.head _)
  | files failure => exact .tail _ (.tail _ (.head _))
  | lock object => exact .tail _ (.tail _ (.head _))
  | backend reason => exact .tail _ (.tail _ (.head _))

theorem GatewayError.code_ofEngine (e : EngineError) :
    (GatewayError.ofEngine e).code ∈ [Code.badParameters, Code.shortBuffer, Code.scriptFailed] := by
  cases e with
  | unknownTag tag => exact .head _
  | invalidText => exact .head _
  | capacity size limit => exact .tail _ (.head _)
  | creation reason => exact .tail _ (.tail _ (.head _))
  | script reason => exact .tail _ (.tail _ (.head _))
  | underflow operation needed found => exact .tail _ (.tail _ (.head _))
  | wrongKind expected => exact .tail _ (.tail _ (.head _))
  | hostCall name reason => exact .tail _ (.tail _ (.head _))

namespace Work

/-- If the work fails, storage having failed as expected at most, it fails with
one of these codes. -/
def FailsWith (codes : List UInt32) (x : Work α) : Prop :=
  ∀ history e, Performs x.run.run history (.done (some (.error e))) →
    (∀ event ∈ history, Expected event) → e.code ∈ codes

variable {codes more : List UInt32}

theorem FailsWith.mono {x : Work α} (h : x.FailsWith codes) (subset : codes ⊆ more) :
    x.FailsWith more :=
  fun history e performs expected => subset (h history e performs expected)

theorem failsWith_ofExcept {x : Except GatewayError α} (h : ∀ e, x = .error e → e.code ∈ codes) :
    (ofExcept x).FailsWith codes := by
  intro history e performs _
  obtain ⟨-, ended⟩ := performs_done.1 performs
  exact h e (Option.some.inj ended).symm

theorem failsWith_pure (a : α) : (pure a : Work α).FailsWith codes :=
  failsWith_ofExcept (x := .ok a) fun _ => nofun

theorem FailsWith.bind {x : Work α} {f : α → Work β} (hx : x.FailsWith codes)
    (hf : ∀ a, (f a).FailsWith codes) :
    (x >>= f).FailsWith codes := by
  intro history e performs expected
  obtain ⟨ended, first, second, rfl, hfirst, hsecond⟩ := performs_bindOption.1 performs
  obtain ⟨expected, expected'⟩ := List.forall_mem_append.1 expected
  cases ended with
  | ok a => exact hf a second e hsecond expected'
  | error reason =>
    obtain ⟨-, ended⟩ := performs_done.1 hsecond
    cases ended
    exact hx first e hfirst expected

theorem performs_ofPlatform {ε : Type} {convert : ε → GatewayError} {p : Platform (Except ε α)}
    {history : List (Event platformInterface)} {ended : Except GatewayError α}
    (performs : Performs (ofPlatform convert p).run.run history (.done (some ended))) :
    ∃ result, Performs p history (.done result) ∧ ended = result.mapError convert := by
  obtain ⟨converted, first, second, rfl, converting, performs⟩ := performs_bind.1 performs
  obtain ⟨rfl, same⟩ := performs_done.1 performs
  obtain ⟨result, history, rest, rfl, asking, converts⟩ := performs_bind.1 converting
  obtain ⟨rfl, rfl⟩ := performs_done.1 converts
  rw [List.append_nil, List.append_nil]
  exact ⟨result, asking, Option.some.inj same⟩

theorem failsWith_ofPlatform {ε : Type} {convert : ε → GatewayError} {p : Platform (Except ε α)}
    (h : ∀ history e, Performs p history (.done (.error e)) → (∀ event ∈ history, Expected event) →
      (convert e).code ∈ codes) :
    (ofPlatform convert p).FailsWith codes := by
  intro history e performs expected
  obtain ⟨result, asking, same⟩ := performs_ofPlatform performs
  cases result with
  | ok a => cases same
  | error reason =>
    cases same
    exact h history reason asking expected

end Work

open Work (FailsWith failsWith_ofExcept failsWith_ofPlatform failsWith_pure)

namespace Scripts

/-- A step of a save fails only if storage is not to be had. -/
def FaultsOnly (x : ExceptT StoreError (Program platformInterface) α) : Prop :=
  ∀ history e, Performs x.run history (.done (.error e)) →
    (∀ event ∈ history, Expected event) → e.IsFault

theorem faultsOnly_storage (op : StorageOp) : FaultsOnly (ExceptT.mk (Platform.storage op)) := by
  intro history e performs expected
  obtain rfl := performs_ask.1 performs
  exact expected _ (List.mem_singleton_self _) e rfl

theorem FaultsOnly.bind {x : ExceptT StoreError (Program platformInterface) α}
    {f : α → ExceptT StoreError (Program platformInterface) β} (hx : FaultsOnly x)
    (hf : ∀ a, FaultsOnly (f a)) :
    FaultsOnly (x >>= f) := by
  intro history e performs expected
  obtain ⟨ended, first, second, rfl, hfirst, hsecond⟩ := performs_bind.1 performs
  obtain ⟨expected, expected'⟩ := List.forall_mem_append.1 expected
  cases ended with
  | ok a => exact hf a second e hsecond expected'
  | error reason =>
    obtain ⟨-, ended⟩ := performs_done.1 hsecond
    cases ended
    exact hx first e hfirst expected

theorem faultsOnly_stage (staging record : ObjectId) (body : ByteArray) :
    FaultsOnly (stage staging record body) :=
  (faultsOnly_storage _).bind fun _ => (faultsOnly_storage _).bind fun _ => faultsOnly_storage _

theorem checkName_eq_error {limit : Nat} {name : ByteArray} {e : StoreError}
    (h : checkName limit name = .error e) :
    ∃ reason, e = .invalidName reason := by
  unfold checkName at h
  split at h
  · cases h
    exact ⟨_, rfl⟩
  · split at h <;> cases h
    exact ⟨_, rfl⟩

/-- Saving fails for the name, or because storage is not to be had. -/
theorem save_fails {limit : Nat} {name body : ByteArray} {history : List (Event platformInterface)}
    {e : StoreError} (performs : Performs (save limit name body) history (.done (.error e)))
    (expected : ∀ event ∈ history, Expected event) :
    (∃ reason, e = .invalidName reason) ∨ e.IsFault := by
  unfold save at performs
  split at performs
  · next refused =>
    obtain ⟨-, ended⟩ := performs_done.1 performs
    cases ended
    exact .inl (checkName_eq_error refused)
  · right
    obtain ⟨serial, drawing, rest, rfl, -, performs⟩ := performs_bind.1 performs
    obtain ⟨staged, staging, last, rfl, hstaged, performs⟩ := performs_bind.1 performs
    have expected := (List.forall_mem_append.1 (List.forall_mem_append.1 expected).2).1
    cases staged with
    | ok a =>
      obtain ⟨-, ended⟩ := performs_done.1 performs
      cases ended
    | error reason =>
      obtain ⟨deleted, _, _, rfl, -, performs⟩ := performs_bind.1 performs
      obtain ⟨-, ended⟩ := performs_done.1 performs
      cases ended
      exact faultsOnly_stage _ _ _ staging e hstaged ‹_›

end Scripts

namespace Gateway

variable (g : Gateway) (fuel : Nat)

theorem failsWith_loadScript (name : ByteArray) :
    (g.loadScript name).FailsWith [Code.badParameters, Code.itemNotFound,
      Code.storageNotAvailable] := by
  apply FailsWith.bind
  · exact failsWith_ofPlatform fun history e _ _ => GatewayError.code_ofStore e
  · intro record
    exact failsWith_pure _

theorem code_of_interpreted {answers : Answers} {script : ByteArray} {argument : Parcel}
    {circumstances : Circumstances} {history : List (Event platformInterface)} {e : GatewayError}
    (performs : Performs
      (interpreted printing fuel answers script argument circumstances).run.run history
      (.done (some (.error e)))) :
    e.code = Code.scriptFailed := by
  have settled : Tracks (fun (_ : Unit) _ => ()) (fun _ => True) (SettledAs fun _ => True)
      (interpreted printing fuel answers script argument circumstances).run.run () :=
    settledAs_interpreted printing fuel answers script argument circumstances
  rcases settled.at_end performs _ rfl with ⟨a, same, -⟩ | ⟨reason, same, code⟩
  · cases same
  · cases same
    exact code

/-- A run fails as a script does, or because its interpreter was refused. -/
theorem failsWith_runWith (answers : Answers) (script : ByteArray) (argument : Parcel) :
    (runWith fuel answers script argument).FailsWith [Code.badParameters, Code.shortBuffer,
      Code.scriptFailed] := by
  apply FailsWith.bind
  · exact failsWith_ofPlatform fun history e _ _ => GatewayError.code_ofEngine e
  · intro circumstances history e performs _
    rw [code_of_interpreted fuel performs]
    decide

theorem failsWith_run (levels : Nat) (script : ByteArray) (argument : Parcel) :
    (g.run fuel levels script argument).FailsWith [Code.badParameters, Code.shortBuffer,
      Code.scriptFailed] := by
  cases levels with
  | zero => exact failsWith_runWith fuel _ script argument
  | succ levels => exact failsWith_runWith fuel _ script argument

theorem failsWith_unsealed (isSealed : Bool) (script : ByteArray) :
    (Work.ofExcept (g.unsealed isSealed script)).FailsWith [Code.badFormat, Code.macInvalid] := by
  apply failsWith_ofExcept
  intro e refused
  cases isSealed with
  | false => cases refused
  | true =>
    simp only [unsealed, if_true] at refused
    rcases Payload.decrypt_cases g.secret script with ⟨-, h⟩ | ⟨-, _, _, _, -, -, -, h⟩ | ⟨-, h⟩
    · rw [h] at refused
      cases refused
      simp [GatewayError.ofCrypto, GatewayError.code]
    · rw [h] at refused
      cases refused
    · rw [h] at refused
      cases refused
      simp [GatewayError.ofCrypto, GatewayError.code]

theorem failsWith_save (name script : ByteArray) (isSealed : Bool) :
    (g.save name script isSealed).FailsWith
      [Code.badParameters, Code.badFormat, Code.macInvalid, Code.storageNotAvailable] := by
  apply FailsWith.bind
  · apply failsWith_ofExcept
    intro e refused
    cases named : Scripts.checkName g.nameLimit name with
    | ok text =>
      rw [named] at refused
      cases refused
    | error reason =>
      rw [named] at refused
      cases refused
      obtain ⟨reason, rfl⟩ := Scripts.checkName_eq_error named
      exact .head _
  · intro _
    apply FailsWith.bind
    · exact (g.failsWith_unsealed isSealed script).mono (by decide)
    · intro body
      apply failsWith_ofPlatform
      intro history e performs expected
      rcases Scripts.save_fails performs expected with ⟨reason, rfl⟩ | fault
      · exact .head _
      · rw [GatewayError.code_ofStore_of_isFault fault]
        decide

/-- The argument of a run is refused for its length, its tag or its encoding. -/
theorem failsWith_argument (x : RunSlots) :
    (Work.ofExcept (g.argument x)).FailsWith [Code.badParameters, Code.shortBuffer,
      Code.scriptFailed] := by
  apply failsWith_ofExcept
  intro e refused
  unfold argument at refused
  cases read : Parcel.ofSlots ⟨x.words.a, x.words.b, x.buffer⟩ g.capacity with
  | ok p =>
    rw [read] at refused
    cases refused
  | error reason =>
    rw [read] at refused
    cases refused
    exact GatewayError.code_ofEngine reason

end Gateway

/-- The codes with which a command fails. -/
def Command.codes : Command → List UInt32
  | .runInline =>
    [Code.badParameters, Code.shortBuffer, Code.badFormat, Code.macInvalid, Code.scriptFailed]
  | .runSaved =>
    [Code.badParameters, Code.shortBuffer, Code.itemNotFound, Code.storageNotAvailable,
      Code.scriptFailed]
  | .save => [Code.badParameters, Code.badFormat, Code.macInvalid, Code.storageNotAvailable]

namespace Gateway

variable (g : Gateway) (fuel : Nat)

theorem failsWith_runRequest (x : RunSlots) (isSaved : Bool) :
    (g.runRequest fuel x isSaved).FailsWith (runOf x isSaved).command.codes := by
  cases isSaved with
  | false =>
    change FailsWith Command.runInline.codes _
    apply FailsWith.bind
    · exact (g.failsWith_argument x).mono (by decide)
    · intro argument
      apply FailsWith.bind
      · exact (g.failsWith_unsealed _ _).mono (by decide)
      · intro script
        exact (g.failsWith_run fuel _ script argument).mono (by decide)
  | true =>
    change FailsWith Command.runSaved.codes _
    apply FailsWith.bind
    · exact (g.failsWith_argument x).mono (by decide)
    · intro argument
      apply FailsWith.bind
      · exact (g.failsWith_loadScript _).mono (by decide)
      · intro script
        exact (g.failsWith_run fuel _ script argument).mono (by decide)

theorem code_of_concluded {x : RunSlots} {ended : Except GatewayError Parcel} {e : GatewayError}
    (h : (g.concluded x ended).1 = .error e) : ended = .error e ∨ e.code = Code.shortBuffer := by
  unfold concluded conclude at h
  cases ended with
  | error reason =>
    cases h
    exact .inl rfl
  | ok result =>
    right
    have laid : ∀ reason, result.toSlots g.capacity = .error reason →
        (GatewayError.ofEngine reason).code = Code.shortBuffer := by
      intro reason refused
      have written : ∀ tag s, Parcel.writeBuffer tag s g.capacity = .error reason →
          (GatewayError.ofEngine reason).code = Code.shortBuffer := by
        intro tag s refused
        unfold Parcel.writeBuffer at refused
        dsimp only at refused
        split at refused <;> cases refused
        rfl
      cases result with
      | number n => cases refused
      | text s => exact written _ _ refused
      | code s => exact written _ _ refused
    cases refused : result.toSlots g.capacity with
    | ok y =>
      simp only [refused] at h
      cases h
    | error reason =>
      simp only [refused] at h
      cases h
      exact laid reason refused

/-- A request to run fails as its run does, or because its result is too long. -/
theorem code_of_carryOut_run (isSaved : Bool) {x : RunSlots}
    {history : List (Event platformInterface)} {e : GatewayError} {changed : Slots}
    (performs : Performs (g.carryOut fuel (runOf x isSaved)).run history
      (.done (some (.error e, changed))))
    (expected : ∀ event ∈ history, Expected event) : e.code ∈ (runOf x isSaved).command.codes := by
  rw [carryOut_runOf] at performs
  obtain ⟨ended, first, second, rfl, running, performs⟩ := performs_bind.1 performs
  obtain ⟨rfl, ended_eq⟩ := performs_done.1 performs
  rw [List.append_nil] at expected
  obtain ⟨ended, rfl, concluded_eq⟩ := Option.map_eq_some_iff.1 ended_eq.symm
  rcases g.code_of_concluded (congrArg Prod.fst concluded_eq) with rfl | short
  · exact g.failsWith_runRequest fuel x isSaved first e running expected
  · rw [short]
    cases isSaved <;> exact .tail _ (.head _)

theorem code_of_carryOut_save {x : SaveSlots} {history : List (Event platformInterface)}
    {e : GatewayError} {changed : Slots}
    (performs : Performs (g.carryOut fuel (.save x)).run history (.done (some (.error e, changed))))
    (expected : ∀ event ∈ history, Expected event) : e.code ∈ Command.save.codes := by
  have unfolded : (g.carryOut fuel (.save x)).run =
      (g.save x.name x.script (x.mode.a != 0)).run.run.bind fun ended =>
        .done (ended.map fun ended => (ended, x.slots)) :=
    Program.map_run _ fun ended => (ended, x.slots)
  rw [unfolded] at performs
  obtain ⟨ended, first, second, rfl, saving, performs⟩ := performs_bind.1 performs
  obtain ⟨rfl, ended_eq⟩ := performs_done.1 performs
  rw [List.append_nil] at expected
  obtain ⟨ended, rfl, slots_eq⟩ := Option.map_eq_some_iff.1 ended_eq.symm
  cases slots_eq
  exact g.failsWith_save x.name x.script _ first e saving expected

theorem code_of_dispatch (c : Command) (slots : Slots) {history : List (Event platformInterface)}
    {e : GatewayError} {changed : Slots}
    (performs : Performs (g.dispatch fuel c.id slots).run history
      (.done (some (.error e, changed))))
    (expected : ∀ event ∈ history, Expected event) : e.code ∈ c.codes := by
  by_cases types : slots.types = c.signature
  · obtain ⟨r, rfl, rfl⟩ := Request.exists_of_types types
    rw [dispatch_request] at performs
    cases r with
    | runInline x => exact g.code_of_carryOut_run fuel false performs expected
    | runSaved x => exact g.code_of_carryOut_run fuel true performs expected
    | save x => exact g.code_of_carryOut_save fuel performs expected
  · rw [dispatch_mismatch _ fuel c types] at performs
    obtain ⟨-, ended⟩ := performs_done.1 performs
    cases ended
    cases c <;> exact .head _

/-- A command in an open session fails with a code of its list, and its caller
hears that the gateway failed. -/
theorem code_of_invoke (c : Command) (slots : Slots) {history : List (Event platformInterface)}
    {e : ErrorCode} {changed : Slots}
    (performs : Performs (Session.invoke ⟨true⟩ g fuel c.id slots).run history
      (.done (some (.error e, changed))))
    (expected : ∀ event ∈ history, Expected event) : e.origin = .trustedApp ∧ e.code ∈ c.codes := by
  obtain ⟨⟨result, changed⟩, first, second, rfl, dispatched, performs⟩ :=
    performs_bindOption.1 performs
  cases result with
  | ok u =>
    obtain ⟨-, ended⟩ := performs_done.1 performs
    cases ended
  | error reason =>
    obtain ⟨rfl, ended⟩ := performs_done.1 performs
    cases ended
    rw [List.append_nil] at expected
    exact ⟨rfl, g.code_of_dispatch fuel c slots dispatched expected⟩

/-- A run fails for the refusal of its interpreter, or as a script does,
whatever its calls are answered. -/
theorem code_of_runWith {answers : Answers} {script : ByteArray} {argument : Parcel}
    {history : List (Event platformInterface)} {e : GatewayError}
    (performs : Performs (runWith fuel answers script argument).run.run history
      (.done (some (.error e)))) :
    (∃ refusal : EngineError,
      history =
        [⟨PlatformOp.admitInterpreter, (Except.error refusal : Except EngineError Circumstances)⟩] ∧
        e = .ofEngine refusal) ∨ e.code = Code.scriptFailed := by
  obtain ⟨admitted, first, second, rfl, admitting, goesOn⟩ := performs_bindOption.1 performs
  obtain ⟨answer, asking, rfl⟩ := Work.performs_ofPlatform admitting
  obtain rfl := performs_ask.1 asking
  cases answer with
  | error refusal =>
    obtain ⟨rfl, same⟩ := performs_done.1 goesOn
    cases same
    exact .inl ⟨refusal, rfl, rfl⟩
  | ok circumstances => exact .inr (code_of_interpreted fuel goesOn)

/-- The codes that no command ends with: those of nesting too deep, of a state or a
configuration that is not right, and of cryptography that does not work. -/
def internalCodes : List UInt32 :=
  [Code.overflow, Code.badState, Code.badConfiguration, Code.generic]

theorem not_internal (c : Command) {code : UInt32} (listed : code ∈ c.codes) :
    code ∉ internalCodes := by
  have apart : ∀ c : Command, (c.codes.all fun code => !internalCodes.contains code) = true := by
    intro c
    cases c <;> rfl
  have outside := List.all_eq_true.1 (apart c) code listed
  simpa using outside

/-- Which codes cross the boundary.

If storage fails at most because it is not to be had, a command in an open session
fails with a code of its list, whatever the platform answered.  None of the lists
has a code that only tells of the inside of the gateway.

As to nested calls: the script at any depth runs as `runWith` does with the
answers for that depth.  Such a run fails for the refusal of its own interpreter,
before anything else, or as a script does, whatever its calls came to.  A call
that succeeds in the script has had the called script run with success; so if the
name is missing or invalid, the limit is reached, storage fails, the called script
fails or its interpreter is refused, then the call fails in the script.  And where
the failure of a call passes every guard, the run fails as a script does if it ends.
The collector guards a finalizer, so what fails there is not heard of. -/
theorem commands_fail_with_their_codes (g : Gateway) (fuel : Nat) :
    (∀ (c : Command) slots history e changed,
        Performs (Session.invoke ⟨true⟩ g fuel c.id slots).run history
          (.done (some (.error e, changed))) →
          (∀ event ∈ history, Expected event) → e.origin = .trustedApp ∧ e.code ∈ c.codes ∧
            e.code ∉ internalCodes) ∧
      ∀ depth ≤ g.depthLimit,
        (∀ script argument, g.run fuel (g.depthLimit - depth) script argument =
            runWith fuel (g.answersAt fuel depth) script argument) ∧
          (∀ script argument history e,
            Performs (runWith fuel (g.answersAt fuel depth) script argument).run.run history
              (.done (some (.error e))) →
              (∃ refusal : EngineError,
                history =
                  [⟨PlatformOp.admitInterpreter,
                    (Except.error refusal : Except EngineError Circumstances)⟩] ∧
                  e = .ofEngine refusal) ∨ e.code = Code.scriptFailed) ∧
          (∀ functions run outer s history t,
            Performs
              (((Surroundings.mk functions (g.answersAt fuel depth)).evaluate run outer
                hostCall).run s).run history
                (.done (some (.ok (), t))) →
              ∃ call result first called last, history = first ++ called ++ last ∧
                Performs (g.callAt fuel depth call).run.run called (.done (some (.ok result)))) ∧
          ∀ script argument,
            let telling := (tellingRun fuel (g.answersAt fuel depth) script argument).run.run
            Told.erased telling = (runWith fuel (g.answersAt fuel depth) script argument).run.run ∧
              ∀ history ended, Performs telling history (.done (some ended)) →
                ¬Told.NoRefusal history →
                ∃ e, ended = .error e ∧ e.code = Code.scriptFailed := by
  constructor
  · intro c slots history e changed performs expected
    obtain ⟨origin, code⟩ := g.code_of_invoke fuel c slots performs expected
    exact ⟨origin, code, not_internal c code⟩
  · intro depth shallow
    refine ⟨fun script argument => g.run_eq_runWith fuel shallow script argument, ?_, ?_,
      fun script argument => ⟨?_, ?_⟩⟩
    · intro script argument history e performs
      exact code_of_runWith fuel performs
    · intro functions run outer s history t performs
      exact called_of_hostCall fuel g depth performs
    · exact erased_tellingRun fuel _ script argument
    · intro history ended performs said
      exact tellingRun_fails fuel _ script argument performs said

namespace Dropping

open DumpChunk (global text)
open Machine

/-- A script whose finalizer calls a saved script by a name that none can have. -/
def script : ByteArray :=
  bytes (ascii ("setmetatable({}, \x7b__gc = function() internal_TA_call('', 1) end\x7d) " ++
    "collectgarbage() return 1"))

/-- The statements of the finalizer. -/
def asking : List Stmt :=
  [.expression (.call (global hostCallName 0 1) [text "", .literal (.number (.integer 1))] 1)]

def collecting : Stmt := .expression (.call (global "collectgarbage" 0 1) [] 1)

def chunk : Function := .mk 0 true [marking asking, collecting, Preferring.one]

theorem read_script : Chunk.read script = .ok chunk := read_of_readsAs (by decide +kernel)

/-- The heap with the script and its argument. -/
def ready (h : Heap) : Heap :=
  (h.loaded chunk scriptChunk).set Heap.globals (.ofText argumentName) (.integer 0)

/-- The heap after the first statement. -/
def marked (h : Heap) : Heap :=
  (ready h).withFinalizer
    ⟨.mk 0 false asking, [h.cells.size], Chunk.shownName scriptChunk.toUTF8⟩

/-- The heap in which the collector calls the finalizer. -/
def finalizing (h : Heap) : Heap := (marked h).cycling.unmark (ready h).tables.size

/-- What the script sees with these arguments, and its finalizer without any. -/
def env (h : Heap) (varargs : List Value) : Env :=
  ⟨[h.cells.size], varargs, Chunk.shownName scriptChunk.toUTF8⟩

/-- Where the script calls the collector. -/
def site (h : Heap) : Site := callSite (env h [.integer 0]) (global "collectgarbage" 0 1) 1

/-- Where the finalizer calls the function of the host. -/
def asked (h : Heap) : Site := callSite (env h []) (global hostCallName 0 1) 1

def waiting (h : Heap) : Frame :=
  .call (site h) fun _ heap => execList (env h [.integer 0]) [Preferring.one] heap

def finalizer (h : Heap) : Frame := .call (asked h) fun _ heap => execList (env h []) [] heap

/-- The guard that the collector sets around a finalizer. -/
def cycle : Frame := .guard Site.native none fun _ heap => .done (.ret [.integer 0]) heap.cycled

section Runs

variable {h : Heap} {outer : Depth} (plain : h.Plain Heap.globals)

include plain

theorem plain_ready : (ready h).Plain Heap.globals := (plain.loaded chunk scriptChunk).set _ _ _

theorem get_ready {id : TableId} {key : Value}
    (other : (id, key.toKey) ≠ (Heap.globals, .ofText argumentName)) :
    (ready h).get id key = h.get id key :=
  Heap.get_loaded_set_of_ne plain chunk scriptChunk _ other

theorem unmodified_ready (library : h.Unmodified) : (ready h).Unmodified := by
  have intact := library.intact
  obtain ⟨t, stored, silent⟩ := library.shown
  refine ⟨?_, (get_ready plain (by decide)).trans library.error, t, ?_, silent⟩
  · constructor <;> rw [get_ready plain (by decide)]
    exacts [intact.type, intact.tostring, intact.pairs, intact.string, intact.table, intact.byte,
      intact.format, intact.gsub, intact.concat, intact.sort]
  · rw [ready, Heap.set, Array.getElem?_modify, if_neg (by decide)]
    exact stored

omit plain in
theorem tables_finalizing : (finalizing h).tables = (marked h).tables := rfl

omit plain in
theorem kept_marked (id : TableId) (t : Table) (stored : (ready h).tables[id]? = some t) :
    (marked h).tables[id]? = some t := by
  rw [marked]
  exact (ready h).kept_withFinalizer _ id t stored

omit plain in
theorem kept_finalizing (id : TableId) (t : Table) (stored : (ready h).tables[id]? = some t) :
    (finalizing h).tables[id]? = some t := by
  rw [tables_finalizing]
  exact kept_marked id t stored

omit plain in
theorem bound_marked : (marked h).cells[h.cells.size]? = some (.table Heap.globals) := by
  rw [marked, Heap.cells_withFinalizer]
  exact h.bound_loaded chunk scriptChunk

omit plain in
theorem bound_finalizing : (finalizing h).cells[h.cells.size]? = some (.table Heap.globals) := by
  have same : (finalizing h).cells = (marked h).cells := rfl
  rw [same, bound_marked]

omit plain in
theorem marked_finalizing (fresh : h.collector = {}) : (finalizing h).collector.marked = [] := by
  have unfolded : (finalizing h).collector.marked =
      ((ready h).tables.size :: h.collector.marked).filter (· != (ready h).tables.size) := rfl
  rw [unfolded, fresh]
  simp

theorem get_marked {key : Value}
    (other : (Heap.globals, key.toKey) ≠ (Heap.globals, .ofText argumentName)) :
    (marked h).get Heap.globals key = h.get Heap.globals key := by
  obtain ⟨t, stored, -⟩ := plain_ready plain
  rw [Heap.get_eq (kept_marked _ _ stored), ← Heap.get_eq stored, get_ready plain other]

omit plain in
/-- A failure of the call leaves the finalizer, and the script goes on after the cycle. -/
theorem goes_on (f : Value) (args : List Value) (start : Heap) (error : Value) (heap : Heap)
    (depth : Depth) :
    ∃ depth', Reaches
      ⟨finalizer h :: cycle :: waiting h :: (Machine.ofCall outer f args start).frames, depth,
        .step (.raise error heap)⟩
      ⟨[], depth', .step (.done (.ret [.integer 1]) heap.cycled)⟩ := by
  let bottom := (Machine.ofCall outer f args start).frames
  have passes : ∀ frame ∈ [finalizer h], frame.Passes := by
    rintro frame mem
    cases List.mem_singleton.1 mem
    exact .call (asked h) _
  obtain ⟨depth, drops⟩ := guarded passes (waiting h :: bottom) Site.native
    (fun _ heap => .done (.ret [.integer 0]) heap.cycled) error heap depth
  have resumes : Reaches _ ⟨bottom, depth.leave (site h),
      .step (execList (env h [.integer 0]) [Preferring.one] heap.cycled)⟩ :=
    drops.trans (.move rfl (.refl _))
  have returns : Gives (depth.leave (site h))
      (execList (env h [.integer 0]) [Preferring.one] heap.cycled) _ _ :=
    Preferring.gives_one
  exact ⟨_, (resumes.trans (returns.reaches bottom)).trans (.move rfl (.refl _))⟩

/-- The collector calls the finalizer, which calls the host. -/
theorem reaches_host (fresh : h.collector = {}) (eager : h.circumstances = .eager)
    (host : h.get Heap.globals (.ofAscii hostCallName) = .host 0) {depth : Depth}
    (inside : depth.Admits 1 3) (frames : List Frame) :
    Reaches
      ⟨frames, depth, .step ((Collector.collect [] (marked h)).bind fun _ h =>
        .done (.ret [.integer 0]) h)⟩
      ⟨finalizer h :: cycle :: frames, (depth.enter Site.native).enter (asked h),
        .invoke ⟨.host 0, [.ofText "", .integer 1], asked h⟩ (finalizing h)⟩ := by
  have one : (marked h).unused [] = [(ready h).tables.size] := by
    rw [Heap.unused_eager (h := marked h) eager]
    exact congrArg ((ready h).tables.size :: ·) (congrArg Collector.marked fresh)
  have within : (depth.enter Site.native).Admits 1 2 := inside.enter_nested rfl
  have finalizes := Collector.reaches_finalizer (k := fun _ h => .done (.ret [.integer 0]) h)
    frames (within.mono (by omega) (by omega)) one
    ((ready h).metamethod_withFinalizer _) ((ready h).stored_withFinalizer _)
  have function : evalExpr (env h []) (global hostCallName 0 1) (finalizing h) =
      .done (.host 0) (finalizing h) := by
    refine DumpChunk.eval_global hostCallName 0 1 (.cons bound_finalizing .nil) rfl ?_ rfl
    rw [Heap.get_of_tables tables_finalizing]
    exact (get_marked plain (by decide)).trans host
  have given : evalList (env h []) [text "", .literal (.number (.integer 1))] (finalizing h) =
      .done [.ofText "", .integer 1] (finalizing h) :=
    evalList_cons (DumpChunk.eval_text "") (evalList_one rfl (evalExpr_literal _ _ _))
  have asks : execList (env h []) asking (finalizing h) = _ :=
    execList_expression_call function given 1 []
  have deepest := within.enter_call (nested_callSite (env h []) (global hostCallName 0 1) 1)
  exact finalizes.trans (asks ▸ Reaches.call (deepest.mono le_rfl (by omega)))

variable (room : (hostDepth outer).Admits 2 3) (fresh : h.collector = {})
  (eager : h.circumstances = .eager)
  (setmetatable : h.get Heap.globals (.ofAscii "setmetatable") = .builtin .setmetatable)
  (collectgarbage : h.get Heap.globals (.ofAscii "collectgarbage") = .builtin .collectgarbage)
  (host : h.get Heap.globals (.ofAscii hostCallName) = .host 0)

include room fresh eager setmetatable collectgarbage host

omit eager host in
/-- The script marks a table, and then has the collector look for it. -/
theorem reaches_collector :
    Reaches (.ofCall outer (.closure h.closures.size) [.integer 0] (ready h))
      ⟨waiting h :: (Machine.ofCall outer (.closure h.closures.size) [.integer 0] (ready h)).frames,
        (hostDepth outer).enter (site h),
        .step ((Collector.collect [] (marked h)).bind fun _ h => .done (.ret [.integer 0]) h)⟩ := by
  have bound : (ready h).cells[h.cells.size]? = some (.table Heap.globals) :=
    h.bound_loaded chunk scriptChunk
  have starts : Reaches _
      ⟨_, hostDepth outer, .step (execList (env h [.integer 0]) chunk.body (ready h))⟩ :=
    reaches_body (h := ready h) (h.stored_loaded chunk scriptChunk) outer [.integer 0]
  have marks : Gives (hostDepth outer) (exec (env h [.integer 0]) (marking asking) (ready h))
      (.next (env h [.integer 0])) (marked h) :=
    gives_marking (.cons bound .nil) (room.mono (by omega) (by omega))
      ((get_ready plain (by decide)).trans setmetatable) (congrArg Collector.closing fresh)
      (congrArg Collector.marked fresh)
  have found : evalExpr (env h [.integer 0]) (global "collectgarbage" 0 1) (marked h) =
      .done (.builtin .collectgarbage) (marked h) := by
    refine DumpChunk.eval_global "collectgarbage" 0 1 (.cons bound_marked .nil) rfl ?_ rfl
    exact (get_marked plain (by decide)).trans collectgarbage
  have nothing : evalList (env h [.integer 0]) [] (marked h) = .done [] (marked h) := by
    rw [evalList]
    rfl
  have collects : execList (env h [.integer 0]) [collecting, Preferring.one] (marked h) = _ :=
    execList_expression_call found nothing 1 [Preferring.one]
  have inside : ((hostDepth outer).enter (site h)).Admits 1 3 :=
    room.enter_call (nested_callSite _ _ 1)
  have invoked : ∀ frames, (Machine.mk frames ((hostDepth outer).enter (site h))
      (.invoke ⟨.builtin .collectgarbage, [], site h⟩ (marked h))).next =
        .more ⟨frames, (hostDepth outer).enter (site h),
          .step ((Collector.collect [] (marked h)).bind fun _ h =>
            .done (.ret [.integer 0]) h)⟩ := by
    intro frames
    have idle : (marked h).collector.finalizing = false := congrArg Collector.finalizing fresh
    simp only [Machine.next, invoke, native, Collector.run_collectgarbage idle, Step.bind_assoc]
    rfl
  have enters : ((hostDepth outer).enter (site h)).Admits 0 0 :=
    inside.mono (by omega) (by omega)
  exact (starts.trans (reaches_stmts marks _ _)).trans
    (collects ▸ (Reaches.call enters).trans (.move (invoked _) (.refl _)))

/-- The script comes to the call in its finalizer.  If that fails, the collector drops the
failure, and the script comes to the number one. -/
theorem reaches_call : ∃ c : HostCall, ∃ machine : Machine,
    c.host = 0 ∧ c.args = [.ofText "", .integer 1] ∧ c.heap = finalizing h ∧
      c.depth.nested + 2 < Depth.nestedLimit ∧ machine.next = .waits c ∧
      Reaches (.ofCall outer (.closure h.closures.size) [.integer 0] (ready h)) machine ∧
      ∀ error heap, ∃ depth, Reaches (c.resume (.error error) heap)
        ⟨[], depth, .step (.done (.ret [.integer 1]) heap.cycled)⟩ := by
  let start := Machine.ofCall outer (.closure h.closures.size) [.integer 0] (ready h)
  have inside : ((hostDepth outer).enter (site h)).Admits 1 3 :=
    room.enter_call (nested_callSite _ _ 1)
  have reaches := (reaches_collector plain room fresh setmetatable collectgarbage).trans
    (reaches_host plain fresh eager host inside (waiting h :: start.frames))
  let within := ((hostDepth outer).enter (site h)).enter Site.native
  have deep : within.Admits 1 2 := inside.enter_nested rfl
  have deepest := deep.enter_call (nested_callSite (env h []) (global hostCallName 0 1) 1)
  let c : HostCall :=
    ⟨0, [.ofText "", .integer 1], finalizing h, finalizer h :: cycle :: waiting h :: start.frames,
      within.enter (asked h)⟩
  exact ⟨c, _, rfl, rfl, rfl, deepest.2, rfl, reaches,
    fun error heap => goes_on (.closure h.closures.size) [.integer 0] (ready h) error heap c.depth⟩

/-- So the number one is what the script comes to where the call is answered with a failure. -/
theorem drops {σ : Type} (answer : (op : PlatformOp) → StateM σ op.Answer)
    (library : (ready h).Unmodified) (silent : h.output = bytes []) (reason : String) :
    ∃ machine c moves, ∃ h' : Heap,
      Reaches (.ofCall outer (.closure h.closures.size) [.integer 0] (ready h)) machine ∧
        Calls [⟨2, hostCall⟩] machine c (.ofText "") (.integer 1) ∧
        Comes c.depth marshalled ⟨c.heap, [.integer 1, .ofText ""]⟩ ⟨"", .number 1⟩ ⟨c.heap, []⟩ ∧
        c.heap.output = bytes [] ∧ h'.collector.marked = [] ∧
        ∀ {around : Surroundings NestedCall (Program platformInterface)} {w w₁ : σ},
          around.functions = [⟨2, hostCall⟩] →
          ComesTo (I := platformInterface) answer (around.answer (bytes []) ⟨"", .number 1⟩) w
            (.error reason) w₁ →
          ∀ fuel, moves ≤ fuel → ComesTo (I := platformInterface) answer
            (around.drive fuel (.ofCall outer (.closure h.closures.size) [.integer 0] (ready h))) w
            (.finished [.integer 1] h') w₁ := by
  obtain ⟨c, machine, first, args, heap, deep, waits, reaches, goesOn⟩ :=
    reaches_call plain room fresh eager setmetatable collectgarbage host
  have calls : Calls [⟨2, hostCall⟩] machine c (.ofText "") (.integer 1) := by
    refine ⟨waits, by rw [first]; rfl, by rw [args]; rfl, ?_, deep⟩
    rw [heap]
    exact library.mono kept_finalizing
  have takes : Comes c.depth marshalled ⟨c.heap, [.integer 1, .ofText ""]⟩
      ⟨"", .number 1⟩ ⟨c.heap, []⟩ :=
    marshalled_comes (encode_number rfl rfl)
  have printed : c.heap.output = bytes [] := by
    rw [heap]
    exact silent
  let e : EngineError := .hostCall hostCallName reason
  let failed := c.heap.flushed.newFailure e.asFailure
  obtain ⟨depth, ends⟩ := goesOn failed.1 failed.2
  obtain ⟨m₁, begins⟩ := drive_reaches reaches
  obtain ⟨m₂, fails⟩ := calls.drive_fails takes answer
  let outcome : Outcome := .finished [.integer 1] failed.2.cycled
  obtain ⟨m₃, finishes⟩ := drive_of_reaches ends fun {Q m _} (around : Surroundings Q m) fuel =>
    show around.drive (fuel + 1) _ = pure outcome from rfl
  refine ⟨machine, c, m₁ + max m₂ m₃ + 1, failed.2.cycled, reaches, calls, takes, printed, ?_,
    fun {around w w₁} bound answered fuel enough => ?_⟩
  · have kept : failed.2.cycled.collector.marked = c.heap.collector.marked := rfl
    rw [kept, heap, marked_finalizing fresh]
  · obtain ⟨rest, rfl⟩ : ∃ n, fuel = n + 1 + m₁ := ⟨fuel - m₁ - 1, by omega⟩
    rw [begins, fails bound rest (by omega) (printed ▸ answered)]
    exact (finishes around rest (by omega)).symm ▸ Program.comesTo_pure.2 ⟨rfl, rfl⟩

omit room fresh eager setmetatable collectgarbage host in
/-- The program that runs the script on the number zero comes to what the script comes to. -/
theorem evaluates {σ : Type} (answer : (op : PlatformOp) → StateM σ op.Answer) (h' : Heap) :
    ∃ moves, ∀ answers fuel (w w₁ : σ), moves ≤ fuel →
      ComesTo (I := platformInterface) answer ((Surroundings.mk [⟨2, hostCall⟩] answers).drive fuel
        (.ofCall (.outermost h.circumstances.callLimit) (.closure h.closures.size)
          [.integer 0] (ready h)))
        w (.finished [.integer 1] h') w₁ →
      ComesTo (I := platformInterface) answer
        ((⟨⟨h, []⟩, [⟨2, hostCall⟩]⟩ : Interpreter NestedCall).evaluate fuel answers
          (execute script (.number 0)))
        w (.ok (.number 1), ⟨⟨h', []⟩, [⟨2, hostCall⟩]⟩) w₁ := by
  let functions : List (HostFunction NestedCall) := [⟨2, hostCall⟩]
  have there : Heap.globals < h.tables.size := by
    obtain ⟨t, stored, -⟩ := plain
    exact (Array.getElem?_eq_some_iff.1 stored).1
  obtain ⟨moves, encodes⟩ := Comes.run (i := ⟨⟨h', [.integer 1]⟩, functions⟩)
    (encode_number (v := .integer 1) rfl rfl)
  refine ⟨moves, fun answers fuel w w₁ enough drives => ?_⟩
  have given :
    ((⟨⟨h, []⟩, functions⟩ : Interpreter NestedCall).loaded chunk scriptChunk).evaluate fuel
      answers (decode (.number 0)) =
        pure (.ok (),
          ⟨⟨h.loaded chunk scriptChunk, [.integer 0, .closure h.closures.size]⟩, functions⟩) :=
    Interpreter.evaluate_op_eq _ fuel answers (o := .pushInteger 0) rfl
  have applies := Interpreter.evaluate_applied (h := h.loaded chunk scriptChunk) fuel answers there
    (plain.loaded chunk scriptChunk).bare (.integer 0) h.closures.size functions
  rw [Interpreter.evaluate_execute _ fuel _ there read_script, given, pure_bind]
  have rest : ComesTo (I := platformInterface) answer
      ((⟨⟨h', [.integer 1]⟩, functions⟩ : Interpreter NestedCall).evaluate fuel answers encode) w₁
      (.ok (.number 1), ⟨⟨h', []⟩, functions⟩) w₁ :=
    (encodes answers fuel enough).symm ▸ Program.comesTo_pure.2 ⟨rfl, rfl⟩
  exact Eq.mpr (congrArg (ComesTo (I := platformInterface) answer · w _ w₁) applies)
    ((Program.comesTo_bind_of drives).2 rest)

end Runs

/-- A host whose collector is eager. -/
def host : Host := { process := { root := none, circumstances := fun _ => .eager } }

/-- The host while the script runs. -/
def running : Host := { host with interpreters := 1 }

theorem admits : (Host.answer .admitInterpreter).run host = (.ok .eager, running) := rfl

/-- The call with the number zero. -/
def call : RunSlots := ⟨script, ⟨0, 0⟩, ⟨0, 0⟩, bytes []⟩

/-- The call of the finalizer is refused, since no script has such a name. -/
theorem refuses : ∃ e, ∀ fuel s, ComesTo (I := platformInterface) Host.answer
    (Preferring.gateway.callAt fuel 0 ⟨"", .number 1⟩).run s (.error e) s := by
  have below : 0 < Preferring.gateway.depthLimit := by decide
  obtain ⟨e, invalid⟩ : ∃ e, Scripts.checkName Preferring.gateway.nameLimit "".toUTF8 = .error e :=
    ⟨_, rfl⟩
  refine ⟨.ofStore e, fun fuel s => ?_⟩
  have loads : ComesTo (I := platformInterface) Host.answer
      (Preferring.gateway.loadScript "".toUTF8).run s (.error (.ofStore e)) s := by
    unfold loadScript Scripts.load
    rw [invalid]
    exact Program.comesTo_pure.2 ⟨rfl, rfl⟩
  rw [Preferring.gateway.callAt_below fuel below, ExceptT.run_bind]
  exact Program.comesTo_bind.2 ⟨_, _, loads, Program.comesTo_pure.2 ⟨rfl, rfl⟩⟩

theorem runWith_one : ∃ fuel machine c w,
    Reaches
      (.ofCall (.outermost Circumstances.eager.callLimit) (.closure (equipped .eager).closures.size)
        [.integer 0] (ready (equipped .eager))) machine ∧
      Calls [⟨2, hostCall⟩] machine c (.ofText "") (.integer 1) ∧
      (∃ w, GetsError Host.answer ⟨[⟨2, hostCall⟩], Preferring.gateway.answersAt fuel 0⟩ machine
        c running w) ∧
      ComesTo (I := platformInterface) Host.answer
        (runWith fuel (Preferring.gateway.callers fuel) script (.number 0)).run host
          (.ok (.number 1)) w := by
  let start := equipped .eager
  have plain : start.Plain Heap.globals := plain_equipped .eager
  have room := Interpreter.admits_outermost (Q := NestedCall) ⟨⟨start, []⟩, []⟩ 2 3 (by omega)
    (by decide)
  have collectgarbage : start.get Heap.globals (.ofAscii "collectgarbage") =
      .builtin .collectgarbage := by
    rw [global_equipped .eager (by decide) (by decide)]
    decide +kernel
  obtain ⟨e, refuses⟩ := refuses
  obtain ⟨machine, c, m₁, h', reaches, calls, takes, silent, unmarked, drives⟩ :=
    drops plain room (collector_equipped .eager) rfl
      (setmetatable_equipped .eager) collectgarbage
      (host_equipped .eager) Host.answer (unmodified_ready plain (unmodified_equipped .eager))
      (silent_equipped .eager) e.message
  obtain ⟨m₂, evaluates⟩ := evaluates plain Host.answer h'
  let fuel := max m₁ m₂
  have failed : ∀ s, ComesTo (I := platformInterface) Host.answer
      (Preferring.gateway.callers fuel (bytes []) ⟨"", .number 1⟩) s (.error e.message)
      (Platform.printed Host.answer (bytes []) s) := fun s =>
    Preferring.gateway.answersAt_comesTo fuel 0 (refuses fuel _)
  let around : Surroundings NestedCall (Program platformInterface) :=
    ⟨[⟨2, hostCall⟩], Preferring.gateway.callers fuel⟩
  have answered : ComesTo (I := platformInterface) Host.answer
      (around.answer (bytes []) ⟨"", .number 1⟩) running (.error e.message) _ := failed running
  have comes := evaluates _ fuel _ _ (by omega) (drives rfl answered fuel (by omega))
  exact ⟨fuel, machine, c, _, reaches, calls,
    ⟨_, calls.getsError_of_reply takes rfl (.refl _ _) (silent ▸ failed running)⟩,
    runWith_ends admits comes unmarked⟩

end Dropping

open Dropping Machine Preferring in
/-- A script without guard, whose finalizer makes a nested call that fails.  The collector drops the
failure, and the command that runs the script succeeds. -/
theorem finalizer_drops_failure : Chunk.read Dropping.script = .ok Dropping.chunk ∧
    ∃ fuel machine c w changed,
    Reaches
      (.ofCall (.outermost Circumstances.eager.callLimit) (.closure (equipped .eager).closures.size)
        [.integer 0] (ready (equipped .eager))) machine ∧
      Calls [⟨2, hostCall⟩] machine c (.ofText "") (.integer 1) ∧
      (∃ w, GetsError Host.answer ⟨[⟨2, hostCall⟩], gateway.answersAt fuel 0⟩
        machine c Dropping.running w) ∧
      ComesTo (I := platformInterface) Host.answer
        (Session.invoke ⟨true⟩ gateway fuel Command.runInline.id call.slots) Dropping.host
          (.ok (), changed) w := by
  obtain ⟨fuel, machine, c, w, reaches, calls, fails, runs⟩ := runWith_one
  let changed := (gateway.concluded call (.ok (.number 1))).2
  refine ⟨Dropping.read_script, fuel, machine, c, w, changed, reaches, calls, fails, ?_⟩
  have requested : gateway.runRequest fuel call false =
      runWith fuel (gateway.callers fuel) Dropping.script (.number 0) := by
    rw [← gateway.run_depthLimit fuel Dropping.script]
    rfl
  have dispatched : ComesTo (I := platformInterface) Host.answer
      (gateway.dispatch fuel Command.runInline.id call.slots) Dropping.host
      (.ok (), changed) w := by
    have asked : gateway.dispatch fuel Command.runInline.id call.slots =
        gateway.carryOut fuel (.runInline call) := gateway.dispatch_request fuel (.runInline call)
    rw [asked]
    exact Program.comesTo_map.2 ⟨_, requested ▸ runs, rfl⟩
  exact (Program.comesTo_bind_of dispatched).2 (Program.comesTo_pure.2 ⟨rfl, rfl⟩)

end Gateway
end SealedLua
