import SealedLua.Proofs.Gateway.Reads
import SealedLua.Proofs.Gateway.Requests
import SealedLua.Proofs.Storage.Records

/-!
# What the store holds

A caller opens sessions, gives commands in them and closes them, in any order.
After any such calls the store holds under a name what the last successful save
of that name put there.  One lemma says what a call does to the objects of
storage (`serve_objects`); the rest is an induction on the calls.  A call that
has not ended with its fuel is among them: it has read, and nothing else.
-/

namespace SealedLua

open Program (Only)

inductive SessionCall where
  | openSession (uuid : Uuid) (slots : Slots)
  /-- Gives a command, with so much fuel for scripts. -/
  | invoke (fuel : Nat) (session command : UInt32) (slots : Slots)
  | closeSession (session : UInt32)

inductive SessionReply where
  | opened (result : Except ErrorCode UInt32)
  /-- The end of a command, if it came to one. -/
  | invoked (ended : Option (Except ErrorCode Unit × Slots))
  | closed (result : Except ErrorCode Unit)

/-- A call with its reply. -/
structure Exchange where
  call : SessionCall
  reply : SessionReply

variable {σ : Type} {answer : (op : PlatformOp) → StateM σ op.Answer}

theorem Work.run_ofPlatform {α ε : Type} (convert : ε → GatewayError)
    (p : Platform (Except ε α)) (s : σ) :
    (Program.run (I := platformInterface) answer (Work.ofPlatform convert p).run.run).run s =
      (some (((Program.run (I := platformInterface) answer p).run s).1.mapError convert),
        ((Program.run (I := platformInterface) answer p).run s).2) := by
  have hinner :
    (Program.run (I := platformInterface) answer (do return (← p).mapError convert)).run s =
      (((Program.run (I := platformInterface) answer p).run s).1.mapError convert,
        ((Program.run (I := platformInterface) answer p).run s).2) :=
    Program.run_bind_run (I := platformInterface) p _ s
  refine (Program.run_bind_run (I := platformInterface) _ _ s).trans ?_
  rw [hinner]
  rfl

namespace SessionManager

def serve (g : Gateway) (answer : (op : PlatformOp) → StateM σ op.Answer) (call : SessionCall)
    (m : SessionManager) (s : σ) : SessionReply × SessionManager × σ :=
  match call with
  | .openSession uuid slots =>
    (.opened (m.openSession uuid slots).1, (m.openSession uuid slots).2, s)
  | .invoke fuel session command slots =>
    let ended :=
      (Program.run (I := platformInterface) answer
        (m.invoke g fuel session command slots).run).run s
    (.invoked ended.1, m, ended.2)
  | .closeSession session => (.closed (m.closeSession session).1, (m.closeSession session).2, s)

/-- Serves calls one after the other. -/
def serveAll (g : Gateway) (answer : (op : PlatformOp) → StateM σ op.Answer) :
    List SessionCall → SessionManager → σ → List Exchange × SessionManager × σ
  | [], m, s => ([], m, s)
  | call :: rest, m, s =>
    let (reply, m, s) := serve g answer call m s
    let (exchanges, m, s) := serveAll g answer rest m s
    (⟨call, reply⟩ :: exchanges, m, s)

end SessionManager

namespace Gateway

/-- The name and the body of the script that slots ask to save: the slot's bytes
if the mode is zero, and what a sealed payload opens to otherwise. -/
def scriptToSave (g : Gateway) (slots : Slots) : Option (ByteArray × ByteArray) :=
  match slots with
  | ⟨.buffer _ name, .buffer _ script, .value _ mode, _⟩ =>
    if mode.a = 0 then some (name, script)
    else
      match Payload.decrypt g.secret script with
      | .ok body => some (name, body)
      | .error _ => none
  | _ => none

/-- What an exchange saved: only the third command saves, and only if it succeeds. -/
def saved (g : Gateway) : Exchange → Option (ByteArray × ByteArray)
  | ⟨.invoke _ _ command slots, .invoked (some (.ok (), _))⟩ =>
    if command = 3 then g.scriptToSave slots else none
  | _ => none

def savedUnder (g : Gateway) (name : ByteArray) (e : Exchange) : Option ByteArray :=
  match g.saved e with
  | some (other, body) => if other = name then some body else none
  | none => none

def lastSaved (g : Gateway) (name : ByteArray) : List Exchange → Option ByteArray
  | [] => none
  | e :: rest => (g.lastSaved name rest).or (g.savedUnder name e)

theorem saved_invoke_of_ne (g : Gateway) (fuel : Nat) (session : UInt32)
    {id : UInt32} (hid : id ≠ 3) (slots : Slots) (reply : SessionReply) :
    g.saved ⟨.invoke fuel session id slots, reply⟩ = none := by
  unfold saved
  split
  case h_1 heq =>
    cases heq
    exact if_neg hid
  case h_2 => rfl

/-- How the objects of storage change with what was saved. -/
def Stores (storage : ReliableStorage answer) (limit : Nat) (s t : σ) :
    Option (ByteArray × ByteArray) → Prop
  | none => storage.object t = storage.object s
  | some (name, body) => ∃ text, Scripts.checkName limit name = .ok text ∧
      ∀ other, storage.object t (Scripts.recordId other) =
        if other = text then some body else storage.object s (Scripts.recordId other)

/-- A record after an exchange is what the exchange saved under its name, or what it was. -/
theorem Stores.record {storage : ReliableStorage answer} {g : Gateway} {s t : σ} {e : Exchange}
    (h : Stores storage g.nameLimit s t (g.saved e)) {name : ByteArray} {text : String}
    (hname : Scripts.checkName g.nameLimit name = .ok text) :
    storage.object t (Scripts.recordId text) =
      (g.savedUnder name e).or (storage.object s (Scripts.recordId text)) := by
  unfold savedUnder
  cases hsaved : g.saved e with
  | none =>
    rw [hsaved] at h
    exact congrFun h _
  | some x =>
    obtain ⟨other, body⟩ := x
    rw [hsaved] at h
    obtain ⟨otherText, hother, hobject⟩ := h
    rw [hobject text]
    by_cases heq : other = name
    · subst heq
      have htext : text = otherText := by
        rw [hname] at hother
        exact Except.ok.inj hother
      simp [htext]
    · have htext : text ≠ otherText := by
        intro htext
        apply heq
        rw [← Scripts.checkName_eq_ok hother, ← Scripts.checkName_eq_ok hname, htext]
      simp [htext, heq]

/-- Saving fails before storage is touched, or puts down the opened body. -/
theorem run_save (g : Gateway) (storage : ReliableStorage answer) {s : σ} (hs : storage.works s)
    (name script : ByteArray) (isSealed : Bool) :
    (∃ e,
      (Program.run (I := platformInterface) answer (g.save name script isSealed).run.run).run s =
        (some (.error e), s)) ∨
      ∃ body t, g.unsealed isSealed script = .ok body ∧
        (Program.run (I := platformInterface) answer (g.save name script isSealed).run.run).run s =
          (some (.ok ()), t) ∧ storage.works t ∧
            Stores storage g.nameLimit s t (some (name, body)) := by
  unfold save
  cases hname : Scripts.checkName g.nameLimit name with
  | error e => exact .inl ⟨_, rfl⟩
  | ok text =>
    cases hbody : g.unsealed isSealed script with
    | error e => exact .inl ⟨_, rfl⟩
    | ok body =>
      obtain ⟨t, hrun, ht, hobject⟩ := Scripts.run_save storage hname body hs
      refine .inr ⟨body, t, rfl, ?_, ht, text, hname, hobject⟩
      refine (Work.run_ofPlatform _ _ s).trans ?_
      rw [hrun]
      rfl

theorem unsealed_eq_ok {g : Gateway} {mode : Words} {name script body : ByteArray}
    {d e f : Direction} {fourth : Slot} (h : g.unsealed (mode.a != 0) script = .ok body) :
    g.scriptToSave ⟨.buffer d name, .buffer e script, .value f mode, fourth⟩ =
      some (name, body) := by
  unfold unsealed at h
  by_cases hmode : mode.a = 0
  · simp only [hmode, bne_self_eq_false, Bool.false_eq_true, if_false] at h
    cases h
    simp only [scriptToSave, if_pos hmode]
  · have hne : (mode.a != 0) = true := bne_iff_ne.2 hmode
    simp only [hne, if_true] at h
    cases hopen : Payload.decrypt g.secret script with
    | error e =>
      rw [hopen] at h
      cases h
    | ok opened =>
      rw [hopen] at h
      cases h
      simp only [scriptToSave, if_neg hmode, hopen]

/-- The command that saves leaves the slots, and stores what the slots ask to save. -/
theorem dispatch_save (g : Gateway) (storage : ReliableStorage answer)
    {s : σ} (hs : storage.works s) (fuel : Nat) (slots : Slots) :
    ∃ ended t, (Program.run (I := platformInterface) answer (g.dispatch fuel 3 slots).run).run s =
        (some (ended, slots), t) ∧ storage.works t ∧
      Stores storage g.nameLimit s t (match ended with
        | .ok () => g.scriptToSave slots
        | .error _ => none) := by
  by_cases htypes : slots.types = Command.save.signature
  · obtain ⟨x, rfl⟩ := SaveSlots.exists_eq_slots htypes
    have hdispatch : g.dispatch fuel 3 x.slots = g.carryOut fuel (.save x) :=
      g.dispatch_request fuel (.save x)
    rw [hdispatch]
    rcases g.run_save storage hs x.name x.script (x.mode.a != 0) with
      ⟨e, hrun⟩ | ⟨body, t, hbody, hrun, ht, hstores⟩
    · exact ⟨.error e, s, (Program.comesTo_map (I := platformInterface)).2
        ⟨.error e, hrun, rfl⟩, hs, rfl⟩
    · refine ⟨.ok (), t, (Program.comesTo_map (I := platformInterface)).2
        ⟨.ok (), hrun, rfl⟩, ht, ?_⟩
      have hasked : g.scriptToSave x.slots = some (x.name, body) := unsealed_eq_ok hbody
      rw [hasked]
      exact hstores
  · obtain ⟨reason, hdispatch⟩ : ∃ reason, g.dispatch fuel 3 slots =
        pure (.error (.badParameters reason), slots) :=
      ⟨_, g.dispatch_mismatch fuel .save htypes⟩
    rw [hdispatch]
    exact ⟨.error (.badParameters reason), s, rfl, hs, rfl⟩

/-- Reads leave the objects, whether or not the program comes to an end. -/
theorem reads_keep_objects (storage : ReliableStorage answer) {α : Type} {p : Platform α}
    (hp : Only Reads p) {s : σ} (hs : storage.works s) :
    storage.works ((Program.run (I := platformInterface) answer p).run s).2 ∧
      storage.object ((Program.run (I := platformInterface) answer p).run s).2 =
        storage.object s := by
  refine hp.keeps (fun t => storage.works t ∧ storage.object t = storage.object s) ?_ ⟨hs, rfl⟩
  rintro op t hop ⟨ht, hobject⟩
  cases hop with
  | openRead id =>
    obtain ⟨u, hu, hworks, hsame⟩ := storage.openRead t id ht
    exact hu ▸ ⟨hworks, hsame.trans hobject⟩
  | admitInterpreter =>
    obtain ⟨admitted, u, hu, hworks, hsame⟩ := storage.admitInterpreter t ht
    exact hu ▸ ⟨hworks, hsame.trans hobject⟩
  | print text =>
    obtain ⟨u, hu, hworks, hsame⟩ := storage.print t text ht
    exact hu ▸ ⟨hworks, hsame.trans hobject⟩

end Gateway

namespace SessionManager

/-- A command other than saving only reads, in whatever session it is given. -/
theorem invoke_only (m : SessionManager) (g : Gateway) (fuel : Nat) (session : UInt32) {id : UInt32}
    (hid : id ≠ 3) (slots : Slots) : Only Reads (m.invoke g fuel session id slots).run := by
  unfold invoke
  split
  · unfold Session.invoke
    split
    · refine Only.bindOption (Gateway.dispatch_only g fuel slots hid) fun ended => ?_
      split <;> exact .done _
    · exact .done _
  · exact .done _

/-- Saving in a session stores what the slots ask to save, if it succeeds. -/
theorem invoke_save (m : SessionManager) (g : Gateway) (storage : ReliableStorage answer) {s : σ}
    (hs : storage.works s) (fuel : Nat) (session : UInt32) (slots : Slots) :
    ∃ ended t,
      (Program.run (I := platformInterface) answer (m.invoke g fuel session 3 slots).run).run s =
        (some (ended, slots), t) ∧ storage.works t ∧
      Gateway.Stores storage g.nameLimit s t (match ended with
        | .ok () => g.scriptToSave slots
        | .error _ => none) := by
  unfold invoke
  split
  case h_2 => exact ⟨.error unavailable, s, rfl, hs, rfl⟩
  case h_1 found _ =>
    unfold Session.invoke
    split
    case isFalse => exact ⟨.error Session.closedCode, s, rfl, hs, rfl⟩
    case isTrue =>
      obtain ⟨ended, t, hrun, ht, hstores⟩ := Gateway.dispatch_save g storage hs fuel slots
      cases ended with
      | ok u =>
        exact ⟨.ok (), t, (Program.comesTo_bind (I := platformInterface)).2
          ⟨_, t, hrun, rfl⟩, ht, hstores⟩
      | error e =>
        exact ⟨.error (e.withOrigin .trustedApp), t,
          (Program.comesTo_bind (I := platformInterface)).2 ⟨_, t, hrun, rfl⟩, ht, hstores⟩

/-- What a call does to the objects of storage: it stores what it saved, and
leaves everything if it saved nothing. -/
theorem serve_objects (g : Gateway) (storage : ReliableStorage answer) (call : SessionCall)
    (m : SessionManager) {s : σ} (hs : storage.works s) :
    storage.works (serve g answer call m s).2.2 ∧
      Gateway.Stores storage g.nameLimit s (serve g answer call m s).2.2
        (g.saved ⟨call, (serve g answer call m s).1⟩) := by
  cases call with
  | openSession uuid slots => exact ⟨hs, rfl⟩
  | closeSession session => exact ⟨hs, rfl⟩
  | invoke fuel session id slots =>
    by_cases hid : id = 3
    · subst hid
      obtain ⟨ended, t, hrun, ht, hstores⟩ := m.invoke_save g storage hs fuel session slots
      simp only [serve, hrun]
      refine ⟨ht, ?_⟩
      cases ended with
      | ok u => exact hstores
      | error e => exact hstores
    · rw [g.saved_invoke_of_ne fuel session hid slots]
      exact Gateway.reads_keep_objects storage (m.invoke_only g fuel session hid slots) hs

/-- After any calls a record is the last that was saved under its name, or what
it was before the first of them. -/
theorem serveAll_objects (g : Gateway) (storage : ReliableStorage answer) (calls : List SessionCall)
    (m : SessionManager) {s : σ} (hs : storage.works s) :
    storage.works (serveAll g answer calls m s).2.2 ∧
      ∀ name text, Scripts.checkName g.nameLimit name = .ok text →
        storage.object (serveAll g answer calls m s).2.2 (Scripts.recordId text) =
          (g.lastSaved name (serveAll g answer calls m s).1).or
            (storage.object s (Scripts.recordId text)) := by
  induction calls generalizing m s with
  | nil => exact ⟨hs, fun _ _ _ => rfl⟩
  | cons call rest ih =>
    obtain ⟨hworks, hstores⟩ := serve_objects g storage call m hs
    obtain ⟨hend, hrecords⟩ := ih (serve g answer call m s).2.1 hworks
    refine ⟨hend, fun name text hname => ?_⟩
    have hrest := hrecords name text hname
    have hserve : serveAll g answer (call :: rest) m s =
        (⟨call, (serve g answer call m s).1⟩ ::
            (serveAll g answer rest (serve g answer call m s).2.1 (serve g answer call m s).2.2).1,
          (serveAll g answer rest (serve g answer call m s).2.1 (serve g answer call m s).2.2).2) :=
            rfl
    rw [hserve, hrest, hstores.record hname, Gateway.lastSaved, Option.or_assoc]

/-- What the store holds under a name after any calls on empty storage: the body
of the last save of the name that succeeded, and nothing if there was none.  A
call that saved nothing leaves every object as it was, and no command but the
one that saves asks storage for anything but reads. -/
theorem records_are_last_saved (g : Gateway) (storage : ReliableStorage answer) {s : σ}
    (hs : storage.works s) (hempty : ∀ id, storage.object s id = none) (calls : List SessionCall) :
    (∀ name, ((Program.run (I := platformInterface) answer (Scripts.load g.nameLimit name)).run
        (serveAll g answer calls empty s).2.2).1 =
      match Scripts.checkName g.nameLimit name with
      | .error e => .error e
      | .ok text =>
        match g.lastSaved name (serveAll g answer calls empty s).1 with
        | some body => .ok ⟨text, body⟩
        | none => .error (.notFound text)) ∧
    (∀ call m t, storage.works t → g.saved ⟨call, (serve g answer call m t).1⟩ = none →
      storage.object (serve g answer call m t).2.2 = storage.object t) ∧
    ∀ (m : SessionManager) fuel session id slots, id ≠ 3 →
      Only Reads (m.invoke g fuel session id slots).run := by
  refine ⟨fun name => ?_, fun call m t ht hnothing => ?_, fun m fuel session id slots hid => ?_⟩
  · obtain ⟨hworks, hrecords⟩ := serveAll_objects g storage calls empty hs
    cases hname : Scripts.checkName g.nameLimit name with
    | error e => rw [Scripts.run_load_refused hname]
    | ok text =>
      have hload := Scripts.run_load storage hname hworks
      rw [hrecords name text hname, hempty, Option.or_none] at hload
      exact hload
  · have hstores := (serve_objects g storage call m ht).2
    rw [hnothing] at hstores
    exact hstores
  · exact m.invoke_only g fuel session hid slots

/-- One session, in which the script `1` is saved under the name `f`. -/
def savingOnce : List SessionCall :=
  [.openSession Gateway.uuid {}, .invoke 0 1 3
    ⟨.buffer .input (bytes [102]), .buffer .input (bytes [49]), .value .input ⟨0, 0⟩, .none⟩]

theorem record_after_savingOnce :
    let g : Gateway := { secret := ⟨bytes (List.replicate 32 0), size_bytes _⟩ }
    let host : Host := { process := { root := none } }
    ((Program.run (I := platformInterface) Host.answer (Scripts.load g.nameLimit (bytes [102]))).run
      (serveAll g Host.answer savingOnce empty host).2.2).1 = .ok ⟨"f", bytes [49]⟩ := by
  intro g host
  have hload := (records_are_last_saved g Host.reliableStorage (s := host) ⟨rfl, rfl⟩ (fun _ => rfl)
    savingOnce).1 (bytes [102])
  have hname : Scripts.checkName g.nameLimit (bytes [102]) = .ok "f" := rfl
  have hsaved : g.lastSaved (bytes [102]) (serveAll g Host.answer savingOnce empty host).1 =
      some (bytes [49]) := by
    decide +kernel
  simp only [hname, hsaved] at hload
  exact hload

end SessionManager
end SealedLua
