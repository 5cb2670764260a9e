import SealedLua.Proofs.Engine.Slots
import SealedLua.Proofs.Storage.Reliable

/-!
# Scripts in storage that does not fail

Saving puts one record in the place of another and leaves every other record;
loading finds what was saved.  The object that a script is written to first is
never a record, since the ids of the two begin differently.
-/

namespace SealedLua.Scripts

open Function (update)

variable {σ : Type}

theorem recordId_injective {a b : String} (h : recordId a = recordId b) : a = b :=
  String.toByteArray_inj.1 ((ByteArray.append_right_inj _).1 h)

theorem stagingId_ne_recordId (serial : UInt64) (a b : String) :
    stagingId serial a ≠ recordId b := by
  intro h
  have hcodes := congrArg codes h
  simp only [stagingId, recordId, codes_append, codes_bytes] at hcodes
  have hsecond := congrArg (fun l => l[1]?) hcodes
  simp [ascii] at hsecond
  exact absurd hsecond (by decide)

theorem checkName_eq_ok {limit : Nat} {name : ByteArray} {s : String}
    (h : checkName limit name = .ok s) :
    s.toUTF8 = name := by
  unfold checkName at h
  split at h
  · cases h
  · split at h
    case h_1 hs =>
      cases h
      exact Parcel.toUTF8_of_fromUTF8? hs
    case h_2 => cases h

variable {answer : (op : PlatformOp) → StateM σ op.Answer}

theorem run_storage_bind {β : Type} {op : StorageOp} {a : op.Result} {s t : σ}
    (h : (answer (.storage op)).run s = (Except.ok a, t))
    (f : op.Result → ExceptT StoreError (Program platformInterface) β) :
    (Program.run (I := platformInterface) answer
        (ExceptT.mk (Platform.storage op) >>= f).run).run s =
      (Program.run (I := platformInterface) answer (f a).run).run t := by
  exact Program.run_ask_bind (I := platformInterface) h _

theorem run_storage_bind_error {β : Type} {op : StorageOp} {e : StoreError} {s t : σ}
    (h : (answer (.storage op)).run s = (Except.error e, t))
    (f : op.Result → ExceptT StoreError (Program platformInterface) β) :
    (Program.run (I := platformInterface) answer (ExceptT.mk (Platform.storage op) >>= f).run).run
      s = (.error e, t) := by
  exact Program.run_ask_bind (I := platformInterface) h _

/-- A program that came to a result went on from an operation that succeeded. -/
theorem exists_of_storage_bind {β : Type} {op : StorageOp}
    {f : op.Result → ExceptT StoreError (Program platformInterface) β} {b : β} {s t : σ}
    (h : (Program.run (I := platformInterface) answer (ExceptT.mk (Platform.storage op) >>=
      f).run).run s = (.ok b, t)) :
    ∃ a u, (answer (.storage op)).run s = (Except.ok a, u) ∧
      (Program.run (I := platformInterface) answer (f a).run).run u = (.ok b, t) := by
  rcases hop : (answer (.storage op)).run s with ⟨e | a, u⟩
  · rw [run_storage_bind_error hop] at h
    cases h
  · rw [run_storage_bind hop] at h
    exact ⟨a, u, rfl, h⟩

theorem exists_of_stage {staging record : ObjectId} {body : ByteArray} {s t : σ}
    (h : (Program.run (I := platformInterface) answer (stage staging record body).run).run s =
      (.ok (), t)) :
    ∃ s₁ s₂, (answer (.storage (.create staging))).run s = (Except.ok (), s₁) ∧
      (answer (.storage (.write staging body))).run s₁ = (Except.ok (), s₂) ∧
      (answer (.storage (.rename staging record))).run s₂ = (Except.ok (), t) := by
  obtain ⟨_, s₁, hcreate, h⟩ := exists_of_storage_bind h
  obtain ⟨_, s₂, hwrite, h⟩ := exists_of_storage_bind h
  have hrename : (answer (.storage (.rename staging record))).run s₂ = (Except.ok (), t) := h
  exact ⟨s₁, s₂, hcreate, hwrite, hrename⟩

/-- In storage that does not fail a record is changed in three steps. -/
theorem run_stage (storage : ReliableStorage answer) {s : σ} (hs : storage.works s)
    (staging record : ObjectId) (body : ByteArray) :
    ∃ t, (Program.run (I := platformInterface) answer (stage staging record body).run).run s =
        (.ok (), t) ∧ storage.works t ∧
      ∀ id, id ≠ staging → storage.object t id =
        update (storage.object s) record (some body) id := by
  obtain ⟨s₁, hcreate, hs₁, hobject₁⟩ := storage.create s staging hs
  have hfound₁ : storage.object s₁ staging = some (bytes []) := by
    rw [hobject₁, Function.update_self]
  obtain ⟨s₂, hwrite, hs₂, hobject₂⟩ := storage.write s₁ staging body _ hs₁ hfound₁
  have hfound₂ : storage.object s₂ staging = some body := by
    rw [hobject₂, Function.update_self, bytes_nil_append]
  obtain ⟨s₃, hrename, hs₃, hobject₃⟩ := storage.rename s₂ staging record body hs₂ hfound₂
  refine ⟨s₃, ?_, hs₃, fun id hid => ?_⟩
  · unfold stage
    exact (run_storage_bind hcreate _).trans ((run_storage_bind hwrite _).trans hrename)
  · rw [hobject₃]
    by_cases hrecord : id = record
    · subst hrecord
      rw [Function.update_self, Function.update_self]
    · rw [Function.update_of_ne hrecord, Function.update_of_ne hrecord, Function.update_of_ne hid,
        hobject₂, Function.update_of_ne hid, hobject₁, Function.update_of_ne hid]

theorem run_save_refused {limit : Nat} {name : ByteArray} {e : StoreError}
    (h : checkName limit name = .error e) (body : ByteArray) (s : σ) :
    (Program.run (I := platformInterface) answer (save limit name body)).run s = (.error e, s) := by
  rw [save, h]
  rfl

theorem run_save_of_staged {limit : Nat} {name body : ByteArray} {text : String}
    {serial : UInt64} {s s' t : σ}
    (h : checkName limit name = .ok text) (hserial : (answer .drawSerial).run s = (serial, s'))
    (hstage : (Program.run (I := platformInterface) answer
      (stage (stagingId serial text) (recordId text) body).run).run s' = (.ok (), t)) :
    (Program.run (I := platformInterface) answer (save limit name body)).run s = (.ok (), t) := by
  rw [save, h]
  refine (Program.run_ask_bind (I := platformInterface) hserial _).trans ?_
  refine (Program.run_bind_run (I := platformInterface) _ _ _).trans ?_
  rw [hstage]
  rfl

theorem run_save_of_failed {limit : Nat} {name body : ByteArray} {text : String}
    {serial : UInt64} {e : StoreError} {s s' t u : σ} {deleted : Except StoreError Unit}
    (h : checkName limit name = .ok text) (hserial : (answer .drawSerial).run s = (serial, s'))
    (hstage : (Program.run (I := platformInterface) answer
      (stage (stagingId serial text) (recordId text) body).run).run s' = (.error e, t))
    (hdelete : (answer (.storage (.delete (stagingId serial text)))).run t = (deleted, u)) :
    (Program.run (I := platformInterface) answer (save limit name body)).run s = (.error e, u) := by
  rw [save, h]
  refine (Program.run_ask_bind (I := platformInterface) hserial _).trans ?_
  refine (Program.run_bind_run (I := platformInterface) _ _ _).trans ?_
  rw [hstage]
  exact Program.run_ask_bind (I := platformInterface) hdelete _

/-- A script that was saved has a name that is fit, and all its steps succeeded. -/
theorem exists_of_save {limit : Nat} {name body : ByteArray} {s t : σ}
    (h : (Program.run (I := platformInterface) answer (save limit name body)).run s = (.ok (), t)) :
    ∃ text serial s', checkName limit name = .ok text ∧ (answer .drawSerial).run s = (serial, s') ∧
      (Program.run (I := platformInterface) answer
        (stage (stagingId serial text) (recordId text) body).run).run s' = (.ok (), t) := by
  cases hname : checkName limit name with
  | error e =>
    rw [run_save_refused hname] at h
    cases h
  | ok text =>
    rcases hserial : (answer .drawSerial).run s with ⟨serial, s'⟩
    refine ⟨text, serial, s', rfl, rfl, ?_⟩
    rcases hstage : (Program.run (I := platformInterface) answer
      (stage (stagingId serial text) (recordId text) body).run).run s' with ⟨e | _, u⟩
    · rcases hdelete : (answer (.storage (.delete (stagingId serial text)))).run u with ⟨deleted, v⟩
      rw [run_save_of_failed hname hserial hstage hdelete] at h
      cases h
    · rw [run_save_of_staged hname hserial hstage] at h
      cases h
      rfl

/-- Saving under a name that is fit changes its record and no other. -/
theorem run_save (storage : ReliableStorage answer) {limit : Nat} {name : ByteArray} {text : String}
    (h : checkName limit name = .ok text) (body : ByteArray) {s : σ} (hs : storage.works s) :
    ∃ t, (Program.run (I := platformInterface) answer (save limit name body)).run s = (.ok (), t) ∧
      storage.works t ∧ ∀ other, storage.object t (recordId other) =
        if other = text then some body else storage.object s (recordId other) := by
  obtain ⟨serial, s₁, hserial, hs₁, hobject₁⟩ := storage.drawSerial s hs
  obtain ⟨t, hstage, ht, hobject⟩ :=
    run_stage storage hs₁ (stagingId serial text) (recordId text) body
  have hrun : (Program.run (I := platformInterface) answer (save limit name body)).run s =
      (.ok (), t) :=
    run_save_of_staged h hserial hstage
  refine ⟨t, hrun, ht, fun other => ?_⟩
  have hne : recordId other ≠ stagingId serial text := fun heq =>
    stagingId_ne_recordId _ _ _ heq.symm
  rw [hobject _ hne, hobject₁]
  by_cases hother : other = text
  · subst hother
    rw [if_pos rfl, Function.update_self]
  · rw [if_neg hother, Function.update_of_ne fun heq => hother (recordId_injective heq)]

theorem run_load_refused {limit : Nat} {name : ByteArray} {e : StoreError}
    (h : checkName limit name = .error e) (s : σ) :
    (Program.run (I := platformInterface) answer (load limit name)).run s = (.error e, s) := by
  rw [load, h]
  rfl

theorem run_load (storage : ReliableStorage answer) {limit : Nat} {name : ByteArray} {text : String}
    (h : checkName limit name = .ok text) {s : σ} (hs : storage.works s) :
    ((Program.run (I := platformInterface) answer (load limit name)).run s).1 =
      match storage.object s (recordId text) with
      | some body => .ok ⟨text, body⟩
      | none => .error (.notFound text) := by
  obtain ⟨t, hread, -, -⟩ := storage.openRead s (recordId text) hs
  rw [load, h]
  have hrun := Program.run_ask_bind (I := platformInterface) hread (β := Except StoreError Record)
  refine (congrArg Prod.fst (hrun _)).trans ?_
  cases storage.object s (recordId text) <;> rfl

/-- A call of the store. -/
inductive Call where
  | save (name body : ByteArray)
  | load (name : ByteArray)

inductive Reply where
  | saved (result : Except StoreError Unit)
  | loaded (result : Except StoreError Record)

def Call.program (limit : Nat) : Call → Platform Reply
  | .save name body => (Scripts.save limit name body).bind fun result => .done (.saved result)
  | .load name => (Scripts.load limit name).bind fun result => .done (.loaded result)

theorem Call.run_save (limit : Nat) (name body : ByteArray) (s : σ) :
    (Program.run (I := platformInterface) answer (Call.program limit (.save name body))).run s =
      (.saved
        ((Program.run (I := platformInterface) answer (Scripts.save limit name body)).run s).1,
        ((Program.run (I := platformInterface) answer (Scripts.save limit name body)).run s).2) :=
  Program.run_bind_run (I := platformInterface) _ _ s

theorem Call.run_load (limit : Nat) (name : ByteArray) (s : σ) :
    (Program.run (I := platformInterface) answer (Call.program limit (.load name))).run s =
      (.loaded ((Program.run (I := platformInterface) answer (Scripts.load limit name)).run s).1,
        ((Program.run (I := platformInterface) answer (Scripts.load limit name)).run s).2) :=
  Program.run_bind_run (I := platformInterface) _ _ s

/-- A call with its reply. -/
structure Exchange where
  call : Call
  reply : Reply

def Exchange.savedUnder (name : ByteArray) : Exchange → Option ByteArray
  | ⟨.save other body, .saved (.ok ())⟩ => if other = name then some body else none
  | _ => none

def lastSaved (name : ByteArray) : List Exchange → Option ByteArray
  | [] => none
  | e :: rest => (lastSaved name rest).or (e.savedUnder name)

end SealedLua.Scripts
