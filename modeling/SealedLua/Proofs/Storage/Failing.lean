import SealedLua.Proofs.Storage.Records

/-!
# Scripts in storage that fails

Any operation on storage may fail, and a write that fails may have written a
part.  What is under a name is still the last script that was saved there: only
the last step of saving touches a record, and it comes after two that succeeded,
so the object it moves is whole.  Objects that failed saves leave behind are
never records, and the next save under their number empties them first.
-/

namespace SealedLua

open Function (update)

variable {σ : Type}

namespace Scripts

/-- Serves calls one after the other. -/
def serveAll (limit : Nat) (answer : (op : PlatformOp) → StateM σ op.Answer) :
    List Call → σ → List Exchange × σ
  | [], s => ([], s)
  | call :: rest, s =>
    let (reply, s) := (Program.run (I := platformInterface) answer (call.program limit)).run s
    let (exchanges, s) := serveAll limit answer rest s
    (⟨call, reply⟩ :: exchanges, s)

end Scripts

/-- How an operation fails: with what, and how much of what it should write is written. -/
structure Fault where
  error : StoreError
  kept : Nat := 0

/-- Storage in memory behind a layer that lets operations fail. -/
structure FailingStorage where
  memory : Memory := {}
  /-- How many operations there were. -/
  time : Nat := 0

namespace FailingStorage

/-- The memory after an operation that fails.  Only a write leaves something. -/
def afterFault (m : Memory) (kept : Nat) : StorageOp → Memory
  | .write id data => (m.perform (.write id (data.extract 0 kept))).2
  | .create _ | .openRead _ | .rename _ _ | .delete _ => m

/-- Answers an operation as its time says.  Serial numbers are any. -/
def answer (fate : Nat → Option Fault) (serials : Nat → UInt64) :
    (op : PlatformOp) → StateM FailingStorage op.Answer
  | .storage op => fun s =>
    match fate s.time with
    | none => ((s.memory.perform op).1, ⟨(s.memory.perform op).2, s.time + 1⟩)
    | some fault => (op.failed fault.error, ⟨afterFault s.memory fault.kept op, s.time + 1⟩)
  | .drawSerial => fun s => (serials s.time, { s with time := s.time + 1 })
  | .admitInterpreter => fun s => (.ok {}, s)
  | .print _ => fun s => ((), s)

variable {fate : Nat → Option Fault} {serials : Nat → UInt64} {s t : FailingStorage}

theorem answer_of_passes {s : FailingStorage} (h : fate s.time = none) (op : StorageOp) :
    (answer fate serials (.storage op)).run s =
      ((s.memory.perform op).1, ⟨(s.memory.perform op).2, s.time + 1⟩) := by
  simp only [answer, StateT.run, h]
  rfl

theorem answer_of_fails {s : FailingStorage} {fault : Fault} (h : fate s.time = some fault)
    (op : StorageOp) :
    (answer fate serials (.storage op)).run s =
      (op.failed fault.error, ⟨afterFault s.memory fault.kept op, s.time + 1⟩) := by
  simp only [answer, StateT.run, h]
  rfl

theorem find?_afterFault (m : Memory) (kept : Nat) {op : StorageOp}
    {id : ObjectId} (h : id ∉ op.ids) :
    (afterFault m kept op).find? id = m.find? id := by
  cases op with
  | write other data =>
    have hother : id ∉ (StorageOp.write other (data.extract 0 kept)).ids := h
    exact m.find?_perform_of_notMem hother
  | create | openRead | rename | delete => rfl

/-- An operation leaves every object that it does not name, even if it fails. -/
theorem find?_answer_of_notMem {op : StorageOp} {x : op.Answer} {id : ObjectId}
    (h : (answer fate serials (.storage op)).run s = (x, t)) (hid : id ∉ op.ids) :
    t.memory.find? id = s.memory.find? id := by
  cases hfate : fate s.time with
  | none =>
    rw [answer_of_passes hfate] at h
    cases h
    exact s.memory.find?_perform_of_notMem hid
  | some fault =>
    rw [answer_of_fails hfate] at h
    cases h
    exact find?_afterFault s.memory fault.kept hid

theorem perform_of_answer {op : StorageOp} {a : op.Result}
    (h : (answer fate serials (.storage op)).run s = (Except.ok a, t)) :
    s.memory.perform op = (Except.ok a, t.memory) := by
  cases hfate : fate s.time with
  | none =>
    rw [answer_of_passes hfate] at h
    obtain ⟨hanswer, rfl⟩ := Prod.mk.inj h
    exact Prod.ext hanswer rfl
  | some fault =>
    rw [answer_of_fails hfate] at h
    cases h

theorem memory_of_failed_rename {source target : ObjectId} {e : StoreError}
    (h : (answer fate serials (.storage (.rename source target))).run s = (Except.error e, t)) :
    t.memory = s.memory := by
  cases hfate : fate s.time with
  | none =>
    rw [answer_of_passes hfate] at h
    cases hfound : s.memory.find? source with
    | none =>
      simp only [Memory.perform, hfound] at h
      cases h
      rfl
    | some data =>
      rw [s.memory.perform_rename hfound] at h
      cases h
  | some fault =>
    rw [answer_of_fails hfate] at h
    cases h
    rfl

def afterAttempt (before : ObjectId → Option ByteArray) (record : ObjectId) (body : ByteArray) :
    Except StoreError Unit → ObjectId → Option ByteArray
  | .ok _ => update before record (some body)
  | .error _ => before

theorem find?_of_staged {m m₁ m₂ m₃ : Memory} {staging record id : ObjectId}
    {body : ByteArray} {a b c : Unit} (hcreate : m.perform (.create staging) = (Except.ok a, m₁))
    (hwrite : m₁.perform (.write staging body) = (Except.ok b, m₂))
    (hrename : m₂.perform (.rename staging record) = (Except.ok c, m₃)) (hid : id ≠ staging) :
    m₃.find? id = update m₂.find? record (some body) id := by
  obtain rfl : m.insert staging (bytes []) = m₁ := congrArg Prod.snd hcreate
  rw [Memory.perform_write _ (Memory.find?_insert_self _ _ _), bytes_nil_append] at hwrite
  obtain rfl : (m.insert staging (bytes [])).insert staging body = m₂ := congrArg Prod.snd hwrite
  rw [Memory.perform_rename _ (Memory.find?_insert_self _ _ _)] at hrename
  obtain rfl := congrArg Prod.snd hrename
  rw [Memory.find?_insert, Memory.find?_erase]
  by_cases hrecord : id = record
  · subst hrecord
    rw [Function.update_self, Function.update_self]
  · rw [Function.update_of_ne hrecord, Function.update_of_ne hrecord, Function.update_of_ne hid]

/-- Whatever fails on the way, the record is put down as a whole, or nothing but
the unfinished object is touched. -/
theorem run_stage (staging record : ObjectId) (body : ByteArray) (s : FailingStorage) :
    ∃ result t,
      (Program.run (I := platformInterface) (answer fate serials)
        (Scripts.stage staging record body).run).run s =
        (result, t) ∧
      ∀ id, id ≠ staging → t.memory.find? id =
        afterAttempt s.memory.find? record body result id := by
  have hnames : ∀ {op : StorageOp} {id : ObjectId}, op.ids = [staging] →
      id ≠ staging → id ∉ op.ids := by
    intro op id hids hid
    simpa [hids] using hid
  rcases hcreate : (answer fate serials (.storage (.create staging))).run s with ⟨created, s₁⟩
  have hkept₁ : ∀ id, id ≠ staging → s₁.memory.find? id = s.memory.find? id :=
    fun id hid => find?_answer_of_notMem hcreate (hnames rfl hid)
  cases created with
  | error e => exact ⟨.error e, s₁, Scripts.run_storage_bind_error hcreate _, hkept₁⟩
  | ok created =>
    rcases hwrite : (answer fate serials (.storage (.write staging body))).run s₁ with ⟨written, s₂⟩
    have hkept₂ : ∀ id, id ≠ staging → s₂.memory.find? id = s.memory.find? id :=
      fun id hid => (find?_answer_of_notMem hwrite (hnames rfl hid)).trans (hkept₁ id hid)
    cases written with
    | error e =>
      refine ⟨.error e, s₂, ?_, hkept₂⟩
      exact (Scripts.run_storage_bind hcreate _).trans (Scripts.run_storage_bind_error hwrite _)
    | ok written =>
      rcases hrename : (answer fate serials (.storage (.rename staging record))).run
        s₂ with ⟨renamed, s₃⟩
      refine ⟨renamed, s₃, ?_, ?_⟩
      · exact (Scripts.run_storage_bind hcreate _).trans
          ((Scripts.run_storage_bind hwrite _).trans hrename)
      · cases renamed with
        | error e =>
          intro id hid
          rw [memory_of_failed_rename hrename]
          exact hkept₂ id hid
        | ok renamed =>
          intro id hid
          have hmoved : s₃.memory.find? id = update s₂.memory.find? record (some body) id :=
            find?_of_staged (perform_of_answer hcreate) (perform_of_answer hwrite)
              (perform_of_answer hrename) hid
          refine hmoved.trans ?_
          change update s₂.memory.find? record (some body) id =
            update s.memory.find? record (some body) id
          by_cases hrecord : id = record
          · subst hrecord
            rw [Function.update_self, Function.update_self]
          · rw [Function.update_of_ne hrecord, Function.update_of_ne hrecord, hkept₂ id hid]

/-- Whatever fails, saving puts down the record as a whole and returns, or fails
and leaves every record. -/
theorem run_save (fate : Nat → Option Fault) (serials : Nat → UInt64) {limit : Nat}
    {name : ByteArray} {text : String}
    (h : Scripts.checkName limit name = .ok text) (body : ByteArray) (s : FailingStorage) :
    ∃ result t,
      (Program.run (I := platformInterface) (answer fate serials)
        (Scripts.save limit name body)).run s =
        (result, t) ∧
      ∀ other, t.memory.find? (Scripts.recordId other) =
        afterAttempt s.memory.find? (Scripts.recordId text) body result
          (Scripts.recordId other) := by
  let staging := Scripts.stagingId (serials s.time) text
  obtain ⟨result, t, hstage, hfound⟩ :=
    run_stage staging (Scripts.recordId text) body { s with time := s.time + 1 }
  have hne : ∀ other, Scripts.recordId other ≠ staging :=
    fun other heq => Scripts.stagingId_ne_recordId _ _ _ heq.symm
  have hserial : (answer fate serials .drawSerial).run s =
    (serials s.time, { s with time := s.time + 1 }) := rfl
  cases result with
  | ok saved =>
    exact ⟨.ok (), t, Scripts.run_save_of_staged h hserial hstage,
      fun other => hfound _ (hne other)⟩
  | error e =>
    rcases hdelete : (answer fate serials (.storage (.delete staging))).run t with ⟨deleted, u⟩
    refine ⟨.error e, u, Scripts.run_save_of_failed h hserial hstage hdelete, ?_⟩
    intro other
    have hkept : Scripts.recordId other ∉ (StorageOp.delete staging).ids := by
      simpa [StorageOp.ids] using hne other
    rw [find?_answer_of_notMem hdelete hkept]
    exact hfound _ (hne other)

theorem run_load {limit : Nat} {name : ByteArray} {text : String}
    (h : Scripts.checkName limit name = .ok text) (s : FailingStorage) :
    (Program.run (I := platformInterface) (answer fate serials) (Scripts.load limit name)).run s =
      (match fate s.time with
        | some fault => .error fault.error
        | none =>
          match s.memory.find? (Scripts.recordId text) with
          | some body => .ok ⟨text, body⟩
          | none => .error (.notFound text),
        { s with time := s.time + 1 }) := by
  rw [Scripts.load, h]
  cases hfate : fate s.time with
  | none =>
    refine (Program.run_ask_bind (I := platformInterface) (answer_of_passes hfate _) _).trans ?_
    cases hfound : s.memory.find? (Scripts.recordId text) <;>
      simp only [Memory.perform, hfound] <;> rfl
  | some fault =>
    exact Program.run_ask_bind (I := platformInterface) (answer_of_fails hfate _) _

/-- A record after a call is what the call saved under its name, or what it was. -/
theorem record_after_call (limit : Nat) (call : Scripts.Call) (s : FailingStorage)
    {name : ByteArray} {text : String} (hname : Scripts.checkName limit name = .ok text) :
    let served :=
  (Program.run (I := platformInterface) (answer fate serials) (call.program limit)).run s
    served.2.memory.find? (Scripts.recordId text) =
      (Scripts.Exchange.savedUnder name ⟨call, served.1⟩).or
        (s.memory.find? (Scripts.recordId text)) := by
  intro served
  cases call with
  | load other =>
    have hserved : served = _ := Scripts.Call.run_load limit other s
    rw [hserved]
    cases hother : Scripts.checkName limit other with
    | error e =>
      rw [Scripts.run_load_refused hother]
      rfl
    | ok otherText =>
      rw [run_load hother]
      rfl
  | save other body =>
    have hserved : served = _ := Scripts.Call.run_save limit other body s
    rw [hserved]
    cases hother : Scripts.checkName limit other with
    | error e =>
      rw [Scripts.run_save_refused hother]
      rfl
    | ok otherText =>
      obtain ⟨result, t, hrun, hfound⟩ := run_save fate serials hother body s
      rw [hrun, hfound text]
      cases result with
      | error e => rfl
      | ok saved =>
        simp only [afterAttempt, Scripts.Exchange.savedUnder]
        by_cases heq : other = name
        · subst heq
          have htext : text = otherText := by
            rw [hname] at hother
            exact Except.ok.inj hother
          rw [if_pos rfl, htext, Function.update_self, Option.some_or]
        · have hne : Scripts.recordId text ≠ Scripts.recordId otherText := by
            intro hid
            apply heq
            rw [← Scripts.checkName_eq_ok hother, ← Scripts.checkName_eq_ok hname,
              Scripts.recordId_injective hid]
          rw [if_neg heq, Function.update_of_ne hne, Option.none_or]

/-- After any calls a record is the last that was saved, or what it was before them. -/
theorem record_after_calls (limit : Nat) (calls : List Scripts.Call)
    (s : FailingStorage) {name : ByteArray}
    {text : String} (hname : Scripts.checkName limit name = .ok text) :
    (Scripts.serveAll limit (answer fate serials) calls s).2.memory.find? (Scripts.recordId text) =
      (Scripts.lastSaved name (Scripts.serveAll limit (answer fate serials) calls s).1).or
        (s.memory.find? (Scripts.recordId text)) := by
  induction calls generalizing s with
  | nil => rfl
  | cons call rest ih =>
    have hserve : Scripts.serveAll limit (answer fate serials) (call :: rest) s =
        let served :=
          (Program.run (I := platformInterface) (answer fate serials) (call.program limit)).run s
        (⟨call, served.1⟩ :: (Scripts.serveAll limit (answer fate serials) rest served.2).1,
          (Scripts.serveAll limit (answer fate serials) rest served.2).2) := rfl
    rw [hserve, Scripts.lastSaved, Option.or_assoc]
    rw [ih, record_after_call limit call s hname]

/-- The store is a map of which the last write counts, over storage that fails as
it likes.  After any calls on empty storage, a load whose read does not fail
returns the body of the last save of the name that returned, and nothing if
there was none.  From any state, a save that fails leaves every record, and any
save leaves the records of other names. -/
theorem last_save_counts (fate : Nat → Option Fault) (serials : Nat → UInt64) (limit : Nat) :
    (∀ calls name,
      let history := (Scripts.serveAll limit (answer fate serials) calls {}).1
      let s := (Scripts.serveAll limit (answer fate serials) calls {}).2
      ((Program.run (I := platformInterface) (answer fate serials)
          (Scripts.load limit name)).run s).1 =
        match Scripts.checkName limit name with
        | .error e => .error e
        | .ok text =>
          match fate s.time with
          | some fault => .error fault.error
          | none =>
            match Scripts.lastSaved name history with
            | some body => .ok ⟨text, body⟩
            | none => .error (.notFound text)) ∧
    ∀ s name body,
      let saved :=
  (Program.run (I := platformInterface) (answer fate serials) (Scripts.save limit name body)).run s
      (∀ e, saved.1 = .error e → ∀ other,
        saved.2.memory.find? (Scripts.recordId other) = s.memory.find? (Scripts.recordId other)) ∧
      ∀ other : String, other.toUTF8 ≠ name →
        saved.2.memory.find? (Scripts.recordId other) =
          s.memory.find? (Scripts.recordId other) := by
  constructor
  · intro calls name history s
    cases hname : Scripts.checkName limit name with
    | error e => rw [Scripts.run_load_refused hname]
    | ok text =>
      have hrecord : s.memory.find? (Scripts.recordId text) = Scripts.lastSaved name history := by
        rw [record_after_calls limit calls {} hname]
        exact Option.or_none
      rw [run_load hname, hrecord]
  · intro s name body saved
    cases hname : Scripts.checkName limit name with
    | error e =>
      have hsaved : saved = (.error e, s) := Scripts.run_save_refused hname body s
      rw [hsaved]
      exact ⟨fun _ _ _ => rfl, fun _ _ => rfl⟩
    | ok text =>
      obtain ⟨result, t, hrun, hfound⟩ := run_save fate serials hname body s
      have hsaved : saved = (result, t) := hrun
      rw [hsaved]
      constructor
      · intro e he other
        obtain rfl : result = .error e := he
        exact hfound other
      · intro other hother
        rw [hfound other]
        cases result with
        | error e => rfl
        | ok a =>
          apply Function.update_of_ne
          intro hid
          apply hother
          rw [Scripts.recordId_injective hid, Scripts.checkName_eq_ok hname]

end FailingStorage
end SealedLua
