import SealedLua.Proofs.Storage.Records

/-!
# Saves that fail and clean up

A host keeps objects in memory and lets some operations fail before they take
effect.  A save asks for each kind of operation once at most, so what is ordered
of the kinds is any choice of the operations of a save that fail.  The host notes
what it is asked for, hence what a save does is seen in its notes, in its objects
and in what it returns.
-/

namespace SealedLua

open Function (update)

/-- Three steps put a record in the place of any other, and leave nothing unfinished. -/
theorem Memory.find?_staged (m : Memory) (staging record : ObjectId) (body : ByteArray) :
    ((((m.insert staging (bytes [])).insert staging body).erase staging).insert record body).find? =
      update (update m.find? staging none) record (some body) := by
  rw [find?_insert, find?_erase, find?_insert, find?_insert,
    Function.update_idem, Function.update_idem]

namespace Scripts

variable {h : Host}

/-- Operations up to the first that is ordered to fail, and with it. -/
def upToFailure (fault? : StorageOp → Option StoreError) (ops : List StorageOp) : List StorageOp :=
  ops.take (ops.findIdx (fun op => (fault? op).isSome) + 1)

section UpToFailure

variable {fault? : StorageOp → Option StoreError} {op : StorageOp} {ops : List StorageOp}

theorem upToFailure_of_fault {e : StoreError} (h : fault? op = some e) :
    upToFailure fault? (op :: ops) = [op] := by
  simp [upToFailure, List.findIdx_cons, h]

theorem upToFailure_of_passes (h : fault? op = none) :
    upToFailure fault? (op :: ops) = op :: upToFailure fault? ops := by
  simp [upToFailure, List.findIdx_cons, h]

theorem findSome?_of_fault {e : StoreError} (h : fault? op = some e) :
    (op :: ops).findSome? fault? = some e := by
  rw [List.findSome?_cons, h]

theorem findSome?_of_passes (h : fault? op = none) :
    (op :: ops).findSome? fault? = ops.findSome? fault? := by
  rw [List.findSome?_cons, h]

theorem upToFailure_eq_self (h : ops.findSome? fault? = none) : upToFailure fault? ops = ops := by
  induction ops with
  | nil => rfl
  | cons op rest ih =>
    cases hfirst : fault? op with
    | some e =>
      rw [findSome?_of_fault hfirst] at h
      cases h
    | none =>
      rw [findSome?_of_passes hfirst] at h
      rw [upToFailure_of_passes hfirst, ih h]

end UpToFailure

/-- The host `t` was asked for operations since it was `h`, and is otherwise as ready as it was. -/
structure Asked (h t : Host) (ops : List StorageOp) : Prop where
  root : t.process.root = none
  fault? : t.observation.fault? = h.observation.fault?
  noted : t.observation.noted = ops.reverse ++ h.observation.noted

theorem Asked.withMemory {t : Host} {op : StorageOp} {ops : List StorageOp} {m : Memory}
    (asked : Asked (h.withMemory op m) t ops) : Asked h t (op :: ops) where
  root := asked.root
  fault? := asked.fault?
  noted := by
    rw [asked.noted, Host.withMemory_noted, List.reverse_cons,
      List.append_assoc, List.singleton_append]

/-- From `h` on, the program asks for these operations up to the first that is
ordered to fail.  If there is one, the program fails like it, and no object but
the unfinished one has changed; if there is none, it succeeds and leaves the
memory `m`. -/
def Attempts (staging : ObjectId) (h : Host)
    (p : ExceptT StoreError (Program platformInterface) Unit)
    (ops : List StorageOp) (m : Memory) : Prop :=
  ∃ result t, (Host.run p.run).run h = (result, t) ∧
    Asked h t (upToFailure h.observation.fault? ops) ∧
    match ops.findSome? h.observation.fault? with
    | none => result = .ok () ∧ t.process.memory = m
    | some e => result = .error e ∧ ∀ id, id ≠ staging → t.process.memory.find? id =
      h.process.memory.find? id

section Attempts

variable {staging : ObjectId} {op : StorageOp} {ops : List StorageOp} {m m' : Memory}

/-- A program that comes to an operation that is ordered to fail ends there. -/
theorem attempts_of_fault {e : StoreError} {p : ExceptT StoreError (Program platformInterface) Unit}
    (hroot : h.process.root = none) (hfault : h.observation.fault? op = some e)
    (hrun : (Host.run p.run).run h = (.error e, h.withMemory op h.process.memory)) :
    Attempts staging h p (op :: ops) m := by
  refine ⟨.error e, h.withMemory op h.process.memory, hrun, ?_, ?_⟩
  · rw [upToFailure_of_fault hfault]
    exact Asked.withMemory ⟨hroot, rfl, rfl⟩
  · rw [findSome?_of_fault hfault]
    exact ⟨rfl, fun id _ => rfl⟩

/-- An operation in front, which the memory carries out on the unfinished object. -/
theorem Attempts.after {a : op.Result}
    {f : op.Result → ExceptT StoreError (Program platformInterface) Unit}
    (hroot : h.process.root = none) (hperform : h.process.memory.perform op = (Except.ok a, m'))
    (hother : ∀ id, id ≠ staging → m'.find? id = h.process.memory.find? id)
    (rest : Attempts staging (h.withMemory op m') (f a) ops m) :
    Attempts staging h (ExceptT.mk (Platform.storage op) >>= f) (op :: ops) m := by
  cases hfault : h.observation.fault? op with
  | some e =>
    exact attempts_of_fault hroot hfault (run_storage_bind_error (Host.answer_of_fault hfault) f)
  | none =>
    have hanswer : (Host.answer (.storage op)).run h = (Except.ok a, h.withMemory op m') := by
      rw [Host.answer_of_passes hroot hfault, hperform]
    obtain ⟨result, t, hrun, hasked, hended⟩ := rest
    rw [Host.withMemory_fault?] at hasked hended
    refine ⟨result, t, (run_storage_bind hanswer f).trans hrun, ?_, ?_⟩
    · rw [upToFailure_of_passes hfault]
      exact hasked.withMemory
    · rw [findSome?_of_passes hfault]
      split at hended
      · exact hended
      · exact ⟨hended.1, fun id hid => (hended.2 id hid).trans (hother id hid)⟩

/-- The last operation may change other objects, since nothing fails after it. -/
theorem attempts_rename {record : ObjectId} (hroot : h.process.root = none)
    (hperform : h.process.memory.perform (.rename staging record) = (Except.ok (), m)) :
    Attempts staging h (ExceptT.mk (Platform.storage (.rename staging record)))
      [.rename staging record] m := by
  cases hfault : h.observation.fault? (.rename staging record) with
  | some e => exact attempts_of_fault hroot hfault (Host.answer_of_fault hfault)
  | none =>
    have hanswer : (Host.answer (.storage (.rename staging record))).run h =
        (Except.ok (), h.withMemory (.rename staging record) m) := by
      rw [Host.answer_of_passes hroot hfault, hperform]
      rfl
    refine ⟨.ok (), h.withMemory (.rename staging record) m, hanswer, ?_, ?_⟩
    · rw [upToFailure_of_passes hfault]
      exact Asked.withMemory ⟨hroot, rfl, rfl⟩
    · rw [findSome?_of_passes hfault]
      exact ⟨rfl, rfl⟩

end Attempts

theorem attempts_stage (hroot : h.process.root = none) (staging record : ObjectId)
    (body : ByteArray) :
    Attempts staging h (stage staging record body)
      [.create staging, .write staging body, .rename staging record]
      ((((h.process.memory.insert staging (bytes [])).insert staging body).erase staging).insert
        record body) := by
  let created := h.process.memory.insert staging (bytes [])
  let written := created.insert staging body
  have hcreate : h.process.memory.perform (.create staging) = (Except.ok (), created) := rfl
  have hwrite : created.perform (.write staging body) = (Except.ok (), written) := by
    rw [Memory.perform_write _ (Memory.find?_insert_self _ _ _), bytes_nil_append]
  have hrename : written.perform (.rename staging record) =
      (Except.ok (), (written.erase staging).insert record body) :=
    Memory.perform_rename _ (Memory.find?_insert_self _ _ _)
  have hother : ∀ (m : Memory) (data : ByteArray) (id : ObjectId), id ≠ staging →
      (m.insert staging data).find? id = m.find? id := by
    intro m data id hid
    rw [Memory.find?_insert, Function.update_of_ne hid]
  refine Attempts.after hroot hcreate (hother _ _) ?_
  exact Attempts.after hroot hwrite (hother _ _) (attempts_rename hroot hrename)

/-- Taking the unfinished object away touches no other, and does take it away if
that is not ordered to fail. -/
theorem run_delete (hroot : h.process.root = none) (staging : ObjectId) :
    ∃ deleted m, (Host.answer (.storage (.delete staging))).run h =
      (deleted, h.withMemory (.delete staging) m) ∧
      (∀ id, id ≠ staging → m.find? id = h.process.memory.find? id) ∧
      (h.observation.fault? (.delete staging) = none → m.find? staging = none) := by
  cases hfault : h.observation.fault? (.delete staging) with
  | some e => exact ⟨.error e, _, Host.answer_of_fault hfault, fun _ _ => rfl, nofun⟩
  | none =>
    refine ⟨.ok (), _, Host.answer_of_passes hroot hfault, fun id hid => ?_, fun _ => ?_⟩
    · exact h.process.memory.find?_erase_of_ne hid
    · exact (congrFun (h.process.memory.find?_erase staging) staging).trans
        (Function.update_self _ _ _)

/-- A save to a memory in which its unfinished object is new.  Let `h` keep objects
in memory and let any operations be ordered to fail.  A name that is not fit asks
for nothing and changes nothing.  A fit name asks for three operations, up to the
first that fails.  If none fails, the record is in the place of any other and all
else is as it was.  Otherwise the save fails like the first of them, whether or not
it can clean up: it asks once more, to take the unfinished object away, and then the
memory is as it was; if that fails too, at most the unfinished object is left. -/
theorem saves_are_cleaned_up (limit : Nat) (name body : ByteArray) (h : Host)
    (hroot : h.process.root = none) :
    let saved := (Host.run (save limit name body)).run h
    (∀ e, checkName limit name = .error e → saved = (.error e, h)) ∧
    ∀ text, checkName limit name = .ok text →
      let staging := stagingId h.process.serial text
      let ops : List StorageOp :=
        [.create staging, .write staging body, .rename staging (recordId text)]
      h.process.memory.find? staging = none →
        match ops.findSome? h.observation.fault? with
        | none => saved.1 = .ok () ∧
          saved.2.observation.noted = ops.reverse ++ h.observation.noted ∧
          saved.2.process.memory.find? = update h.process.memory.find? (recordId text) (some body)
        | some e => saved.1 = .error e ∧
          saved.2.observation.noted =
            .delete staging :: (upToFailure h.observation.fault? ops).reverse ++
              h.observation.noted ∧
          (∀ id, id ≠ staging → saved.2.process.memory.find? id = h.process.memory.find? id) ∧
          (h.observation.fault? (.delete staging) = none →
            saved.2.process.memory.find? = h.process.memory.find?) := by
  intro saved
  constructor
  · intro e hname
    exact run_save_refused hname body h
  · intro text hname staging ops hfresh
    let drawn : Host := { h with process := { h.process with serial := h.process.serial + 1 } }
    have hserial : (Host.answer .drawSerial).run h = (h.process.serial, drawn) := rfl
    obtain ⟨result, t, hstage, hasked, hended⟩ :
        Attempts staging drawn (stage staging (recordId text) body) ops _ :=
      attempts_stage (h := drawn) hroot staging (recordId text) body
    have hfault : drawn.observation.fault? = h.observation.fault? := rfl
    rw [hfault] at hasked hended
    cases hfailure : ops.findSome? h.observation.fault? with
    | none =>
      rw [hfailure] at hended
      obtain ⟨rfl, hmemory⟩ := hended
      have hsaved : saved = (.ok (), t) := run_save_of_staged hname hserial hstage
      rw [upToFailure_eq_self hfailure] at hasked
      rw [hsaved]
      refine ⟨rfl, hasked.noted, ?_⟩
      rw [hmemory, Memory.find?_staged]
      have hnothing : update h.process.memory.find? staging none = h.process.memory.find? := by
        rw [← hfresh, Function.update_eq_self]
      exact congrArg (update · (recordId text) (some body)) hnothing
    | some e =>
      rw [hfailure] at hended
      obtain ⟨rfl, hkept⟩ := hended
      obtain ⟨deleted, m, hdelete, hother, hclean⟩ := run_delete hasked.root staging
      have hsaved : saved = (.error e, t.withMemory (.delete staging) m) :=
        run_save_of_failed hname hserial hstage hdelete
      have hleft : ∀ id, id ≠ staging → m.find? id = h.process.memory.find? id :=
        fun id hid => (hother id hid).trans (hkept id hid)
      rw [hsaved]
      refine ⟨rfl, ?_, hleft, fun hpasses => funext fun id => ?_⟩
      · rw [Host.withMemory_noted, hasked.noted]
        rfl
      · by_cases hid : id = staging
        · rw [hid, hfresh]
          exact hclean (by rw [hasked.fault?, hfault, hpasses])
        · exact hleft id hid

/-- The second of three operations fails, and so does the cleanup: the failure of
the first of the two is returned, and the record that was there is still there. -/
theorem save_with_failed_cleanup :
    let kept : Memory := ⟨[(recordId "f", bytes (ascii "return 1"))]⟩
    let h : Host := { process := { root := none, memory := kept },
                      observation :=
                        { faults := [(.write, .backend "full"), (.delete, .backend "gone")] } }
    let saved := (Host.run (save 64 "f".toUTF8 (bytes (ascii "return 2")))).run h
    let staging := stagingId 0 "f"
    h.process.root = none ∧ checkName 64 "f".toUTF8 = .ok "f" ∧ kept.find? staging = none ∧
      saved.1 = .error (.backend "full") ∧
      saved.2.observation.noted =
        [.delete staging, .write staging (bytes (ascii "return 2")), .create staging] ∧
      saved.2.process.memory.find? (recordId "f") = some (bytes (ascii "return 1")) := by
  intro kept h saved staging
  have hname : checkName 64 "f".toUTF8 = .ok "f" := rfl
  have hne : recordId "f" ≠ staging := (stagingId_ne_recordId 0 "f" "f").symm
  have hfresh : kept.find? staging = none := by simp [kept, Memory.find?, hne]
  obtain ⟨hresult, hnoted, hkept, -⟩ :=
    (saves_are_cleaned_up 64 "f".toUTF8 (bytes (ascii "return 2")) h rfl).2 "f" hname hfresh
  refine ⟨rfl, hname, hfresh, hresult, hnoted, ?_⟩
  exact (hkept (recordId "f") hne).trans rfl

end Scripts
end SealedLua
