import Mathlib.Logic.Function.Basic
import Mathlib.Tactic.Common
import SealedLua.Platform.Host
import SealedLua.Proofs.Program
import SealedLua.Storage.Scripts

/-!
# Storage that does not fail

What is promised of storage is said once, as a view of the objects and one
equation for each operation.  Serial numbers are whatever they are; they only
name objects that are not finished.  Storage in memory keeps the promise as
long as no failure is ordered, whether or not interpreters are limited.
-/

namespace SealedLua

open Function (update)

variable {σ : Type}

/-- An operation is answered with `a` from the state `s`, and after it `after` holds. -/
def Responds (answer : (op : PlatformOp) → StateM σ op.Answer) (op : PlatformOp) (s : σ)
    (a : op.Answer) (after : σ → Prop) : Prop :=
  ∃ t, (answer op).run s = (a, t) ∧ after t

/-- Storage that answers every operation, in the states in which it works. -/
structure ReliableStorage (answer : (op : PlatformOp) → StateM σ op.Answer) where
  works : σ → Prop
  /-- The object of an id, if there is one. -/
  object : σ → ObjectId → Option ByteArray
  create : ∀ s id, works s → Responds answer (.storage (.create id)) s (Except.ok ())
    fun t => works t ∧ object t = update (object s) id (some (bytes []))
  write : ∀ s id data old, works s → object s id = some old →
    Responds answer (.storage (.write id data)) s (Except.ok ())
      fun t => works t ∧ object t = update (object s) id (some (old ++ data))
  openRead : ∀ s id, works s → Responds answer (.storage (.openRead id)) s (Except.ok (object s id))
    fun t => works t ∧ object t = object s
  rename : ∀ s source target data, works s → object s source = some data →
    Responds answer (.storage (.rename source target)) s (Except.ok ())
      fun t => works t ∧ object t = update (update (object s) source none) target (some data)
  delete : ∀ s id, works s → Responds answer (.storage (.delete id)) s (Except.ok ())
    fun t => works t ∧ object t = update (object s) id none
  drawSerial : ∀ s, works s → ∃ serial, Responds answer .drawSerial s serial
    fun t => works t ∧ object t = object s
  admitInterpreter : ∀ s, works s → ∃ admitted, Responds answer .admitInterpreter s admitted
    fun t => works t ∧ object t = object s
  print : ∀ s text, works s → Responds answer (.print text) s () fun t =>
    works t ∧ object t = object s

namespace Memory

theorem find?_erase_of_ne (m : Memory) {id other : ObjectId} (h : other ≠ id) :
    (m.erase id).find? other = m.find? other := by
  simp only [find?, erase, List.find?_filter]
  congr 2
  funext o
  by_cases ho : o.1 = other <;> simp [ho, h]

theorem find?_erase (m : Memory) (id : ObjectId) : (m.erase id).find? = update m.find? id none := by
  funext other
  by_cases h : other = id
  · subst h
    simp [find?, erase]
  · rw [Function.update_of_ne h, find?_erase_of_ne m h]

theorem find?_insert (m : Memory) (id : ObjectId) (data : ByteArray) :
    (m.insert id data).find? = update m.find? id (some data) := by
  funext other
  by_cases h : other = id
  · subst h
    rw [find?_insert_self, Function.update_self]
  · have hne : id ≠ other := fun heq => h heq.symm
    have hrest : (m.insert id data).find? other = (m.erase id).find? other := by
      simp [find?, insert, hne]
    rw [Function.update_of_ne h, hrest, find?_erase_of_ne m h]

theorem perform_write (m : Memory) {id : ObjectId} {data old : ByteArray}
    (h : m.find? id = some old) :
    m.perform (.write id data) = (Except.ok (), m.insert id (old ++ data)) := by
  simp only [perform, h]
  rfl

theorem perform_rename (m : Memory) {source target : ObjectId} {data : ByteArray}
    (h : m.find? source = some data) :
    m.perform (.rename source target) = (Except.ok (), (m.erase source).insert target data) := by
  simp only [perform, h]
  rfl

/-- An operation leaves every object that it does not name. -/
theorem find?_perform_of_notMem (m : Memory) {op : StorageOp} {id : ObjectId} (h : id ∉ op.ids) :
    (m.perform op).2.find? id = m.find? id := by
  cases op with
  | openRead other => rfl
  | create other =>
    have hne : id ≠ other := by simpa [StorageOp.ids] using h
    simp only [perform, find?_insert, Function.update_of_ne hne]
  | delete other =>
    have hne : id ≠ other := by simpa [StorageOp.ids] using h
    simp only [perform, find?_erase, Function.update_of_ne hne]
  | write other data =>
    have hne : id ≠ other := by simpa [StorageOp.ids] using h
    simp only [perform]
    split
    · simp only [find?_insert, Function.update_of_ne hne]
    · rfl
  | rename source target =>
    obtain ⟨hsource, htarget⟩ : id ≠ source ∧ id ≠ target := by simpa [StorageOp.ids] using h
    simp only [perform]
    split
    · simp only [find?_insert, find?_erase, Function.update_of_ne hsource,
        Function.update_of_ne htarget]
    · rfl

end Memory

namespace Host

/-- Objects are kept in memory, and no failure is ordered. -/
structure InMemory (h : Host) : Prop where
  root : h.process.root = none
  faults : h.observation.faults = []

/-- The host after an operation that the memory answered. -/
def withMemory (h : Host) (op : StorageOp) (memory : Memory) : Host :=
  { h with process := { h.process with memory := memory }, observation := h.observation.note op }

theorem InMemory.withMemory {h : Host} (hm : h.InMemory) (op : StorageOp) (memory : Memory) :
    (h.withMemory op memory).InMemory :=
  ⟨hm.root, hm.faults⟩

@[simp] theorem withMemory_root (h : Host) (op : StorageOp) (memory : Memory) :
    (h.withMemory op memory).process.root = h.process.root := rfl

@[simp] theorem withMemory_memory (h : Host) (op : StorageOp) (memory : Memory) :
    (h.withMemory op memory).process.memory = memory := rfl

@[simp] theorem withMemory_fault? (h : Host) (op : StorageOp) (memory : Memory) :
    (h.withMemory op memory).observation.fault? = h.observation.fault? := rfl

@[simp] theorem withMemory_noted (h : Host) (op : StorageOp) (memory : Memory) :
    (h.withMemory op memory).observation.noted = op :: h.observation.noted := rfl

theorem answer_of_fault {h : Host} {op : StorageOp} {e : StoreError}
    (hfault : h.observation.fault? op = some e) :
    (answer (.storage op)).run h = (op.failed e, h.withMemory op h.process.memory) := by
  have hintercept : h.observation.intercept op = (some (op.failed e), h.observation.note op) := by
    rw [Observation.intercept, hfault]
    rfl
  simp only [answer, StateT.run, hintercept]
  rfl

theorem answer_of_passes {h : Host} {op : StorageOp} (hroot : h.process.root = none)
    (hfault : h.observation.fault? op = none) :
    (answer (.storage op)).run h =
      ((h.process.memory.perform op).1, h.withMemory op (h.process.memory.perform op).2) := by
  obtain ⟨⟨root, memory, serial⟩, files, observation, interpreters, limit⟩ := h
  simp only at hroot hfault
  subst hroot
  have hintercept : observation.intercept op = (none, observation.note op) := by
    rw [Observation.intercept, hfault]
    rfl
  simp only [answer, StateT.run, hintercept]
  rfl

theorem answer_storage {h : Host} (hm : h.InMemory) (op : StorageOp) :
    (answer (.storage op)).run h =
      ((h.process.memory.perform op).1, h.withMemory op (h.process.memory.perform op).2) := by
  refine answer_of_passes hm.root ?_
  rw [Observation.fault?, hm.faults]
  rfl

/-- A host that keeps objects in memory is storage that does not fail. -/
def reliableStorage : ReliableStorage answer where
  works := InMemory
  object h := h.process.memory.find?
  create h id hm := ⟨_, answer_storage hm _, hm.withMemory _ _, Memory.find?_insert _ _ _⟩
  write h id data old hm hold := by
    refine ⟨h.withMemory (.write id data) (h.process.memory.insert id (old ++ data)), ?_,
      hm.withMemory _ _, Memory.find?_insert _ _ _⟩
    rw [answer_storage hm, Memory.perform_write _ hold]
    rfl
  openRead h id hm := ⟨_, answer_storage hm _, hm.withMemory _ _, rfl⟩
  rename h source target data hm hdata := by
    refine ⟨h.withMemory (.rename source target)
      ((h.process.memory.erase source).insert target data),
      ?_, hm.withMemory _ _, ?_⟩
    · rw [answer_storage hm, Memory.perform_rename _ hdata]
      rfl
    · exact (Memory.find?_insert _ _ _).trans (by rw [Memory.find?_erase])
  delete h id hm := ⟨_, answer_storage hm _, hm.withMemory _ _, Memory.find?_erase _ _⟩
  drawSerial h hm := ⟨_, _, rfl, ⟨hm.root, hm.faults⟩, rfl⟩
  admitInterpreter h hm := by
    by_cases hlimit : h.interpreterLimit.any (· ≤ h.interpreters)
    · refine ⟨Except.error (.creation "no more interpreters"), h, ?_, hm, rfl⟩
      simp [answer, StateT.run, hlimit]
    · refine ⟨Except.ok (h.process.circumstances h.interpreters),
        { h with interpreters := h.interpreters + 1 }, ?_,
        ⟨hm.root, hm.faults⟩, rfl⟩
      simp [answer, StateT.run, hlimit]
  print h text hm := ⟨_, rfl, ⟨hm.root, hm.faults⟩, rfl⟩

end Host
end SealedLua
