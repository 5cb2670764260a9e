import Mathlib.Data.List.Nodup
import Mathlib.Data.List.Perm.Subperm
import SealedLua.Platform.Process
import SealedLua.Proofs.Storage.Automata

/-!
# Saves side by side

Saves and loads of one process take turns at operations on its memory.  What
keeps saves apart is the serial number that each has drawn, which no other draws,
and from which the object that it works on has its id.  Three invariants hold
after every turn: who has drawn which number (`Tickets`), which objects there are
(`Workbench`), and what records and replies say of the renames so far (`Sound`).
-/

namespace SealedLua

open Function (update)
open Program (Event)

namespace Scripts

def Call.isSave : Call → Bool
  | .save _ _ => true
  | .load _ => false

theorem countP_positions {α : Type} (q : α → Bool) (l : List α) :
    (List.range l.length).countP (fun i => l[i]?.any q) = l.countP q := by
  induction l with
  | nil => rfl
  | cons a l ih =>
    rw [List.length_cons, List.range_succ_eq_map, List.countP_cons,
      List.countP_map, List.countP_cons, ← ih]
    simp [Function.comp_def]

/-- The saves that have drawn a number, in order; the numbers count up from the first. -/
structure Tickets (limit : Nat) (calls : List Call) (first : UInt64) (status : Nat → Status)
    (drawn : List Nat) : Prop where
  nodup : drawn.Nodup
  saves : ∀ i ∈ drawn, ∃ call text body, calls[i]? = some call ∧ call.job limit = .saving text body
  begun : ∀ i ∈ drawn, status i ≠ .waiting
  ticket : ∀ i serial, (status i).serial? = some serial → ∃ k : Nat, drawn[k]? = some i ∧
    serial = first + UInt64.ofNat k

namespace Tickets

variable {limit : Nat} {calls : List Call} {first : UInt64} {status : Nat → Status}
  {drawn : List Nat} {i : Nat}

theorem length_le (h : Tickets limit calls first status drawn) :
    drawn.length ≤ calls.countP Call.isSave := by
  have hsubset : drawn ⊆ (List.range calls.length).filter fun i => calls[i]?.any Call.isSave := by
    intro i hi
    obtain ⟨call, text, body, hcall, hjob⟩ := h.saves i hi
    obtain ⟨rfl, -⟩ := Call.eq_of_saving hjob
    have hsave : calls[i]?.any Call.isSave = true := by
      rw [hcall]
      rfl
    exact List.mem_filter.2 ⟨List.mem_range.2 (List.getElem?_eq_some_iff.1 hcall).1, hsave⟩
  have hlength := h.nodup.length_le_of_subset hsubset
  rwa [← List.countP_eq_length_filter, countP_positions] at hlength

theorem same_of_serial (h : Tickets limit calls first status drawn)
    (hfew : calls.countP Call.isSave < 2 ^ 64) {j : Nat} {serial : UInt64}
    (hi : (status i).serial? = some serial) (hj : (status j).serial? = some serial) : i = j := by
  obtain ⟨k, hk, hserial⟩ := h.ticket i serial hi
  obtain ⟨l, hl, hserial'⟩ := h.ticket j serial hj
  have hlength := h.length_le
  have hkl : k = l := by
    have hk' : k < drawn.length := (List.getElem?_eq_some_iff.1 hk).1
    have hl' : l < drawn.length := (List.getElem?_eq_some_iff.1 hl).1
    have hcounts : UInt64.ofNat k = UInt64.ofNat l := by
      rw [hserial] at hserial'
      simpa using hserial'
    have hnat := congrArg UInt64.toNat hcounts
    rw [UInt64.toNat_ofNat_of_lt' (by simp [UInt64.size]; omega),
      UInt64.toNat_ofNat_of_lt' (by simp [UInt64.size]; omega)] at hnat
    exact hnat
  rw [hkl, hl] at hk
  exact (Option.some.inj hk).symm

/-- A call that goes on with its number, or gives it up, draws none. -/
theorem step (h : Tickets limit calls first status drawn) {status' : Status}
    (hwaiting : status' ≠ .waiting)
    (hserial : ∀ serial, status'.serial? = some serial → (status i).serial? = some serial) :
    Tickets limit calls first (update status i status') drawn := by
  refine ⟨h.nodup, h.saves, ?_, ?_⟩
  · intro j hj
    by_cases hji : j = i
    · subst hji
      rw [Function.update_self]
      exact hwaiting
    · rw [Function.update_of_ne hji]
      exact h.begun j hj
  · intro j serial hj
    by_cases hji : j = i
    · subst hji
      rw [Function.update_self] at hj
      exact h.ticket j serial (hserial serial hj)
    · rw [Function.update_of_ne hji] at hj
      exact h.ticket j serial hj

theorem draw (h : Tickets limit calls first status drawn) (hwaiting : status i = .waiting)
    {call : Call} {text : String}
    {body : ByteArray} (hcall : calls[i]? = some call) (hjob : call.job limit = .saving text body) :
    Tickets limit calls first (update status i (.drawn (first + UInt64.ofNat drawn.length)))
      (drawn ++ [i]) := by
  have hnew : i ∉ drawn := fun hi => h.begun i hi hwaiting
  refine ⟨?_, ?_, ?_, ?_⟩
  · rw [← List.concat_eq_append]
    exact h.nodup.concat hnew
  · intro j hj
    rcases List.mem_append.1 hj with hj | hj
    · exact h.saves j hj
    · rw [List.mem_singleton.1 hj]
      exact ⟨call, text, body, hcall, hjob⟩
  · intro j hj
    by_cases hji : j = i
    · subst hji
      rw [Function.update_self]
      exact nofun
    · rw [Function.update_of_ne hji]
      rcases List.mem_append.1 hj with hj | hj
      · exact h.begun j hj
      · exact absurd (List.mem_singleton.1 hj) hji
  · intro j serial hj
    by_cases hji : j = i
    · subst hji
      rw [Function.update_self] at hj
      exact ⟨drawn.length, by simp, (Option.some.inj hj).symm⟩
    · rw [Function.update_of_ne hji] at hj
      obtain ⟨k, hk, hserial⟩ := h.ticket j serial hj
      have hlt : k < drawn.length := (List.getElem?_eq_some_iff.1 hk).1
      exact ⟨k, by rw [List.getElem?_append_left hlt, hk], hserial⟩

end Tickets

/-- Besides records there are just the objects that saves are at work on. -/
structure Workbench (jobs : Nat → Option Job) (status : Nat → Status) (memory : Memory) : Prop where
  held : ∀ i text body serial data, jobs i = some (.saving text body) →
    (status i).holds body = some (serial, data) →
    memory.find? (stagingId serial text) = some data
  objects : ∀ id data, memory.find? id = some data → (∃ text, id = recordId text) ∨
    ∃ i text body serial, jobs i = some (.saving text body) ∧
      (status i).holds body = some (serial, data) ∧
      id = stagingId serial text

namespace Workbench

variable {jobs : Nat → Option Job} {status : Nat → Status} {memory memory' : Memory}
  {i : Nat} {status' : Status}

/-- A call that has no object before and after its turn leaves the memory. -/
theorem keep (h : Workbench jobs status memory) (hbefore : ∀ body, (status i).holds body = none)
    (hafter : ∀ body, status'.holds body = none) :
    Workbench jobs (update status i status') memory := by
  constructor
  · intro j text body serial data hjob hholds
    by_cases hji : j = i
    · subst hji
      rw [Function.update_self, hafter] at hholds
      cases hholds
    · rw [Function.update_of_ne hji] at hholds
      exact h.held j text body serial data hjob hholds
  · intro id data hid
    rcases h.objects id data hid with hrecord | ⟨j, text, body, serial, hjob, hholds, rfl⟩
    · exact .inl hrecord
    · by_cases hji : j = i
      · subst hji
        rw [hbefore] at hholds
        cases hholds
      · refine .inr ⟨j, text, body, serial, hjob, ?_, rfl⟩
        rwa [Function.update_of_ne hji]

/-- A save that works on its object changes that object, and a record at most. -/
theorem change (h : Workbench jobs status memory) (serial : UInt64)
    {text : String} {body : ByteArray} (hjob : jobs i = some (.saving text body))
    (hunique : ∀ j, (status j).serial? = some serial → j = i)
    (hbefore : ∀ x, (status i).holds body = some x → x.1 = serial)
    (hafter : ∀ x, status'.holds body = some x → x.1 = serial)
    (hown : memory'.find? (stagingId serial text) = (status'.holds body).map Prod.snd)
    (hothers : ∀ id, id ≠ stagingId serial text → (∀ name, id ≠ recordId name) →
      memory'.find? id = memory.find? id) :
    Workbench jobs (update status i status') memory' := by
  constructor
  · intro j text' body' serial' data hjob' hholds
    by_cases hji : j = i
    · subst hji
      rw [hjob] at hjob'
      cases hjob'
      rw [Function.update_self] at hholds
      obtain rfl : serial' = serial := hafter _ hholds
      rw [hown, hholds]
      rfl
    · rw [Function.update_of_ne hji] at hholds
      have hne : stagingId serial' text' ≠ stagingId serial text := by
        intro heq
        rw [serial_of_stagingId_eq heq] at hholds
        exact hji (hunique j (Status.serial?_of_holds hholds))
      rw [hothers _ hne fun name => stagingId_ne_recordId _ _ _]
      exact h.held j text' body' serial' data hjob' hholds
  · intro id data hid
    by_cases hstaging : id = stagingId serial text
    · subst hstaging
      rw [hown] at hid
      obtain ⟨⟨serial', data'⟩, hholds, rfl⟩ := Option.map_eq_some_iff.1 hid
      obtain rfl : serial' = serial := hafter _ hholds
      refine .inr ⟨i, text, body, serial', hjob, ?_, rfl⟩
      rw [Function.update_self]
      exact hholds
    · by_cases hrecord : ∃ name, id = recordId name
      · exact .inl hrecord
      · rw [hothers id hstaging fun name heq => hrecord ⟨name, heq⟩] at hid
        rcases h.objects id data hid with hrecord' | ⟨j, text', body', serial', hjob', hholds, rfl⟩
        · exact .inl hrecord'
        · have hji : j ≠ i := by
            rintro rfl
            rw [hjob] at hjob'
            cases hjob'
            obtain rfl : serial' = serial := hbefore _ hholds
            exact hstaging rfl
          refine .inr ⟨j, text', body', serial', hjob', ?_, rfl⟩
          rwa [Function.update_of_ne hji]

end Workbench

/-- The body that a save put in its place, if an event is the rename of a save of the name. -/
def moved (calls : List Call) (text : String) : Nat × Event platformInterface → Option ByteArray
  | (i, ⟨PlatformOp.storage (.rename _ _), _⟩) =>
    match calls[i]? with
    | some (.save name body) => if name = text.toUTF8 then some body else none
    | _ => none
  | _ => none

/-- The body of the save of a name that was renamed last, in a history whose
last event comes first. -/
def lastMoved (calls : List Call) (text : String) (history : List (Nat × Event platformInterface)) :
    Option ByteArray :=
  history.findSome? (moved calls text)

def IsRead (text : String) : Event platformInterface → Prop
  | ⟨PlatformOp.storage (.openRead id), _⟩ => id = recordId text
  | _ => False

/-- The reply to a call is right: a save with a proper name succeeds, and a load
says what was renamed last when it read. -/
def Justified (limit : Nat) (calls : List Call)
    (history : List (Nat × Event platformInterface)) (i : Nat) :
    Call → Reply → Prop
  | .save name _, reply => reply = .saved ((checkName limit name).map fun _ => ())
  | .load name, reply =>
    match checkName limit name with
    | .error e => reply = .loaded (.error e)
    | .ok text => ∃ later read earlier, history = later ++ (i, read) :: earlier ∧ IsRead text read ∧
        reply = .loaded (found text (lastMoved calls text earlier))

theorem Justified.later {limit : Nat} {calls : List Call}
    {history : List (Nat × Event platformInterface)} {i : Nat} {call : Call} {reply : Reply}
    (h : Justified limit calls history i call reply) (e : Nat × Event platformInterface) :
    Justified limit calls (e :: history) i call reply := by
  cases call with
  | save name body => exact h
  | load name =>
    simp only [Justified] at h ⊢
    cases hname : checkName limit name with
    | error reason =>
      rw [hname] at h
      exact h
    | ok text =>
      rw [hname] at h
      obtain ⟨later, read, earlier, rfl, hread, hreply⟩ := h
      exact ⟨e :: later, read, earlier, rfl, hread, hreply⟩

/-- What holds after every turn. -/
structure Sound (limit : Nat) (calls : List Call) (first : UInt64) (status : Nat → Status)
    (drawn : List Nat) (p : Pool platformInterface Process Reply) : Prop where
  root : p.state.root = none
  serial : p.state.serial = first + UInt64.ofNat drawn.length
  left : ∀ i : Nat, p.left[i]? = calls[i]?.map fun call => (call.job limit).left (status i)
  tickets : Tickets limit calls first status drawn
  bench : Workbench (fun i => calls[i]?.map (Call.job limit)) status p.state.memory
  started : ∀ i, status i ≠ .waiting → ∃ e, (i, e) ∈ p.history
  records : ∀ text, p.state.memory.find? (recordId text) = lastMoved calls text p.history
  replies : ∀ i call reply, calls[i]? = some call → status i = .ended reply →
    Justified limit calls p.history i call reply

namespace Sound

variable {limit : Nat} {calls : List Call} {first : UInt64}
  {status : Nat → Status} {drawn : List Nat} {p : Pool platformInterface Process Reply} {i : Nat}

theorem advance (h : Sound limit calls first status drawn p) {call : Call}
    (hcall : calls[i]? = some call) {status' : Status} {drawn' : List Nat} {state : Process}
    {e : Event platformInterface} {rest : Platform Reply}
    (hrest : (call.job limit).left status' = rest) (hroot : state.root = none)
    (hserial : state.serial = first + UInt64.ofNat drawn'.length)
    (htickets : Tickets limit calls first (update status i status') drawn')
    (hbench : Workbench (fun i => calls[i]?.map (Call.job limit))
      (update status i status') state.memory)
    (hrecords : ∀ text, state.memory.find? (recordId text) =
      lastMoved calls text ((i, e) :: p.history))
    (hreply : ∀ reply, status' = .ended reply →
      Justified limit calls ((i, e) :: p.history) i call reply) :
    Sound limit calls first (update status i status') drawn'
      ⟨state, p.left.set i rest, (i, e) :: p.history⟩ := by
  subst hrest
  refine ⟨hroot, hserial, ?_, htickets, hbench, ?_, hrecords, ?_⟩
  · intro j
    by_cases hji : j = i
    · subst hji
      have hlt : j < p.left.length := by
        by_contra hge
        have hnone := h.left j
        rw [List.getElem?_eq_none (Nat.not_lt.1 hge), hcall] at hnone
        cases hnone
      rw [List.getElem?_set_self hlt, Function.update_self, hcall]
      rfl
    · rw [List.getElem?_set_ne fun hij => hji hij.symm, Function.update_of_ne hji]
      exact h.left j
  · intro j hj
    by_cases hji : j = i
    · subst hji
      exact ⟨e, List.mem_cons_self⟩
    · rw [Function.update_of_ne hji] at hj
      obtain ⟨other, hmem⟩ := h.started j hj
      exact ⟨other, List.mem_cons_of_mem _ hmem⟩
  · intro j other reply hother hended
    by_cases hji : j = i
    · subst hji
      rw [Function.update_self] at hended
      rw [hcall] at hother
      cases hother
      exact hreply reply hended
    · rw [Function.update_of_ne hji] at hended
      exact (h.replies j other reply hother hended).later _

theorem turn_storage (h : Sound limit calls first status drawn p)
    (files : (op : FileOp) → Id op.Answer) {op : StorageOp} {k : op.Answer → Platform Reply}
    (hleft : p.left[i]? = some ((Platform.storage op).bind k)) {x : op.Answer}
    {memory : Memory} (hperform : p.state.memory.perform op = (x, memory)) :
    p.turn (fun _ => Process.answer files) i =
      ⟨{ p.state with memory := memory }, p.left.set i (k x),
        (i, ⟨PlatformOp.storage op, x⟩) :: p.history⟩ := by
  have hanswer : (Process.answer files (.storage op)).run p.state =
      (x, { p.state with memory := memory }) := by
    simp only [Process.answer, Process.answerStorage, StateT.run, h.root, hperform]
    rfl
  have hturn : p.turn (fun _ => Process.answer files) i =
      p.performed (fun _ => Process.answer files) i
      (PlatformOp.storage op) k := Pool.turn_of_perform hleft
  refine hturn.trans ?_
  exact congrArg (fun answered : op.Answer × Process => (⟨answered.2, p.left.set i (k answered.1),
    (i, ⟨PlatformOp.storage op, answered.1⟩) :: p.history⟩ :
    Pool platformInterface Process Reply)) hanswer

variable {call : Call} {text : String} {body : ByteArray} {serial : UInt64}

theorem moved_of_storage {op : StorageOp} (h : op.call ≠ .rename) (text : String)
    (i : Nat) (x : op.Answer) :
    moved calls text (i, ⟨PlatformOp.storage op, x⟩) = none := by
  cases op with
  | rename => exact absurd rfl h
  | create | write | openRead | delete => rfl

/-- What a call that has come so far has left to do is its next operation. -/
theorem left_eq (h : Sound limit calls first status drawn p)
    (hcall : calls[i]? = some call) {job : Job}
    (hjob : call.job limit = job) : p.left[i]? = some (job.left (status i)) := by
  rw [h.left, hcall, Option.map_some, hjob]

theorem job_eq (hcall : calls[i]? = some call) {job : Job} (hjob : call.job limit = job) :
    calls[i]?.map (Call.job limit) = some job := by
  rw [hcall, Option.map_some, hjob]

theorem turn_draw (h : Sound limit calls first status drawn p)
    (files : (op : FileOp) → Id op.Answer) (hcall : calls[i]? = some call)
    (hjob : call.job limit = .saving text body) (hstatus : status i = .waiting) :
    Sound limit calls first (update status i (.drawn (first + UInt64.ofNat drawn.length)))
      (drawn ++ [i])
      (p.turn (fun _ => Process.answer files) i) := by
  have hleft : p.left[i]? = some (Platform.drawSerial.bind fun serial =>
      makeObject (stagingId serial text) (recordId text) body) := by
    rw [h.left_eq hcall hjob, hstatus]
    rfl
  have hturn : p.turn (fun _ => Process.answer files) i =
      ⟨{ p.state with serial := p.state.serial + 1 },
      p.left.set i (makeObject (stagingId p.state.serial text) (recordId text) body),
      (i, ⟨PlatformOp.drawSerial, p.state.serial⟩) :: p.history⟩ := Pool.turn_of_perform hleft
  rw [hturn]
  apply h.advance hcall
  · rw [hjob, h.serial]
    rfl
  · exact h.root
  · simp only [h.serial, List.length_append, List.length_singleton,
      UInt64.ofNat_add, UInt64.add_assoc]
    rfl
  · exact h.tickets.draw hstatus hcall hjob
  · refine h.bench.keep ?_ ?_
    · intro body
      rw [hstatus]
      rfl
    · intro body
      rfl
  · exact h.records
  · exact nofun

theorem turn_object (h : Sound limit calls first status drawn p)
    (hfew : calls.countP Call.isSave < 2 ^ 64) (files : (op : FileOp) → Id op.Answer)
    (hcall : calls[i]? = some call) (hjob : call.job limit = .saving text body)
    (hserial : (status i).serial? = some serial) {status' : Status} {op : StorageOp}
    {k : op.Answer → Platform Reply}
    (hleft : (Job.saving text body).left (status i) = (Platform.storage op).bind k)
    {x : op.Answer} {memory : Memory} (hperform : p.state.memory.perform op = (x, memory))
    (hrest : (Job.saving text body).left status' = k x)
    (hnumber : ∀ other, status'.serial? = some other → other = serial)
    (hwaiting : status' ≠ .waiting)
    (hown : memory.find? (stagingId serial text) = (status'.holds body).map Prod.snd)
    (hothers : ∀ id, id ≠ stagingId serial text → (∀ name, id ≠ recordId name) →
      memory.find? id = p.state.memory.find? id)
    (hrecords : ∀ name, memory.find? (recordId name) =
      lastMoved calls name ((i, ⟨PlatformOp.storage op, x⟩) :: p.history))
    (hreply : ∀ reply, status' = .ended reply →
      Justified limit calls ((i, ⟨PlatformOp.storage op, x⟩) :: p.history) i call reply) :
    Sound limit calls first (update status i status') drawn
      (p.turn (fun _ => Process.answer files) i) := by
  have hnext : p.left[i]? = some ((Platform.storage op).bind k) := by
    rw [h.left_eq hcall hjob, hleft]
  rw [h.turn_storage files hnext hperform]
  apply h.advance hcall
  · rw [hjob]
    exact hrest
  · exact h.root
  · exact h.serial
  · refine h.tickets.step hwaiting ?_
    intro other hother
    rw [hnumber other hother]
    exact hserial
  · refine h.bench.change serial (job_eq hcall hjob) ?_ ?_ ?_ hown hothers
    · intro j hj
      exact h.tickets.same_of_serial hfew hj hserial
    · rintro ⟨other, data⟩ hholds
      have hother := Status.serial?_of_holds hholds
      rw [hserial] at hother
      exact (Option.some.inj hother).symm
    · rintro ⟨other, data⟩ hholds
      exact hnumber other (Status.serial?_of_holds hholds)
  · exact hrecords
  · exact hreply

theorem records_insert (h : Sound limit calls first status drawn p) (serial : UInt64)
    (text : String) (data : ByteArray)
    {op : StorageOp} (hop : op.call ≠ .rename) (x : op.Answer) (name : String) :
    (p.state.memory.insert (stagingId serial text) data).find? (recordId name) =
      lastMoved calls name ((i, ⟨PlatformOp.storage op, x⟩) :: p.history) := by
  rw [Memory.find?_insert, Function.update_of_ne fun heq => stagingId_ne_recordId _ _ _ heq.symm,
    h.records name, lastMoved, lastMoved, List.findSome?_cons, moved_of_storage hop]

theorem others_insert (m : Memory) {id other : ObjectId} (data : ByteArray) (h : id ≠ other) :
    (m.insert other data).find? id = m.find? id := by
  rw [Memory.find?_insert, Function.update_of_ne h]

theorem turn_create (h : Sound limit calls first status drawn p)
    (hfew : calls.countP Call.isSave < 2 ^ 64) (files : (op : FileOp) → Id op.Answer)
    (hcall : calls[i]? = some call) (hjob : call.job limit = .saving text body)
    (hstatus : status i = .drawn serial) :
    Sound limit calls first (update status i (.created serial)) drawn
      (p.turn (fun _ => Process.answer files) i) := by
  apply h.turn_object hfew files hcall hjob
  · rw [hstatus]
    rfl
  · rw [hstatus]
    rfl
  · rfl
  · rfl
  · rintro other ⟨⟩
    rfl
  · exact nofun
  · exact Memory.find?_insert_self _ _ _
  · intro id hid _
    exact others_insert _ _ hid
  · apply h.records_insert
    exact nofun
  · exact nofun

theorem turn_write (h : Sound limit calls first status drawn p)
    (hfew : calls.countP Call.isSave < 2 ^ 64) (files : (op : FileOp) → Id op.Answer)
    (hcall : calls[i]? = some call) (hjob : call.job limit = .saving text body)
    (hstatus : status i = .created serial) :
    Sound limit calls first (update status i (.written serial)) drawn
      (p.turn (fun _ => Process.answer files) i) := by
  have hempty : p.state.memory.find? (stagingId serial text) = some (bytes []) := by
    apply h.bench.held i text body serial
    · exact job_eq hcall hjob
    · rw [hstatus]
      rfl
  have hperform : p.state.memory.perform (.write (stagingId serial text) body) =
      (Except.ok (), p.state.memory.insert (stagingId serial text) body) := by
    rw [Memory.perform_write _ hempty, bytes_nil_append]
  apply h.turn_object hfew files hcall hjob
  · rw [hstatus]
    rfl
  · rw [hstatus]
    rfl
  · exact hperform
  · rfl
  · rintro other ⟨⟩
    rfl
  · exact nofun
  · exact Memory.find?_insert_self _ _ _
  · intro id hid _
    exact others_insert _ _ hid
  · apply h.records_insert
    exact nofun
  · exact nofun

theorem turn_rename (h : Sound limit calls first status drawn p)
    (hfew : calls.countP Call.isSave < 2 ^ 64)
    (files : (op : FileOp) → Id op.Answer) (hcall : calls[i]? = some call)
    (hjob : call.job limit = .saving text body) (hstatus : status i = .written serial) :
    Sound limit calls first (update status i (.ended (.saved (.ok ())))) drawn
      (p.turn (fun _ => Process.answer files) i) := by
  obtain ⟨rfl, hname⟩ := Call.eq_of_saving hjob
  have hwhole : p.state.memory.find? (stagingId serial text) = some body := by
    apply h.bench.held i text body serial
    · exact job_eq hcall hjob
    · rw [hstatus]
      rfl
  have hperform : p.state.memory.perform (.rename (stagingId serial text) (recordId text)) =
      (Except.ok (), (p.state.memory.erase (stagingId serial text)).insert (recordId text) body) :=
    Memory.perform_rename _ hwhole
  have hfind : ((p.state.memory.erase (stagingId serial text)).insert (recordId text) body).find? =
      update (update p.state.memory.find? (stagingId serial text) none)
        (recordId text) (some body) := by
    rw [Memory.find?_insert, Memory.find?_erase]
  have hnotRecord : ∀ name, recordId name ≠ stagingId serial text :=
    fun name heq => stagingId_ne_recordId _ _ _ heq.symm
  apply h.turn_object hfew files hcall hjob
  · rw [hstatus]
    rfl
  · rw [hstatus]
    rfl
  · exact hperform
  · rfl
  · exact nofun
  · exact nofun
  · rw [hfind, Function.update_of_ne (hnotRecord text).symm, Function.update_self]
    rfl
  · intro id hid hrecord
    rw [hfind, Function.update_of_ne (hrecord text), Function.update_of_ne hid]
  · intro other
    have hmoved :
    moved calls other (i, ⟨PlatformOp.storage (.rename (stagingId serial text) (recordId text)),
        (Except.ok () : Except StoreError Unit)⟩) = if text.toUTF8 = other.toUTF8 then some body
        else none := by
      simp only [moved, hcall]
    rw [hfind, lastMoved, List.findSome?_cons, hmoved]
    by_cases heq : other = text
    · subst heq
      rw [Function.update_self, if_pos rfl]
    · have hid : recordId other ≠ recordId text := fun hid => heq (recordId_injective hid)
      have hbytes : text.toUTF8 ≠ other.toUTF8 := fun hbytes =>
        heq (String.toByteArray_inj.1 hbytes).symm
      rw [Function.update_of_ne hid, Function.update_of_ne (hnotRecord other), if_neg hbytes]
      exact h.records other
  · rintro reply ⟨⟩
    simp only [Justified, hname]
    rfl

theorem turn_load (h : Sound limit calls first status drawn p)
    (files : (op : FileOp) → Id op.Answer) (hcall : calls[i]? = some call)
    (hjob : call.job limit = .loading text) (hstatus : status i = .waiting) :
    Sound limit calls first
      (update status i (.ended (.loaded (found text (p.state.memory.find? (recordId text)))))) drawn
      (p.turn (fun _ => Process.answer files) i) := by
  have hleft : p.left[i]? = some ((Platform.storage (.openRead (recordId text))).bind fun x =>
      .done (.loaded (Except.bind x (found text)))) := by
    rw [h.left_eq hcall hjob, hstatus]
    rfl
  rw [h.turn_storage files hleft rfl]
  apply h.advance hcall
  · rw [hjob]
    rfl
  · exact h.root
  · exact h.serial
  · exact h.tickets.step nofun nofun
  · refine h.bench.keep ?_ ?_
    · intro body
      rw [hstatus]
      rfl
    · intro body
      rfl
  · exact h.records
  · rintro reply ⟨⟩
    obtain ⟨name, rfl, hname⟩ := Call.eq_of_loading hjob
    simp only [Justified, hname]
    refine ⟨[], _, p.history, rfl, rfl, ?_⟩
    rw [h.records text]

theorem saving_of_serial (h : Sound limit calls first status drawn p)
    (hcall : calls[i]? = some call) (hserial : (status i).serial? = some serial) :
    ∃ text body, call.job limit = .saving text body := by
  obtain ⟨k, hk, -⟩ := h.tickets.ticket i serial hserial
  obtain ⟨other, text, body, hother, hjob⟩ := h.tickets.saves i (List.mem_of_getElem? hk)
  rw [hcall] at hother
  cases hother
  exact ⟨text, body, hjob⟩

theorem turn (h : Sound limit calls first status drawn p) (hfew : calls.countP Call.isSave < 2 ^ 64)
    (files : (op : FileOp) → Id op.Answer) (i : Nat) :
    ∃ status' drawn',
      Sound limit calls first status' drawn' (p.turn (fun _ => Process.answer files) i) := by
  have hrests : p.turn (fun _ => Process.answer files) i = p →
      ∃ status' drawn',
      Sound limit calls first status' drawn' (p.turn (fun _ => Process.answer files) i) := by
    intro hturn
    rw [hturn]
    exact ⟨status, drawn, h⟩
  cases hcall : calls[i]? with
  | none =>
    have hleft : p.left[i]? = none := by rw [h.left, hcall, Option.map_none]
    exact hrests (Pool.turn_of_none hleft)
  | some call =>
    cases hstatus : status i with
    | ended reply =>
      have hleft : p.left[i]? = some (.done reply) := by
        rw [h.left_eq hcall rfl, hstatus]
        cases call.job limit <;> rfl
      exact hrests (Pool.turn_of_done hleft)
    | waiting =>
      cases hjob : call.job limit with
      | refused reply =>
        have hleft : p.left[i]? = some (.done reply) := by
          rw [h.left_eq hcall hjob, hstatus]
          rfl
        exact hrests (Pool.turn_of_done hleft)
      | loading text => exact ⟨_, _, h.turn_load files hcall hjob hstatus⟩
      | saving text body => exact ⟨_, _, h.turn_draw files hcall hjob hstatus⟩
    | drawn serial =>
      obtain ⟨text, body, hjob⟩ :=
        h.saving_of_serial hcall (hstatus ▸ rfl : (status i).serial? = some serial)
      exact ⟨_, _, h.turn_create hfew files hcall hjob hstatus⟩
    | created serial =>
      obtain ⟨text, body, hjob⟩ :=
        h.saving_of_serial hcall (hstatus ▸ rfl : (status i).serial? = some serial)
      exact ⟨_, _, h.turn_write hfew files hcall hjob hstatus⟩
    | written serial =>
      obtain ⟨text, body, hjob⟩ :=
        h.saving_of_serial hcall (hstatus ▸ rfl : (status i).serial? = some serial)
      exact ⟨_, _, h.turn_rename hfew files hcall hjob hstatus⟩

theorem justified (h : Sound limit calls first status drawn p) (hcall : calls[i]? = some call)
    {reply : Reply}
    (hdone : p.left[i]? = some (.done reply)) : Justified limit calls p.history i call reply := by
  rw [h.left_eq hcall rfl] at hdone
  cases hstatus : status i with
  | ended other =>
    obtain rfl : other = reply := by
      rw [hstatus] at hdone
      cases call.job limit <;> cases hdone <;> rfl
    exact h.replies i call other hcall hstatus
  | drawn serial | created serial | written serial =>
    obtain ⟨text, body, hjob⟩ :=
      h.saving_of_serial hcall (hstatus ▸ rfl : (status i).serial? = some serial)
    rw [hstatus, hjob] at hdone
    cases hdone
  | waiting =>
    rw [hstatus] at hdone
    cases call with
    | save name body =>
      cases hname : checkName limit name with
      | ok text =>
        simp only [Call.job, hname] at hdone
        cases hdone
      | error e =>
        simp only [Call.job, hname] at hdone
        cases hdone
        simp only [Justified, hname]
        rfl
    | load name =>
      cases hname : checkName limit name with
      | ok text =>
        simp only [Call.job, hname] at hdone
        cases hdone
      | error e =>
        simp only [Call.job, hname] at hdone
        cases hdone
        simp only [Justified, hname]

theorem record_or_inFlight (h : Sound limit calls first status drawn p)
    {id : ObjectId} {data : ByteArray} (hid : p.state.memory.find? id = some data) :
    (∃ text, id = recordId text) ∨ ∃ i, calls[i]?.any Call.isSave = true ∧ p.InFlight i := by
  rcases h.bench.objects id data hid with hrecord | ⟨i, text, body, serial, hjob, hholds, -⟩
  · exact .inl hrecord
  · obtain ⟨call, hcall, hjob⟩ := Option.map_eq_some_iff.1 hjob
    refine .inr ⟨i, ?_, ?_, ?_⟩
    · obtain ⟨rfl, -⟩ := Call.eq_of_saving hjob
      rw [hcall]
      rfl
    · apply h.started i
      intro hwaiting
      rw [hwaiting] at hholds
      cases hholds
    · intro reply hdone
      rw [h.left_eq hcall hjob] at hdone
      cases hstatus : status i with
      | created other | written other =>
        rw [hstatus] at hdone
        cases hdone
      | waiting | drawn other | ended other =>
        rw [hstatus] at hholds
        cases hholds

end Sound

/-- Calls that have not begun, in a process whose memory is empty. -/
def atRest (limit : Nat) (first : UInt64) (calls : List Call) :
    Pool platformInterface Process Reply :=
  { state := { root := none, serial := first }, left := calls.map (Call.program limit) }

theorem sound_atRest (limit : Nat) (first : UInt64) (calls : List Call) :
    Sound limit calls first (fun _ => .waiting) [] (atRest limit first calls) where
  root := rfl
  serial := by simp [atRest]
  left i := by simp [atRest, Call.job_left]
  tickets := ⟨List.nodup_nil, nofun, nofun, nofun⟩
  bench := ⟨nofun, nofun⟩
  started i h := absurd rfl h
  records _ := rfl
  replies := nofun

/-- Saves that run at the same time never merge.  Let calls of one process on
storage in memory take turns in any order, and let fewer than 2⁶⁴ of them be
saves.  Then every call returns after five turns at most; a save returns without
a failure unless its name is improper; a record is at every moment what the last
save of its name that was renamed has put there as a whole, or absent if there
is none, and that is what a load returns; and while no save is in flight there
are no objects but records. -/
theorem concurrent_saves_never_merge (files : (op : FileOp) → Id op.Answer)
    (limit : Nat) (first : UInt64)
    (calls : List Call) (hfew : calls.countP Call.isSave < 2 ^ 64) (schedule : List Nat) :
    let p := (atRest limit first calls).after (fun _ => Process.answer files) schedule
    (∀ i < calls.length, 5 ≤ schedule.count i → ∃ reply, p.left[i]? = some (.done reply)) ∧
      (∀ (i : Nat) (call : Call) (reply : Reply), calls[i]? = some call →
        p.left[i]? = some (.done reply) →
        Justified limit calls p.history i call reply) ∧
      (∀ text, p.state.memory.find? (recordId text) = lastMoved calls text p.history) ∧
      ((∀ i : Nat, calls[i]?.any Call.isSave = true → ¬p.InFlight i) →
        ∀ id data, p.state.memory.find? id = some data → ∃ text, id = recordId text) := by
  intro p
  obtain ⟨status, drawn, hsound⟩ : ∃ status drawn, Sound limit calls first status drawn p := by
    refine Pool.after_induction (fun p => ∃ status drawn, Sound limit calls first status drawn p) ?_
      ⟨_, _, sound_atRest limit first calls⟩ schedule
    rintro q i ⟨status, drawn, h⟩
    exact h.turn hfew files i
  refine ⟨?_, ?_, hsound.records, ?_⟩
  · intro i hi hturns
    have hleft : (atRest limit first calls).left[i]? = some (calls[i].program limit) := by
      simp [atRest, hi]
    exact Pool.done_of_turns (calls[i].within limit) hleft hturns
  · intro i call reply hcall hdone
    exact hsound.justified hcall hdone
  · intro hnone id data hid
    rcases hsound.record_or_inFlight hid with hrecord | ⟨i, hsave, hflight⟩
    · exact hrecord
    · exact absurd hflight (hnone i hsave)

/-- Files of a process that keeps its objects in memory. -/
def noFiles (op : FileOp) : Id op.Answer := ((FileTree.directory []).perform op).1

def twoSaves : List Call := [.save (bytes [102]) (bytes [49]), .save (bytes [102]) (bytes [50])]

/-- Two saves of one name, in step until the second is renamed first. -/
def inStep : Pool platformInterface Process Reply :=
  (atRest 64 0 twoSaves).after (fun _ => Process.answer noFiles) [0, 1, 0, 1, 0, 1, 1, 0]

theorem inStep_does_not_merge :
    twoSaves.countP Call.isSave < 2 ^ 64 ∧ inStep.state.memory.find? (recordId "f") =
      some (bytes [49]) := by
  have hfew : twoSaves.countP Call.isSave < 2 ^ 64 := by decide
  have hrecord : inStep.state.memory.find? (recordId "f") = lastMoved twoSaves "f" inStep.history :=
    (concurrent_saves_never_merge noFiles 64 0 twoSaves hfew [0, 1, 0, 1, 0, 1, 1, 0]).2.2.1 "f"
  have hlast : lastMoved twoSaves "f" inStep.history = some (bytes [49]) := by decide +kernel
  exact ⟨hfew, hrecord.trans hlast⟩

end Scripts
end SealedLua
