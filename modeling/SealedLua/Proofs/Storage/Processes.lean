import SealedLua.Platform.Host
import SealedLua.Proofs.Storage.Desk
import SealedLua.Proofs.Storage.Directory

/-!
# Saves of processes that share a directory

Serial numbers are counted within a process, so processes that keep their
objects in one directory may draw the same number for the same name.  Processes
that each save one script take turns at single operations here, over the files
of one tree.  What they do to the files follows the `Desk`, and so the bodies
that come to be in a record are known exactly.
-/

namespace SealedLua

open Function (update)
open FilePath (Leads)
open Directory (Fits Holds)

/-- Processes over the same files. -/
structure Processes where
  files : FileTree
  process : Nat → Process

namespace Processes

/-- Answers an operation of one of the processes. -/
def answer (i : Nat) (op : PlatformOp) : StateM Processes op.Answer := fun s =>
  let r := ((Process.answer Host.answerFile op).run (s.process i)).run s.files
  (r.1.1, ⟨r.2, update s.process i r.1.2⟩)

theorem answer_of_run {s : Processes} {i : Nat} {op : PlatformOp} {x : op.Answer}
    {p : Process} {files : FileTree}
    (h : ((Process.answer Host.answerFile op).run (s.process i)).run s.files = ((x, p), files)) :
    (answer i op).run s = (x, ⟨files, update s.process i p⟩) :=
  congrArg (fun r : (op.Answer × Process) × FileTree =>
    (r.1.1, (⟨r.2, update s.process i r.1.2⟩ : Processes))) h

/-- What the record of a name is below a root. -/
def record (root text : String) (s : Processes) : Except StoreError (Option ByteArray) :=
  ((Directory.Call.inDirectory root (.perform (.openRead (Scripts.recordId text)))).run s.files).1

end Processes

namespace Scripts

/-- Processes that are to save a script each under one name, each on a storage
in the same directory. -/
def Save.each (root : String) (limit : Nat) (text : String) (files : FileTree) (saves : List Save) :
    Pool platformInterface Processes Reply where
  state := ⟨files, fun i => { root := some root, serial := (saves[i]?.map Save.serial).getD 0 }⟩
  left := saves.map fun s => Call.program limit (.save text.toUTF8 s.body)

/-- The operation on storage that a save is at, and what becomes of the save and of the objects. -/
theorem Save.exists_op (text : String) (s : Save) {stage : Stage} (hbegun : stage ≠ .waiting)
    (hgoing : ∀ outcome, stage ≠ .ended outcome) :
    ∃ (op : StorageOp) (k : op.Answer → Platform Reply), s.left text stage =
      (Platform.storage op).bind k ∧
      (∀ id ∈ op.ids, id = s.scratch text ∨ id = recordId text) ∧
      ∀ m : Memory, s.left text (s.step text m.find? stage).1 = k (m.perform op).1 ∧
        (m.perform op).2.find? = (s.step text m.find? stage).2 ∧
          (s.step text m.find? stage).1 ≠ .waiting := by
  cases stage with
  | waiting => exact absurd rfl hbegun
  | ended outcome => exact absurd rfl (hgoing outcome)
  | drawn =>
    refine ⟨.create (s.scratch text), _, rfl, fun id hid => .inl (List.mem_singleton.1 hid), ?_⟩
    intro m
    exact ⟨rfl, m.find?_insert _ _, Stage.noConfusion⟩
  | created =>
    refine ⟨.write (s.scratch text) s.body, _, rfl, fun id hid =>
      .inl (List.mem_singleton.1 hid), ?_⟩
    intro m
    cases hfound : m.find? (s.scratch text) with
    | none =>
      have hperform : m.perform (.write (s.scratch text) s.body) =
          (.error (.missing (s.scratch text)), m) := by
        simp only [Memory.perform, hfound]
      rw [s.step_created_missing text hfound, hperform]
      exact ⟨rfl, rfl, Stage.noConfusion⟩
    | some old =>
      rw [s.step_created text hfound, m.perform_write hfound]
      exact ⟨rfl, m.find?_insert _ _, Stage.noConfusion⟩
  | written =>
    refine ⟨.rename (s.scratch text) (recordId text), _, rfl, fun id hid => List.mem_pair.1 hid, ?_⟩
    intro m
    cases hfound : m.find? (s.scratch text) with
    | none =>
      have hperform : m.perform (.rename (s.scratch text) (recordId text)) =
          (.error (.missing (s.scratch text)), m) := by
        simp only [Memory.perform, hfound]
      rw [s.step_written_missing text hfound, hperform]
      exact ⟨rfl, rfl, Stage.noConfusion⟩
    | some data =>
      rw [s.step_written text hfound, m.perform_rename hfound]
      refine ⟨rfl, ?_, Stage.noConfusion⟩
      rw [Memory.find?_insert, Memory.find?_erase]
  | failed e =>
    refine ⟨.delete (s.scratch text), _, rfl, fun id hid => .inl (List.mem_singleton.1 hid), ?_⟩
    intro m
    exact ⟨rfl, m.find?_erase _, Stage.noConfusion⟩

/-- The processes are as the desk says. -/
structure Follows (root : String) (parts : List String) (text : String) (saves : List Save)
    (p : Pool platformInterface Processes Reply) (d : Desk) : Prop where
  root : ∀ i, (p.state.process i).root = some root
  serial : ∀ (i : Nat) (s : Save), saves[i]? = some s → d.stage i = .waiting →
    (p.state.process i).serial = s.serial
  left : ∀ i : Nat, p.left[i]? = saves[i]?.map fun s => s.left text (d.stage i)
  files : ∃ m : Memory, Holds parts p.state.files m ∧ m.find? = d.objects

namespace Follows

variable {root : String} {parts : List String} {text : String} {saves : List Save}
  {p : Pool platformInterface Processes Reply} {d : Desk} {i : Nat} {s : Save}

/-- A save comes to a stage, if what it has left to do goes with it. -/
theorem put (h : Follows root parts text saves p d) (hsave : saves[i]? = some s)
    {state : Processes} {stage : Stage} {objects : Objects} {rest : Platform Reply}
    (history : List (Nat × Program.Event platformInterface))
    (hrest : s.left text stage = rest) (hroot : ∀ j, (state.process j).root = some root)
    (hserial : stage ≠ .waiting ∧ ∀ j ≠ i, state.process j = p.state.process j)
    (hfiles : ∃ m : Memory, Holds parts state.files m ∧ m.find? = objects) :
    Follows root parts text saves ⟨state, p.left.set i rest, history⟩ (d.put i stage objects) where
  root := hroot
  serial j other hother hwaiting := by
    by_cases hji : j = i
    · subst hji
      rw [d.stage_put_self] at hwaiting
      exact absurd hwaiting hserial.1
    · rw [d.stage_put_of_ne hji] at hwaiting
      rw [hserial.2 j hji]
      exact h.serial j other hother hwaiting
  left j := by
    by_cases hji : j = i
    · subst hji
      have hlt : j < p.left.length := by
        by_contra hge
        have hnone := h.left j
        rw [List.getElem?_eq_none (Nat.not_lt.1 hge), hsave] at hnone
        cases hnone
      rw [List.getElem?_set_self hlt, d.stage_put_self, hsave, ← hrest]
      rfl
    · rw [List.getElem?_set_ne fun hij => hji hij.symm, d.stage_put_of_ne hji]
      exact h.left j
  files := hfiles

/-- A turn at an operation on storage is answered as the memory answers it that the files are. -/
theorem turn_storage (hroot : Leads root parts)
    (hfits : ∀ id, id = s.scratch text ∨ id = recordId text → Fits id)
    (h : Follows root parts text saves p d) (hsave : saves[i]? = some s)
    (hbegun : d.stage i ≠ .waiting) (hgoing : ∀ outcome, d.stage i ≠ .ended outcome) :
    Follows root parts text saves (p.turn Processes.answer i) (d.turn text saves i) := by
  obtain ⟨m, hholds, hobjects⟩ := h.files
  obtain ⟨op, k, hleft, hids, hstep⟩ := s.exists_op text hbegun hgoing
  obtain ⟨hrest, hfind, hwaiting⟩ := hstep m
  obtain ⟨x, t', m', hrun, hperformed, hholds'⟩ : ∃ (x : op.Answer) (t' : FileTree) (m' : Memory),
      (Directory.Call.inDirectory root (.perform op)).run p.state.files = (x, t') ∧
        m.perform op = (x, m') ∧
        Holds parts t' m' :=
    Directory.run_call hroot hholds (c := .perform op) fun id hid => hfits id (hids id hid)
  rw [hperformed, hobjects] at hrest hfind
  rw [hobjects] at hwaiting
  have hlefti : p.left[i]? = some ((Platform.storage op).bind k) := by
    rw [h.left i, hsave, ← hleft]
    rfl
  have hstorage : ((Process.answer Host.answerFile (.storage op)).run (p.state.process i)).run
      p.state.files =
      ((x, p.state.process i), t') := by
    simp only [Process.answer, Process.answerStorage, StateT.run, h.root i]
    exact congrArg (fun r : op.Answer × FileTree => ((r.1, p.state.process i), r.2)) hrun
  have hanswer : (Processes.answer i (.storage op)).run p.state = (x, ⟨t', p.state.process⟩) := by
    rw [Processes.answer_of_run hstorage, Function.update_eq_self]
    rfl
  have hperform' : p.turn Processes.answer i = p.performed Processes.answer i
      (PlatformOp.storage op) k :=
    Pool.turn_of_perform hlefti
  have hturn : p.turn Processes.answer i =
      ⟨⟨t', p.state.process⟩, p.left.set i (k x),
        (i, ⟨PlatformOp.storage op, x⟩) :: p.history⟩ := by
    refine hperform'.trans ?_
    exact congrArg (fun r : op.Answer × Processes =>
      (⟨r.2, p.left.set i (k r.1), (i, ⟨PlatformOp.storage op, r.1⟩) :: p.history⟩ :
        Pool platformInterface Processes Reply)) hanswer
  rw [hturn, Desk.turn_of_some hsave]
  exact h.put hsave _ hrest h.root ⟨hwaiting, fun _ _ => rfl⟩ ⟨m', hholds', hfind⟩

theorem turn_draw (h : Follows root parts text saves p d) (hsave : saves[i]? = some s)
    (hstage : d.stage i = .waiting) :
    Follows root parts text saves (p.turn Processes.answer i) (d.put i .drawn d.objects) := by
  have hserial : (p.state.process i).serial = s.serial := h.serial i s hsave hstage
  have hleft : p.left[i]? = some (Platform.drawSerial.bind fun serial =>
      makeObject (stagingId serial text) (recordId text) s.body) := by
    rw [h.left i, hsave, hstage]
    rfl
  have hanswer : (Processes.answer i .drawSerial).run p.state =
      (s.serial,
        ⟨p.state.files,
        update p.state.process i { p.state.process i with serial := s.serial + 1 }⟩) := by
    rw [← hserial]
    exact Processes.answer_of_run rfl
  have hperform' : p.turn Processes.answer i = p.performed Processes.answer i
      PlatformOp.drawSerial _ :=
    Pool.turn_of_perform hleft
  have hturn : p.turn Processes.answer i =
      ⟨⟨p.state.files, update p.state.process i { p.state.process i with serial := s.serial + 1 }⟩,
        p.left.set i (makeObject (s.scratch text) (recordId text) s.body),
        (i, ⟨PlatformOp.drawSerial, s.serial⟩) :: p.history⟩ := by
    refine hperform'.trans ?_
    exact congrArg (fun r : UInt64 × Processes =>
      (⟨r.2, p.left.set i (makeObject (stagingId r.1 text) (recordId text) s.body),
        (i, ⟨PlatformOp.drawSerial, r.1⟩) :: p.history⟩ : Pool platformInterface
        Processes Reply)) hanswer
  have hroots : ∀ j,
      (update p.state.process i { p.state.process i with serial := s.serial + 1 } j).root =
      some root := by
    intro j
    by_cases hji : j = i
    · subst hji
      rw [Function.update_self]
      exact h.root j
    · rw [Function.update_of_ne hji]
      exact h.root j
  rw [hturn]
  exact h.put hsave _ rfl hroots ⟨nofun, fun j hji => Function.update_of_ne hji _ _⟩ h.files

theorem turn (hroot : Leads root parts) (hrecord : Fits (recordId text))
    (hfits : ∀ s ∈ saves, Fits (s.scratch text)) (h : Follows root parts text saves p d) (i : Nat) :
    Follows root parts text saves (p.turn Processes.answer i) (d.turn text saves i) := by
  cases hsave : saves[i]? with
  | none =>
    have hturn : p.turn Processes.answer i = p := by
      apply Pool.turn_of_none
      rw [h.left i, hsave, Option.map_none]
    rw [Desk.turn_of_none hsave, hturn]
    exact h
  | some s =>
    have hids : ∀ id, id = s.scratch text ∨ id = recordId text → Fits id := by
      rintro id (rfl | rfl)
      · exact hfits s (List.mem_of_getElem? hsave)
      · exact hrecord
    cases hstage : d.stage i with
    | waiting =>
      rw [Desk.turn_of_step hsave hstage (s.step_waiting text _)]
      exact h.turn_draw hsave hstage
    | drawn | created | written | failed =>
      exact h.turn_storage hroot hids hsave (hstage ▸ nofun) (hstage ▸ nofun)
    | ended outcome =>
      have hturn : p.turn Processes.answer i = p := by
        apply Pool.turn_of_done (a := .saved outcome)
        rw [h.left i, hsave, hstage]
        rfl
      rw [Desk.turn_of_step hsave hstage (s.step_ended text _ outcome),
        ← hstage, Desk.put_self, hturn]
      exact h

theorem record_eq (hroot : Leads root parts) (hrecord : Fits (recordId text))
    (h : Follows root parts text saves p d) :
    p.state.record root text = .ok (d.objects (recordId text)) := by
  obtain ⟨m, hholds, hobjects⟩ := h.files
  rw [Processes.record, Directory.run_openRead hroot hholds hrecord, hobjects]
  rfl

theorem stage_of_done (h : Follows root parts text saves p d) {reply : Reply}
    (hdone : p.left[i]? = some (.done reply)) :
    ∃ outcome, d.stage i = .ended outcome ∧ reply = .saved outcome := by
  rw [h.left i] at hdone
  obtain ⟨s, -, hleft⟩ := Option.map_eq_some_iff.1 hdone
  cases hstage : d.stage i with
  | ended outcome =>
    rw [hstage] at hleft
    cases hleft
    exact ⟨outcome, rfl, rfl⟩
  | waiting | drawn | created | written | failed =>
    rw [hstage] at hleft
    cases hleft

theorem done_of_stage (h : Follows root parts text saves p d) (hsave : saves[i]? = some s)
    {outcome : Except StoreError Unit} (hstage : d.stage i = .ended outcome) :
    p.left[i]? = some (.done (.saved outcome)) := by
  rw [h.left i, hsave, hstage]
  rfl

end Follows

/-- The next operation of a process is to fill its scratch object or to move it. -/
def AtWork (p : Pool platformInterface Processes Reply) (i : Nat) : Prop :=
  ∃ (op : StorageOp) (k : op.Answer → Platform Reply),
    p.left[i]? = some ((Platform.storage op).bind k) ∧
    (op.call = .write ∨ op.call = .rename)

section Running

variable {root : String} {parts : List String} {limit : Nat} {text : String}
  {files : FileTree} {m : Memory} {saves : List Save}

theorem Follows.atWork {p : Pool platformInterface Processes Reply} {d : Desk}
    (h : Follows root parts text saves p d) {serial : UInt64} {i : Nat}
    (hdraws : Desk.Draws saves serial i) (hwork : (d.stage i).AtWork) : AtWork p i := by
  obtain ⟨s, hsave, -⟩ := hdraws
  have hleft : p.left[i]? = some (s.left text (d.stage i)) := by
    rw [h.left i, hsave]
    rfl
  cases hstage : d.stage i with
  | created =>
    rw [hstage] at hleft
    exact ⟨_, _, hleft, .inl rfl⟩
  | written =>
    rw [hstage] at hleft
    exact ⟨_, _, hleft, .inr rfl⟩
  | waiting | drawn | failed | ended =>
    rw [hstage] at hwork
    cases hwork

theorem follows_each (hfiles : Holds parts files m)
    (hname : checkName limit text.toUTF8 = .ok text) :
    Follows root parts text saves (Save.each root limit text files saves) (Desk.begin m.find?) where
  root _ := rfl
  serial i s hsave _ := by simp [Save.each, hsave]
  left i := by
    rw [Save.each, List.getElem?_map]
    congr 1
    funext s
    rw [← Call.job_left]
    simp only [Call.job, hname]
    rfl
  files := ⟨m, hfiles, rfl⟩

theorem follows_after (hroot : Leads root parts) (hfiles : Holds parts files m)
    (hname : checkName limit text.toUTF8 = .ok text) (hrecord : Fits (recordId text))
    (hfits : ∀ s ∈ saves, Fits (s.scratch text)) (schedule : List Nat) :
    Follows root parts text saves
      ((Save.each root limit text files saves).after Processes.answer schedule)
      ((Desk.begin m.find?).after text saves schedule) := by
  induction schedule using List.reverseRecOn with
  | nil => exact follows_each hfiles hname
  | append_singleton earlier i ih =>
    have hturn : (Save.each root limit text files saves).after Processes.answer (earlier ++ [i]) =
        ((Save.each root limit text files saves).after Processes.answer earlier).turn
          Processes.answer i :=
      Pool.after_append earlier [i]
    rw [Desk.after_append, hturn]
    exact ih.turn hroot hrecord hfits i

/-- What comes to be in the record after some schedule is what was there, or
what some of the bodies come to together. -/
theorem exists_record_iff (hroot : Leads root parts) (hfiles : Holds parts files m)
    (hname : checkName limit text.toUTF8 = .ok text) (hrecord : Fits (recordId text))
    (hfits : ∀ s ∈ saves, Fits (s.scratch text)) (found : Except StoreError (Option ByteArray)) :
    (∃ schedule,
      ((Save.each root limit text files saves).after Processes.answer schedule).state.record root
        text = found) ↔
      found = .ok (m.find? (recordId text)) ∨
        ∃ writers, Desk.Mergeable saves writers ∧
          found = .ok (some (Desk.together saves writers)) := by
  have hsame : ∀ schedule,
      ((Save.each root limit text files saves).after Processes.answer schedule).state.record root
        text = .ok (((Desk.begin m.find?).after text saves schedule).objects (recordId text)) :=
    fun schedule =>
      (follows_after hroot hfiles hname hrecord hfits schedule).record_eq hroot hrecord
  constructor
  · rintro ⟨schedule, rfl⟩
    rw [hsame schedule]
    rcases (Desk.exists_record_iff m.find? _).1 ⟨schedule, rfl⟩ with hbefore |
    ⟨writers, hmerge, hbody⟩
    · rw [hbefore]
      exact .inl rfl
    · rw [hbody]
      exact .inr ⟨writers, hmerge, rfl⟩
  · rintro (rfl | ⟨writers, hmerge, rfl⟩)
    · exact ⟨[], hsame []⟩
    · obtain ⟨schedule, hbody⟩ := Desk.exists_merge m.find? hmerge
      exact ⟨schedule, by rw [hsame schedule, hbody]⟩

/-- Every process that is done has saved its script, and the record is what it was or
the whole body of such a process. -/
def Unmerged (root text : String) (previous : Option ByteArray) (saves : List Save)
    (p : Pool platformInterface Processes Reply) : Prop :=
  (∀ (i : Nat) (reply : Reply), p.left[i]? = some (.done reply) → reply = .saved (.ok ())) ∧
    (((∀ (i : Nat) (reply : Reply), p.left[i]? ≠ some (.done reply)) ∧
      p.state.record root text = .ok previous) ∨
      ∃ (i : Nat) (s : Save), saves[i]? = some s ∧ p.left[i]? = some (.done (.saved (.ok ()))) ∧
        p.state.record root text = .ok (some s.body))

theorem Follows.unmerged (hroot : Leads root parts) (hrecord : Fits (recordId text))
    {previous : Option ByteArray}
    {p : Pool platformInterface Processes Reply} {d : Desk} (h : Follows root parts text saves p d)
    (hwhole : Desk.Whole text saves previous d) : Unmerged root text previous saves p := by
  have hsucceeds : ∀ (i : Nat) (reply : Reply), p.left[i]? = some (.done reply) →
      reply = .saved (.ok ()) ∧ d.stage i = .ended (.ok ()) := by
    intro i reply hdone
    obtain ⟨outcome, hstage, rfl⟩ := h.stage_of_done hdone
    cases outcome with
    | error e => exact absurd hstage (hwhole.succeeds i e).2
    | ok => exact ⟨rfl, hstage⟩
  refine ⟨fun i reply hdone => (hsucceeds i reply hdone).1, ?_⟩
  rw [h.record_eq hroot hrecord]
  rcases hwhole.record with ⟨hnone, hsame⟩ | ⟨i, s, hsave, hended, hbody⟩
  · rw [hsame]
    exact .inl ⟨fun i reply hdone => hnone i (hsucceeds i reply hdone).2, rfl⟩
  · rw [hbody]
    exact .inr ⟨i, s, hsave, h.done_of_stage hsave hended, rfl⟩

section Two

variable {one two : Save}

theorem fits_pair (hone : Fits (one.scratch text)) (htwo : Fits (two.scratch text)) :
    ∀ s ∈ [one, two], Fits (s.scratch text) := by
  intro s hs
  rcases List.mem_pair.1 hs with rfl | rfl
  · exact hone
  · exact htwo

theorem draws_pair {serial : UInt64} {i : Nat} :
    Desk.Draws [one, two] serial i ↔ (i = 0 ∧ one.serial = serial) ∨
      (i = 1 ∧ two.serial = serial) := by
  rcases i with _ | _ | i <;> simp [Desk.Draws]

/-- The bodies of two processes that come together are one of them, or, if the serial
numbers are the same, both in some order or none. -/
theorem mergeable_pair {writers : List Nat} :
    Desk.Mergeable [one, two] writers ↔
      writers = [0] ∨ writers = [1] ∨ one.serial = two.serial ∧
        (writers = [] ∨ writers = [0, 1] ∨ writers = [1, 0]) := by
  constructor
  · rintro ⟨serial, hmeet, hempty⟩
    have hpair : ∀ i ∈ writers, (i = 0 ∧ one.serial = serial) ∨ (i = 1 ∧ two.serial = serial) :=
      fun i hi => draws_pair.1 (hmeet.same i hi)
    have hdifferent := hmeet.different
    rcases writers with _ | ⟨i, _ | ⟨j, _ | ⟨k, rest⟩⟩⟩
    · obtain ⟨i, j, hij, hi, hj⟩ := hempty rfl
      rw [draws_pair] at hi hj
      grind
    · rcases hpair i (by simp) with ⟨rfl, -⟩ | ⟨rfl, -⟩ <;> simp
    · have hi := hpair i (by simp)
      have hj := hpair j (by simp)
      have hij : i ≠ j := by simpa using hdifferent
      grind
    · have hi := hpair i (by simp)
      have hj := hpair j (by simp)
      have hk := hpair k (by simp)
      simp only [List.nodup_cons, List.mem_cons, not_or] at hdifferent
      omega
  · rintro (rfl | rfl | ⟨hserial, rfl | rfl | rfl⟩)
    · exact ⟨one.serial, ⟨by simp, by simp [draws_pair]⟩, nofun⟩
    · exact ⟨two.serial, ⟨by simp, by simp [draws_pair]⟩, nofun⟩
    · exact ⟨one.serial, ⟨by simp, by simp⟩, fun _ =>
        ⟨0, 1, by simp, by simp [draws_pair], by simp [draws_pair, hserial]⟩⟩
    · exact ⟨one.serial, ⟨by simp, by simp [draws_pair, hserial]⟩, nofun⟩
    · exact ⟨one.serial, ⟨by simp, by simp [draws_pair, hserial]⟩, nofun⟩

theorem together_pair (one two : Save) :
    Desk.together [one, two] [] = bytes [] ∧ Desk.together [one, two] [0] = one.body ∧
      Desk.together [one, two] [1] = two.body ∧
      Desk.together [one, two] [0, 1] = one.body ++ two.body ∧
      Desk.together [one, two] [1, 0] = two.body ++ one.body := by
  simp [Desk.together, bytes_nil_append]

/-- Saves of one name by two processes over one directory can merge exactly if both
draw the same serial number.  After some turns the record is what it was, after others
it is the body of the one or of the other, and it is nothing else unless the numbers
are the same; then some turns leave it empty, and some leave both bodies in it, in
either order.  But as long as the two are never at work on one object at a time, no
save fails and the record is whole. -/
theorem saves_of_processes_merge_iff (hroot : Leads root parts) (hfiles : Holds parts files m)
    (hname : checkName limit text.toUTF8 = .ok text) (hrecord : Fits (recordId text))
    (hone : Fits (one.scratch text)) (htwo : Fits (two.scratch text)) :
    let after := (Save.each root limit text files [one, two]).after Processes.answer
    let previous := m.find? (recordId text)
    (∀ found, (∃ schedule, (after schedule).state.record root text = found) ↔
        found = .ok previous ∨ found = .ok (some one.body) ∨ found = .ok (some two.body) ∨
          one.serial = two.serial ∧
            (found = .ok (some (bytes [])) ∨ found = .ok (some (one.body ++ two.body)) ∨
            found = .ok (some (two.body ++ one.body)))) ∧
      ∀ schedule, (one.serial = two.serial → ∀ earlier, earlier <+: schedule →
          ¬(AtWork (after earlier) 0 ∧ AtWork (after earlier) 1)) →
        Unmerged root text previous [one, two] (after schedule) := by
  intro after previous
  have hfits := fits_pair hone htwo
  constructor
  · intro found
    rw [exists_record_iff hroot hfiles hname hrecord hfits found]
    simp only [mergeable_pair]
    obtain ⟨hneither, hfirst, hsecond, hboth, hswapped⟩ := together_pair one two
    constructor
    · rintro (rfl | ⟨writers, rfl | rfl | ⟨hserial, rfl | rfl | rfl⟩, rfl⟩)
      · exact .inl rfl
      · exact .inr (.inl (by rw [hfirst]))
      · exact .inr (.inr (.inl (by rw [hsecond])))
      · exact .inr (.inr (.inr ⟨hserial, .inl (by rw [hneither])⟩))
      · exact .inr (.inr (.inr ⟨hserial, .inr (.inl (by rw [hboth]))⟩))
      · exact .inr (.inr (.inr ⟨hserial, .inr (.inr (by rw [hswapped]))⟩))
    · rintro (rfl | rfl | rfl | ⟨hserial, rfl | rfl | rfl⟩)
      · exact .inl rfl
      · exact .inr ⟨[0], .inl rfl, by rw [hfirst]⟩
      · exact .inr ⟨[1], .inr (.inl rfl), by rw [hsecond]⟩
      · exact .inr ⟨[], .inr (.inr ⟨hserial, .inl rfl⟩), by rw [hneither]⟩
      · exact .inr ⟨[0, 1], .inr (.inr ⟨hserial, .inr (.inl rfl)⟩), by rw [hboth]⟩
      · exact .inr ⟨[1, 0], .inr (.inr ⟨hserial, .inr (.inr rfl)⟩), by rw [hswapped]⟩
  · intro schedule hapart
    have hfollows : ∀ earlier, Follows root parts text [one, two] (after earlier)
        ((Desk.begin m.find?).after text [one, two] earlier) :=
      follows_after hroot hfiles hname hrecord hfits
    apply (hfollows schedule).unmerged hroot hrecord
    refine Desk.whole_after m.find? schedule ?_
    intro earlier hearlier serial i j hij hi hj hwork
    have hwork' : AtWork (after earlier) i ∧ AtWork (after earlier) j :=
      ⟨(hfollows earlier).atWork hi hwork.1, (hfollows earlier).atWork hj hwork.2⟩
    rw [draws_pair] at hi hj
    rcases hi with ⟨rfl, hi⟩ | ⟨rfl, hi⟩ <;> rcases hj with ⟨rfl, hj⟩ | ⟨rfl, hj⟩
    · exact hij rfl
    · exact hapart (hi.trans hj.symm) earlier hearlier hwork'
    · exact hapart (hj.trans hi.symm) earlier hearlier hwork'.symm
    · exact hij rfl

end Two

end Running

def firstRival : Save := ⟨0, bytes (ascii "return 1 ")⟩

def secondRival : Save := ⟨0, bytes (ascii "return 2 ")⟩

/-- A directory for objects in which there are none. -/
def emptyRoot : FileTree := .directory [("objects", .directory [])]

theorem leads_emptyRoot : Leads "objects" ["objects"] ∧ Holds ["objects"] emptyRoot {} := by
  have hname : FilePath.Plain "objects" := ⟨by decide, by simp, by decide⟩
  refine ⟨.inr ⟨false, hname.ofString⟩, [], ?_, fun _ _ => rfl⟩
  exact FileTree.find_cons_of_child hname.limit rfl []

theorem fits_rivals : Fits (recordId "n") ∧ Fits (firstRival.scratch "n") ∧
    Fits (secondRival.scratch "n") := by
  have hname : "n".toUTF8.size = 1 := rfl
  have hstaging : (stagingId 0 "n").size = 11 := by
    rw [stagingId, ByteArray.size_append, size_bytes, hname]
    simp [ascii, Ascii.numeral]
  have hrecord : (recordId "n").size = 8 := by
    rw [recordId, ByteArray.size_append, size_bytes, hname]
    rfl
  exact ⟨⟨by omega, by omega⟩, ⟨hstaging ▸ by decide, hstaging ▸ by decide⟩,
    hstaging ▸ by decide, hstaging ▸ by decide⟩

/-- The record may be left empty. -/
theorem rivals_may_empty_record :
    Leads "objects" ["objects"] ∧ Holds ["objects"] emptyRoot {} ∧
      checkName 64 "n".toUTF8 = .ok "n" ∧
      Fits (recordId "n") ∧ Fits (firstRival.scratch "n") ∧ Fits (secondRival.scratch "n") ∧
      ∃ schedule,
        ((Save.each "objects" 64 "n" emptyRoot [firstRival, secondRival]).after
          Processes.answer schedule).state.record
        "objects" "n" = .ok (some (bytes [])) := by
  obtain ⟨hroot, hfiles⟩ := leads_emptyRoot
  obtain ⟨hrecord, hone, htwo⟩ := fits_rivals
  have hname : checkName 64 "n".toUTF8 = .ok "n" := rfl
  have hmerge :=
    (saves_of_processes_merge_iff hroot hfiles hname hrecord hone htwo).1 (.ok (some (bytes [])))
  exact ⟨hroot, hfiles, hname, hrecord, hone, htwo, hmerge.2 (.inr (.inr (.inr ⟨rfl, .inl rfl⟩)))⟩

/-- Each writes to the object that the other has just emptied, and the first one moves it. -/
theorem rivals_merge :
    let after :=
  (Save.each "objects" 64 "n" emptyRoot [firstRival, secondRival]).after Processes.answer
    (after [0, 1, 0, 1, 0, 1, 0]).state.record "objects" "n" =
      .ok (some (bytes (ascii "return 1 return 2 "))) ∧
      ¬∀ schedule, (after schedule).state.record "objects" "n" ∈
        [.ok none, .ok (some firstRival.body), .ok (some secondRival.body)] := by
  intro after
  obtain ⟨hroot, hfiles⟩ := leads_emptyRoot
  obtain ⟨hrecord, hone, htwo⟩ := fits_rivals
  have hname : checkName 64 "n".toUTF8 = .ok "n" := rfl
  have hfollows :=
    follows_after hroot hfiles hname hrecord (fits_pair hone htwo) [0, 1, 0, 1, 0, 1, 0]
  have hserial : firstRival.serial = secondRival.serial := rfl
  have hboth : (after [0, 1, 0, 1, 0, 1, 0]).state.record "objects" "n" =
      .ok (some (firstRival.body ++ secondRival.body)) := by
    rw [hfollows.record_eq hroot hrecord, Desk.after_inStep _ hserial]
  refine ⟨hboth, ?_⟩
  intro hall
  have hwhole := hall [0, 1, 0, 1, 0, 1, 0]
  rw [hboth] at hwhole
  revert hwhole
  decide

end Scripts
end SealedLua
