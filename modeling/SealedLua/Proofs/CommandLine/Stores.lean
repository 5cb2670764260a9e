import SealedLua.Proofs.CommandLine.Lines
import SealedLua.Proofs.CommandLine.Systems
import SealedLua.Proofs.Gateway.Arguments
import SealedLua.Proofs.Gateway.Routes
import SealedLua.Proofs.Storage.FileNames

/-!
# Scripts from one process to the next

The program lives for one request.  What it saves in a directory is there for
the next process, and this one finds it as it would find a script that comes
with the request.
-/

namespace SealedLua

open Program (ComesTo)
open FilePath (Leads)
open CommandLine (SystemOp systemInterface)

/-- Answers of a system with files, and with bytes at random that are given. -/
def CommandLine.onFiles (draws : Nat → Option (List UInt8)) :
    (op : SystemOp) → StateM FileTree op.Answer
  | .file op => fun t => t.perform op
  | .random count => fun t => (draws count, t)

open CommandLine (onFiles)

/-- Below the root there is a file with the script of a name. -/
def Stored (root text : String) (body : ByteArray) (t : FileTree) : Prop :=
  FilePath.Plain (Hex.encode (Scripts.recordId text)) ∧ ∃ parts entries, Leads root parts ∧
    t.HasDirectory parts entries ∧
    FileTree.child? entries (Hex.encode (Scripts.recordId text)) = some (.file body)

section Processes

variable {draws : Nat → Option (List UInt8)} {circumstances : Nat → Lua.Circumstances}
  {root text : String} {body : ByteArray} {t t' : FileTree} {c : Configuration}
  {p p' : Process}

theorem onSystem_storage (rooted : p.root = some root) {op : StorageOp} {x : op.Answer}
    (performed : (Directory.Call.inDirectory root (.perform op)).run t = (x, t')) :
    (Process.onSystem (onFiles draws) (.storage op)).run (p, t) = (x, (p, t')) := by
  obtain ⟨_, memory, serial, made, printed, circumstances⟩ := p
  obtain rfl : _ = some root := rooted
  exact congrArg (fun r : op.Answer × FileTree =>
    (r.1, ((⟨some root, memory, serial, made, printed, circumstances⟩ : Process), r.2))) performed

theorem performed_of_onSystem (rooted : p.root = some root) {op : StorageOp} {x : op.Answer}
    (answered : (Process.onSystem (onFiles draws) (.storage op)).run (p, t) = (x, (p', t'))) :
    (Directory.Call.inDirectory root (.perform op)).run t = (x, t') ∧ p' = p := by
  rcases performed : (Directory.Call.inDirectory root (.perform op)).run t with ⟨y, u⟩
  have same := answered.symm.trans (onSystem_storage rooted performed)
  cases same
  exact ⟨rfl, rfl⟩

theorem run_start_of_root (configured : c.storageRoot = some root) :
    (Process.start (Process.files (onFiles draws)) circumstances c).run t =
      (((Directory.Call.inDirectory root .reopen).run t).1.map
          fun () => { root := some root, circumstances := circumstances },
        ((Directory.Call.inDirectory root .reopen).run t).2) := by
  unfold Process.start
  rw [configured]
  rfl

theorem leads_of_start (configured : c.storageRoot = some root)
    (started : (Process.start (Process.files (onFiles draws)) circumstances c).run t =
      (.ok p, t')) :
    p.root = some root ∧ ∃ parts, Leads root parts := by
  rw [run_start_of_root configured] at started
  rcases opened : (Directory.Call.inDirectory root .reopen).run t with ⟨e | _, u⟩
  · rw [opened] at started
    cases started
  · rw [opened] at started
    cases started
    exact ⟨rfl, Directory.exists_leads_of_open opened⟩

theorem start_of_stored (configured : c.storageRoot = some root)
    (stored : Stored root text body t) :
    (Process.start (Process.files (onFiles draws)) circumstances c).run t =
      (.ok { root := some root, circumstances := circumstances }, t) := by
  obtain ⟨-, parts, entries, leads, directory, -⟩ := stored
  rw [run_start_of_root configured, Directory.run_open_of_directory leads directory]
  rfl

/-- The three steps of saving leave the script in its place, and all that is not below the root. -/
theorem stored_of_stage (leads : ∃ parts, Leads root parts) {serial : UInt64}
    (rooted : p.root = some root) {q : Process}
    (staged : (Program.run (I := platformInterface) (Process.onSystem (onFiles draws))
      (Scripts.stage (Scripts.stagingId serial text) (Scripts.recordId text) body).run).run (p, t) =
        (.ok (), (q, t'))) :
    Stored root text body t' ∧ ∀ parts, Leads root parts → t.KeepsElsewhere parts t' := by
  obtain ⟨⟨p₁, t₁⟩, ⟨p₂, t₂⟩, created, written, renamed⟩ := Scripts.exists_of_stage staged
  obtain ⟨create, rfl⟩ := performed_of_onSystem rooted created
  obtain ⟨write, rfl⟩ := performed_of_onSystem rooted written
  obtain ⟨rename, -⟩ := performed_of_onSystem rooted renamed
  have staging := Scripts.size_stagingId serial text
  have record := Scripts.size_recordId text
  refine ⟨?_, fun parts leads => ?_⟩
  · obtain ⟨parts, leads⟩ := leads
    obtain ⟨plain, entries, directory, file⟩ :=
      Directory.exists_entry_of_staged leads (by omega) (by omega) (by omega) create write rename
    exact ⟨plain, parts, entries, leads, directory, file⟩
  · have first := Directory.keeps_perform leads create (by simp [StorageOp.ids]; omega)
    have second := Directory.keeps_perform leads write (by simp [StorageOp.ids]; omega)
    have third := Directory.keeps_perform leads rename (by simp [StorageOp.ids]; omega)
    exact (first.trans second).trans third

/-- What was saved is stored, and all that is not below the root is kept. -/
theorem stored_of_save {name script : ByteArray} {isSealed : Bool} {u : FileTree}
    (configured : c.storageRoot = some root)
    (started : (Process.start (Process.files (onFiles draws)) circumstances c).run t = (.ok p, t'))
    (saved : ComesTo (I := platformInterface) (Process.onSystem (onFiles draws))
      (c.toGateway.save name script isSealed).run
      (p, t') (.ok ()) (p', u)) :
    (∃ text body, Scripts.checkName c.nameLimit name = .ok text ∧
      c.toGateway.unsealed isSealed script = .ok body ∧
      Stored root text body u) ∧ ∀ parts, Leads root parts → t.KeepsElsewhere parts u := by
  obtain ⟨rooted, leads⟩ := leads_of_start configured started
  have opened : ∀ parts, t.KeepsElsewhere parts t' := by
    intro parts
    rw [run_start_of_root configured] at started
    have files : ((Directory.Call.inDirectory root .reopen).run t).2 = t' :=
      congrArg Prod.snd started
    exact files ▸ Directory.keeps_open
  unfold Gateway.save at saved
  cases named : Scripts.checkName c.nameLimit name with
  | error e =>
    rw [named] at saved
    cases saved
  | ok text =>
    cases unsealed : c.toGateway.unsealed isSealed script with
    | error e =>
      rw [named, unsealed] at saved
      cases saved
    | ok body =>
      rw [named, unsealed] at saved
      have ended := (Work.run_ofPlatform .ofStore _ _).symm.trans saved
      rcases run : (Program.run (I := platformInterface) (Process.onSystem (onFiles draws))
        (Scripts.save c.nameLimit name body)).run (p, t') with ⟨e | _, q, v⟩
      · rw [run] at ended
        cases ended
      · rw [run] at ended
        cases ended
        obtain ⟨text', serial, ⟨q', v'⟩, named', drawn, staged⟩ := Scripts.exists_of_save run
        obtain rfl : text = text' := Except.ok.inj (named.symm.trans named')
        have next : (p.serial, { p with serial := p.serial + 1 }, t') = (serial, q', v') := drawn
        cases next
        obtain ⟨stored, kept⟩ :=
          stored_of_stage (p := { p with serial := p.serial + 1 }) leads rooted staged
        exact ⟨⟨text, body, rfl, rfl, stored⟩, fun parts leads =>
          (opened parts).trans (kept parts leads)⟩

/-- On a directory of objects, a script is saved whose first object has a name that fits. -/
theorem save_of_fits (g : Gateway) {parts : List String} {m : Memory} {name : ByteArray}
    (leads : Leads root parts) (holds : Directory.Holds parts t m) (rooted : p.root = some root)
    (named : Scripts.checkName g.nameLimit name = .ok text)
    (fits : Directory.Fits (Scripts.stagingId p.serial text)) (body : ByteArray) :
    ∃ t', ComesTo (I := platformInterface) (Process.onSystem (onFiles draws))
      (g.save name body false).run (p, t)
      (.ok ()) ({ p with serial := p.serial + 1 }, t') := by
  let q : Process := { p with serial := p.serial + 1 }
  have placed : q.root = some root := rooted
  obtain ⟨t₁, create, holds₁⟩ := Directory.run_create leads holds fits
  obtain ⟨t₂, write, holds₂⟩ := Directory.run_write leads holds₁ fits body
  rw [Memory.perform_write _ (Memory.find?_insert_self _ _ _)] at write holds₂
  obtain ⟨t₃, rename, holds₃⟩ := Directory.run_rename leads holds₂ fits (Scripts.fits_recordId fits)
  rw [Memory.perform_rename _ (Memory.find?_insert_self _ _ _)] at rename
  have staged : (Program.run (I := platformInterface) (Process.onSystem (onFiles draws))
      (Scripts.stage (Scripts.stagingId p.serial text) (Scripts.recordId text) body).run).run
      (q, t) = (.ok (), (q, t₃)) := by
    unfold Scripts.stage
    exact (Scripts.run_storage_bind (onSystem_storage placed create) _).trans
      ((Scripts.run_storage_bind (onSystem_storage placed write) _).trans
        (onSystem_storage placed rename))
  have drawn : (Process.onSystem (onFiles draws) .drawSerial).run (p, t) = (p.serial, (q, t)) := rfl
  have saved := Scripts.run_save_of_staged named drawn staged
  refine ⟨t₃, ?_⟩
  unfold Gateway.save
  rw [named]
  refine (Work.run_ofPlatform _ _ (p, t)).trans ?_
  rw [saved]
  rfl

theorem loadScript_of_stored (g : Gateway) {name : ByteArray} (rooted : p.root = some root)
    (named : Scripts.checkName g.nameLimit name = .ok text) (stored : Stored root text body t) :
    ComesTo (I := platformInterface) (Process.onSystem (onFiles draws)) (g.loadScript name).run
      (p, t) (.ok body) (p, t) := by
  obtain ⟨fits, parts, entries, leads, directory, file⟩ := stored
  have found : t.perform (.read (Directory.path root (Scripts.recordId text))) = (.ok body, t) :=
    congrArg (·, t) (directory.read_of_file leads fits file)
  have read : (Directory.Call.inDirectory root (.perform (.openRead (Scripts.recordId text)))).run
      t = (.ok (some body), t) :=
    Directory.run_ask found _
  have loaded : (Program.run (I := platformInterface) (Process.onSystem (onFiles draws))
      (Scripts.load g.nameLimit name)).run
      (p, t) = (.ok ⟨text, body⟩, (p, t)) := by
    unfold Scripts.load
    rw [named]
    exact Program.run_ask_bind (I := platformInterface) (onSystem_storage rooted read) _
  unfold Gateway.loadScript
  rw [ExceptT.run_bind]
  refine Program.comesTo_bind.2 ⟨.ok ⟨text, body⟩, (p, t), ?_, Program.comesTo_pure.2 ⟨rfl, rfl⟩⟩
  refine (Work.run_ofPlatform _ _ (p, t)).trans ?_
  rw [loaded]
  rfl

theorem runSaved_of_stored (g : Gateway) {fuel : Nat} {name : ByteArray} {argument : Parcel}
    (rooted : p.root = some root)
    (named : Scripts.checkName g.nameLimit name = .ok text) (stored : Stored root text body t)
    {ended : Except GatewayError Parcel} {w : Process × FileTree} :
    ComesTo (I := platformInterface) (Process.onSystem (onFiles draws))
      (g.runSaved fuel name argument).run (p, t) ended w ↔
      ComesTo (I := platformInterface) (Process.onSystem (onFiles draws))
        (g.run fuel g.depthLimit body argument).run
        (p, t) ended w := by
  unfold Gateway.runSaved
  rw [ExceptT.run_bind]
  exact Program.comesTo_bind_of (loadScript_of_stored g rooted named stored)

end Processes

namespace CommandLine

open SealedLua.CommandLine.Request (Asks Writes)
open Job (Ends perform carryOut told)

/-- How the program ends when the run of a script ends so, after it has printed a
text: it prints the value if it fits, and tells any failure by its code. -/
def Ending.ofRun (capacity : Nat) (command : Command) (printed : ByteArray) :
    Except GatewayError Parcel → Ending
  | .ok value =>
    if capacity < value.content.toUTF8.size then
      .ofResult printed
        (.error
          (.command command
          ((GatewayError.capacity value.content.toUTF8.size capacity).withOrigin .trustedApp)))
    else .ofResult printed (.ok value.display)
  | .error e => .ofResult printed (.error (.command command (e.withOrigin .trustedApp)))

theorem ofResult_told (c : Configuration) (command : Command) (printed : ByteArray)
    (ended : Except GatewayError Parcel) :
    Ending.ofResult printed ((told c command ended).map Parcel.display) =
      Ending.ofRun c.capacity command printed ended := by
  cases ended with
  | error e => rfl
  | ok value =>
    unfold told Ending.ofRun
    dsimp only
    split_ifs <;> rfl

theorem exists_told_iff (c : Configuration) (command : Command) {ending : Ending}
    {ends : Except GatewayError Parcel → Process → Prop} :
    (∃ said all, (∃ ended p', ends ended p' ∧ all = bytes [] ++ p'.printed ∧
      said = (told c command ended).map Parcel.display) ∧
        ending = .ofResult all said) ↔
      ∃ ended p', ends ended p' ∧ ending = .ofRun c.capacity command p'.printed ended := by
  have none : ∀ text : ByteArray, bytes [] ++ text = text := fun text => ByteArray.empty_append
  constructor
  · rintro ⟨_, _, ⟨ended, p', ran, rfl, rfl⟩, rfl⟩
    rw [none]
    exact ⟨ended, p', ran, ofResult_told c command p'.printed ended⟩
  · rintro ⟨ended, p', ran, rfl⟩
    exact ⟨_, _, ⟨ended, p', ran, rfl, rfl⟩, by rw [none, ofResult_told]⟩

/-- A run that succeeds prints the same whatever the command was. -/
theorem Ending.ofRun_of_code {capacity : Nat} {command : Command} {printed : ByteArray}
    {ended : Except GatewayError Parcel}
    (succeeds : (Ending.ofRun capacity command printed ended).code = 0) (other : Command) :
    Ending.ofRun capacity other printed ended = Ending.ofRun capacity command printed ended := by
  cases ended with
  | error e => cases succeeds
  | ok value =>
    unfold Ending.ofRun at succeeds ⊢
    dsimp only at succeeds ⊢
    split_ifs at succeeds ⊢
    · cases succeeds
    · rfl

section Lines

variable {σ : Type} {answer : (op : SystemOp) → StateM σ op.Answer} {fuel : Nat}
  {arguments : List String} {request : Request}
  {circumstances : Nat → Lua.Circumstances} {s t u v w : σ} {ending : Ending} {c : Configuration}
  {text path script name : String} {isSealed : Bool} {argument : Parcel} {body : ByteArray}
  {p : Process} {e : StoreError}

theorem comesTo_run (asks : Asks arguments request)
    (found : (answer (.file (.read request.configuration))).run s = (Except.ok text.toUTF8, u))
    (valid : Configuration.ofJson text = .ok c) :
    ComesTo (I := systemInterface) answer (run fuel arguments circumstances) s ending t ↔
      ∃ said all, Ends answer (perform circumstances c fuel request.action)
        (bytes [], u) said (all, t) ∧
        ending = .ofResult all said := by
  obtain ⟨line, read, requested⟩ := asks
  unfold run
  rw [read]
  refine (Program.comesTo_map (f := fun r : Except Failure String × ByteArray =>
    Ending.ofResult r.2 r.1)).trans ?_
  constructor
  · rintro ⟨⟨said, all⟩, ends, rfl⟩
    exact ⟨said, all, (Job.ends_carryOut requested found valid).1 ends, rfl⟩
  · rintro ⟨said, all, ends, rfl⟩
    exact ⟨(said, all), (Job.ends_carryOut requested found valid).2 ends, rfl⟩

theorem comesTo_run_run (asks : Asks arguments ⟨path, .run script isSealed argument⟩)
    (found : (answer (.file (.read path))).run s = (Except.ok text.toUTF8, u))
    (valid : Configuration.ofJson text = .ok c)
    (read : (answer (.file (.read script))).run u = (Except.ok body, v))
    (fits : argument.content.toUTF8.size ≤ c.capacity)
    (started : (Process.start (Process.files answer) circumstances c).run v = (.ok p, w)) :
    ComesTo (I := systemInterface) answer (run fuel arguments circumstances) s ending t ↔
      ∃ ended p', ComesTo (I := platformInterface) (Process.onSystem answer)
          (c.toGateway.runInline fuel body isSealed argument).run (p, w) ended (p', t) ∧
        ending = .ofRun c.capacity .runInline p'.printed ended := by
  rw [comesTo_run asks found valid]
  simp only [Job.ends_run read fits started]
  exact exists_told_iff c .runInline

theorem comesTo_run_runSaved (asks : Asks arguments ⟨path, .runSaved name argument⟩)
    (found : (answer (.file (.read path))).run s = (Except.ok text.toUTF8, u))
    (valid : Configuration.ofJson text = .ok c) (fits : argument.content.toUTF8.size ≤ c.capacity)
    (started : (Process.start (Process.files answer) circumstances c).run u = (.ok p, w)) :
    ComesTo (I := systemInterface) answer (run fuel arguments circumstances) s ending t ↔
      ∃ ended p', ComesTo (I := platformInterface) (Process.onSystem answer)
          (c.toGateway.runSaved fuel name.toUTF8 argument).run (p, w) ended (p', t) ∧
        ending = .ofRun c.capacity .runSaved p'.printed ended := by
  rw [comesTo_run asks found valid]
  simp only [Job.ends_runSaved fits started]
  exact exists_told_iff c .runSaved

theorem comesTo_run_refused (asks : Asks arguments ⟨path, .run script isSealed argument⟩)
    (found : (answer (.file (.read path))).run s = (Except.ok text.toUTF8, u))
    (valid : Configuration.ofJson text = .ok c)
    (read : (answer (.file (.read script))).run u = (Except.ok body, v))
    (fits : argument.content.toUTF8.size ≤ c.capacity)
    (refused : (Process.start (Process.files answer) circumstances c).run v = (.error e, w)) :
    ComesTo (I := systemInterface) answer (run fuel arguments circumstances) s ending t ↔
      ending = .ofResult (bytes []) (.error (.gateway (.ofStore e))) ∧ t = w := by
  rw [comesTo_run asks found valid]
  simp only [Job.ends_run_refused read fits refused]
  constructor
  · rintro ⟨_, _, ⟨rfl, same⟩, rfl⟩
    cases same
    exact ⟨rfl, rfl⟩
  · rintro ⟨rfl, rfl⟩
    exact ⟨_, _, ⟨rfl, rfl⟩, rfl⟩

theorem fits_of_code (asks : Asks arguments ⟨path, .run script isSealed argument⟩)
    (found : (answer (.file (.read path))).run s = (Except.ok text.toUTF8, u))
    (valid : Configuration.ofJson text = .ok c)
    (read : (answer (.file (.read script))).run u = (Except.ok body, v))
    (ends : ComesTo (I := systemInterface) answer (run fuel arguments circumstances) s ending t)
    (succeeds : ending.code = 0) : argument.content.toUTF8.size ≤ c.capacity := by
  obtain ⟨said, all, job, rfl⟩ := (comesTo_run asks found valid).1 ends
  refine Nat.le_of_not_lt fun long => ?_
  rw [Job.perform_eq_direct, Job.direct, Job.ends_bind_ok (Job.ends_readFile read),
    Job.checkFits, if_pos long, Job.ends_bind_error (Job.ends_ofExcept.2 ⟨rfl, rfl⟩)] at job
  rw [job.1] at succeeds
  cases succeeds

theorem saved_of_code (asks : Asks arguments ⟨path, .save name script isSealed⟩)
    (found : (answer (.file (.read path))).run s = (Except.ok text.toUTF8, u))
    (valid : Configuration.ofJson text = .ok c)
    (read : (answer (.file (.read script))).run u = (Except.ok body, v))
    (ends : ComesTo (I := systemInterface) answer (run fuel arguments circumstances) s ending t)
    (succeeds : ending.code = 0) :
    ∃ p w p', (Process.start (Process.files answer) circumstances c).run v = (.ok p, w) ∧
      ComesTo (I := platformInterface) (Process.onSystem answer)
        (c.toGateway.save name.toUTF8 body isSealed).run
        (p, w) (.ok ()) (p', t) := by
  obtain ⟨said, all, job, rfl⟩ := (comesTo_run asks found valid).1 ends
  rcases started : (Process.start (Process.files answer) circumstances c).run v with ⟨e | p, w⟩
  · obtain ⟨rfl, -⟩ := (Job.ends_save_refused read started).1 job
    cases succeeds
  · obtain ⟨ended, p', ran, -, rfl⟩ := (Job.ends_save read started).1 job
    cases ended with
    | error e => cases succeeds
    | ok _ => exact ⟨p, w, p', rfl, ran⟩

end Lines

/-- The files of a configuration and of a script are there; reading them leaves another state. -/
def Supplies {σ : Type} (answer : (op : SystemOp) → StateM σ op.Answer)
    (path script : String) (c : Configuration) (body : ByteArray) (s v : σ) : Prop :=
  ∃ text u, (answer (.file (.read path))).run s = (Except.ok text.toUTF8, u) ∧
    Configuration.ofJson text = .ok c ∧
    (answer (.file (.read script))).run u = (Except.ok body, v)

section Storage

variable {draws : Nat → Option (List UInt8)}
  {circumstances circumstances' : Nat → Lua.Circumstances} {fuel : Nat}
  {root path script script' name : String} {isSealed : Bool} {argument : Parcel}
  {c : Configuration} {body : ByteArray}
  {t t' u : FileTree} {first second third : List String} {saved ending : Ending}

theorem runSaved_after_save (asks : Asks first ⟨path, .save name script isSealed⟩)
    (runs : Asks second ⟨path, .run script' isSealed argument⟩)
    (calls : Asks third ⟨path, .runSaved name argument⟩) (rooted : c.storageRoot = some root)
    (supplied : Supplies (onFiles draws) path script c body t t)
    (saves : ComesTo (I := systemInterface) (onFiles draws) (run fuel first circumstances) t saved
      t') (done : saved.code = 0)
    (again : Supplies (onFiles draws) path script' c body t' t')
    (ends : ComesTo (I := systemInterface) (onFiles draws)
      (run fuel second circumstances') t' ending u)
    (succeeds : ending.code = 0) :
    ComesTo (I := systemInterface) (onFiles draws) (run fuel third circumstances') t' ending u := by
  obtain ⟨text, _, found, valid, read⟩ := supplied
  obtain ⟨text', _, found', valid', read'⟩ := again
  obtain rfl : t' = _ := congrArg Prod.snd found'
  obtain ⟨p, w, p', started, ran⟩ := saved_of_code asks found valid read saves done
  obtain ⟨⟨title, plain, named, unsealed, stored⟩, -⟩ := stored_of_save rooted started ran
  -- Both of the later processes start on the directory that the first one left.
  have start : (Process.start (Process.files (onFiles draws)) circumstances' c).run t' = _ :=
    start_of_stored rooted stored
  have fits := fits_of_code runs found' valid' read' ends succeeds
  obtain ⟨ended, q, inline, rfl⟩ := (comesTo_run_run runs found' valid' read' fits start).1 ends
  rw [c.toGateway.runInline_unsealed fuel argument unsealed,
    ← runSaved_of_stored c.toGateway rfl named stored] at inline
  rw [← Ending.ofRun_of_code succeeds .runSaved]
  exact (comesTo_run_runSaved calls found' valid' fits start).2 ⟨ended, q, inline, rfl⟩

theorem keeps_after_save (asks : Asks first ⟨path, .save name script isSealed⟩)
    (rooted : c.storageRoot = some root)
    (supplied : Supplies (onFiles draws) path script c body t t)
    (saves : ComesTo (I := systemInterface) (onFiles draws) (run fuel first circumstances) t saved
      t') (done : saved.code = 0)
    {parts : List String} (leads : Leads root parts) : t.KeepsElsewhere parts t' := by
  obtain ⟨text, _, found, valid, read⟩ := supplied
  obtain rfl : t = _ := congrArg Prod.snd found
  obtain ⟨p, w, p', started, ran⟩ := saved_of_code asks found valid read saves done
  exact (stored_of_save rooted started ran).2 parts leads

end Storage

/-- The program adds nothing to its gateway.

A line that is written for a request is read as it, with any numeral of 64 bits for
a number.  On any system and in any circumstances, a line that asks for a run comes
to an end just if the gateway's run of the same bytes does, in a process that was
started for it, and leaves the same behind; what is written is what the scripts have
printed, and after that the value if it fits, and the code of the failure otherwise.
A sealed script is run as what was sealed.  Nothing fails at a session or at slots
that are read after a command.  With files, what one line has saved is run by its
name in another process as a line runs it that brings it along, in the same
circumstances, if this one succeeds, and files that are elsewhere stay. -/
theorem lines_do_what_the_gateway_does {σ : Type} (answer : (op : SystemOp) → StateM σ op.Answer)
    (fuel : Nat) :
    (∀ arguments request, Writes arguments request → Asks arguments request) ∧
    (∀ numeral n, Integer.read numeral = .ok n →
    Spells Request.numberFlag numeral ["--number", numeral]) ∧
    (∀ n : Int64, Integer.read (toString n.toInt) = .ok n) ∧
    (∀ circumstances arguments path script isSealed argument c body s v,
      Asks arguments ⟨path, .run script isSealed argument⟩ →
      Supplies answer path script c body s v → argument.content.toUTF8.size ≤ c.capacity →
      (∀ p w, (Process.start (Process.files answer) circumstances c).run v =
        (.ok p, w) → ∀ ending t,
        ComesTo (I := systemInterface) answer (run fuel arguments circumstances) s ending t ↔
          ∃ ended p', ComesTo (I := platformInterface) (Process.onSystem answer)
              (c.toGateway.runInline fuel body isSealed argument).run (p, w) ended (p', t) ∧
            ending = .ofRun c.capacity .runInline p'.printed ended) ∧
      ∀ e w, (Process.start (Process.files answer) circumstances c).run v =
        (.error e, w) → ∀ ending t,
        ComesTo (I := systemInterface) answer (run fuel arguments circumstances) s ending t ↔
          ending = .ofResult (bytes []) (.error (.gateway (.ofStore e))) ∧ t = w) ∧
    (∀ (g : Gateway) salt nonce script argument, salt.length = Payload.saltLength →
      nonce.length = Payload.nonceLength →
      g.runInline fuel (Payload.encrypt g.secret salt nonce script) true argument =
        g.runInline fuel script false argument) ∧
    (∀ circumstances line s failure t,
      Ends answer (carryOut circumstances fuel line) s (.error failure) t → ¬failure.OfBoundary) ∧
    ∀ draws circumstances circumstances' root path name script script' isSealed argument c body t t'
        saved first second third,
      Asks first ⟨path, .save name script isSealed⟩ →
      Asks second ⟨path, .run script' isSealed argument⟩ →
      Asks third ⟨path, .runSaved name argument⟩ → c.storageRoot = some root →
      Supplies (onFiles draws) path script c body t t →
      ComesTo (I := systemInterface) (onFiles draws) (run fuel first circumstances) t saved t' →
      saved.code = 0 →
      (∀ parts, Leads root parts → t.KeepsElsewhere parts t') ∧
        (Supplies (onFiles draws) path script' c body t' t' → ∀ ending u,
          ComesTo (I := systemInterface) (onFiles draws) (run fuel second circumstances') t'
            ending u → ending.code = 0 →
          ComesTo (I := systemInterface) (onFiles draws) (run fuel third circumstances') t'
            ending u) := by
  refine ⟨fun _ _ => Writes.asks, fun numeral n read => .apart (Flag.admits_numeral rfl read),
    Integer.read_toString, ?_, ?_, ?_, ?_⟩
  · rintro circumstances arguments path script isSealed argument c body s v asks
      ⟨text, u, found, valid, read⟩ fits
    exact ⟨fun p w started ending t => comesTo_run_run asks found valid read fits started,
      fun e w refused ending t => comesTo_run_refused asks found valid read fits refused⟩
  · intro g salt nonce script argument hsalt hnonce
    have opens : g.unsealed true (Payload.encrypt g.secret salt nonce script) = .ok script := by
      have decrypted :=
        Payload.decrypt_of_encrypt? hsalt hnonce
          (Payload.encrypt?_eq_encrypt g.secret script hsalt hnonce)
      rw [Gateway.unsealed, if_pos rfl, decrypted]
      rfl
    rw [g.runInline_unsealed fuel argument opens]
    exact (g.runInline_unsealed fuel argument rfl).symm
  · intro circumstances line s failure t ends
    exact (Job.fails_carryOut circumstances fuel line s.1).comesTo ends failure rfl
  · intro draws circumstances circumstances' root path name script script' isSealed argument c
      body t t' saved first second third asks runs calls rooted supplied saves done
    refine ⟨fun parts leads => keeps_after_save asks rooted supplied saves done leads,
      fun again ending u ends succeeds => ?_⟩
    exact runSaved_after_save asks runs calls rooted supplied saves done again ends succeeds

namespace Saving

open Gateway.Preferring (script ready circumstances comes_one unmarked_ready silent_ready)

def digits : String := "1111111111111111111111111111111111111111111111111111111111111111"

def document : String := "\x7b\"master_key\":\"" ++ digits ++ "\",\"storage_root\":\"store\"\x7d"

def settings : Configuration :=
  { secret := ⟨bytes (List.replicate 32 17), size_bytes _⟩, storageRoot := some "store" }

/-- Files of a configuration and a script beside an empty directory. -/
def files : FileTree :=
  .directory [("c", .file document.toUTF8), ("s", .file script), ("store", .directory [])]

def noDraws (_ : Nat) : Option (List UInt8) := none

/-- Each line has a process of its own, that starts like this. -/
def process : Process := { root := some "store" }

theorem rooted_process : process.root = some "store" := rfl

/-- The process when it has made an interpreter. -/
def running : Process := { process with made := 1 }

theorem document_valid : Configuration.ofJson document = .ok settings := by
  have none : Json.Blank [] := by decide
  have text : ∀ s : String, Json.SpellsText s.toList s.toList →
      Json.Spells ('"' :: s.toList ++ ['"']) (.text s) := by
    intro s spells
    have spelled := Json.Spells.text spells
    rwa [String.ofList_toList] at spelled
  have isObject : Json.IsObject document [("master_key", .text digits),
      ("storage_root", .text "store")] := by
    refine ⟨[], _, [], none,
      .object (.more none (.self (s := "master_key".toList) (by decide)) none none
      (text digits (.self (by decide))) none
      (.one none (.self (s := "storage_root".toList) (by decide)) none none
        (text "store" (.self (by decide))) none)), none, by decide⟩
  have spells : ∀ n, SpellsBytes (List.replicate n ['1', '1']).flatten (List.replicate n 17) := by
    intro n
    induction n with
    | zero => exact .nil
    | succ n ih => exact .cons (i := 1) (j := 1) ⟨by decide, .inl rfl⟩ ⟨by decide, .inl rfl⟩ ih
  have spelled : settings.secret.Spelled digits := by
    have same : codes settings.secret.key = List.replicate 32 17 := codes_bytes _
    exact ⟨[], (List.replicate 32 ['1', '1']).flatten, [], nofun,
      same ▸ spells 32, nofun, by decide⟩
  exact (Configuration.ofJson_object_iff isObject).2
    { known := by decide
      once := by decide
      secret := ⟨_, List.mem_cons_self, spelled⟩
      capacity := .inr ⟨by decide, rfl⟩
      depthLimit := .inr ⟨by decide, rfl⟩
      nameLimit := .inr ⟨by decide, rfl⟩
      storageRoot := .inl ⟨_, List.mem_cons_of_mem _ List.mem_cons_self, rfl⟩
      positiveCapacity := by decide
      positiveNameLimit := by decide }

theorem leads_store : Leads "store" ["store"] ∧ Directory.Holds ["store"] files {} := by
  have plain : FilePath.Plain "store" := ⟨by decide, by simp, by decide⟩
  refine ⟨.inr ⟨false, plain.ofString⟩, [], ?_, fun _ _ => rfl⟩
  exact FileTree.find_cons_of_child plain.limit rfl []

theorem supplied {t : FileTree} (kept : files.KeepsElsewhere ["store"] t) :
    Supplies (onFiles noDraws) "c" "s" settings script t t := by
  have reads : ∀ name data, FilePath.Plain name → name ≠ "store" →
      FileTree.child? [("c", .file document.toUTF8), ("s", .file script), ("store", .directory [])]
      name = some (.file data) →
      t.read name = .ok data := by
    intro name data plain other found
    have before : files.read name = .ok data :=
      FileTree.HasDirectory.read_of_file (.inl ⟨rfl, rfl⟩ : Leads "" []) plain
        (FileTree.HasDirectory.nil.2 rfl) found
    exact kept.read plain.ofString (by simpa using Ne.symm other) before
  have first := reads "c" document.toUTF8 ⟨by decide, by simp, by decide⟩ (by decide) rfl
  have second := reads "s" script ⟨by decide, by simp, by decide⟩ (by decide) rfl
  exact ⟨document, t, congrArg (·, t) first, document_valid, congrArg (·, t) second⟩

def saveLine : List String := ["--config=c", "save", "--name=f", "--script=s"]

def runLine : List String := ["--config", "c", "run", "--script=s", "--number", "1"]

def callLine : List String := ["--config=c", "run-saved", "--name", "f", "--number=1"]

theorem writes_saveLine : Writes saveLine ⟨"c", .save "f" "s" false⟩ := by
  have config : Spells Request.configurationFlag "c" ["--config=c"] := .of_joined (by decide)
  have name : Spells Request.nameFlag "f" ["--name=f"] := .of_joined (by decide)
  have file : Spells Request.scriptFlag "s" ["--script=s"] := .of_joined (by decide)
  exact .line config (.save "f" "s" false) (.value rfl name (.value rfl file .nil))

theorem writes_runLine : Writes runLine ⟨"c", .run "s" false (.number 1)⟩ := by
  have config : Spells Request.configurationFlag "c" ["--config", "c"] :=
    .of_apart (by decide) (.inl (by simp))
  have file : Spells Request.scriptFlag "s" ["--script=s"] := .of_joined (by decide)
  have number : Spells Request.numberFlag "1" ["--number", "1"] :=
    .of_apart (by decide) (.inl (by simp))
  exact .line config (.run "s" false (.number rfl)) (.value rfl file (.value rfl number .nil))

theorem writes_callLine : Writes callLine ⟨"c", .runSaved "f" (.number 1)⟩ := by
  have config : Spells Request.configurationFlag "c" ["--config=c"] := .of_joined (by decide)
  have name : Spells Request.nameFlag "f" ["--name", "f"] := .of_apart (by decide) (.inl (by simp))
  have number : Spells Request.numberFlag "1" ["--number=1"] := .of_joined (by decide)
  exact .line config (.runSaved "f" (.number rfl)) (.value rfl name (.value rfl number .nil))

theorem runs_script (t : FileTree) :
    ∃ fuel, ComesTo (I := platformInterface) (Process.onSystem (onFiles noDraws))
    (settings.toGateway.runInline fuel script false (.number 1)).run (process, t)
      (.ok (.number 1)) (running, t) := by
  have admits : (Process.onSystem (onFiles noDraws) .admitInterpreter).run (process, t) =
      (.ok circumstances, (running, t)) :=
    rfl
  obtain ⟨fuel, runs⟩ :=
    Gateway.runWith_comesTo settings.toGateway.callers admits comes_one (unmarked_ready _)
  have silent : Platform.printed (Process.onSystem (onFiles noDraws)) (ready (.integer 1)).output
      (running, t) = (running, t) := by
    rw [silent_ready]
    rfl
  refine ⟨fuel, ?_⟩
  rw [settings.toGateway.runInline_unsealed fuel (.number 1) rfl, Gateway.run_depthLimit, ← silent]
  exact runs fuel le_rfl

end Saving

open Saving in
open Gateway.Preferring (script) in
/-- A script is saved in a directory that is empty, and then run as it is and by its name. -/
theorem saved_script_prints_the_same : ∃ fuel t,
    ComesTo (I := systemInterface) (onFiles noDraws) (run fuel saveLine .numbered) files
      { code := 0, said := "saved \"f\"\n" } t ∧
      ComesTo (I := systemInterface) (onFiles noDraws) (run fuel runLine .numbered) t
        { code := 0, said := "Number(1)\n" } t ∧
      ComesTo (I := systemInterface) (onFiles noDraws) (run fuel callLine .numbered) t
        { code := 0, said := "Number(1)\n" } t := by
  obtain ⟨leads, holds⟩ := leads_store
  have started : (Process.start (Process.files (onFiles noDraws)) .numbered settings).run files =
      (.ok process, files) := by
    rw [run_start_of_root rfl, Directory.run_open leads holds]
    rfl
  have fits : Directory.Fits (Scripts.stagingId process.serial "f") := by
    have title : "f".toUTF8.size = 1 := rfl
    have serial := Scripts.length_serial_le process.serial
    rw [Directory.Fits, Scripts.size_stagingId]
    omega
  have named : Scripts.checkName settings.toGateway.nameLimit "f".toUTF8 = .ok "f" := rfl
  let p : Process := { process with serial := 1 }
  obtain ⟨t, saved⟩ : ∃ t, ComesTo (I := platformInterface) (Process.onSystem (onFiles noDraws))
      (settings.toGateway.save "f".toUTF8 script false).run (process, files) (.ok ()) (p, t) :=
    save_of_fits settings.toGateway leads holds rooted_process named fits script
  obtain ⟨⟨text, body, titled, unsealed, stored⟩, -⟩ := stored_of_save rfl started saved
  obtain rfl : "f" = text := Except.ok.inj (named.symm.trans titled)
  cases unsealed
  obtain ⟨fuel, inline⟩ := runs_script t
  obtain ⟨writes, -, -, runs, -, -, stores⟩ := lines_do_what_the_gateway_does (onFiles noDraws) fuel
  have asks := writes _ _ writes_saveLine
  have here := supplied (.refl ["store"] files)
  have saves : ComesTo (I := systemInterface) (onFiles noDraws) (run fuel saveLine .numbered) files
      { code := 0, said := "saved \"f\"\n" } t := by
    obtain ⟨document, _, found, valid, read⟩ := here
    exact (comesTo_run asks found valid).2
      ⟨_, _, (Job.ends_save read started).2 ⟨.ok (), p, saved, rfl, rfl⟩, rfl⟩
  obtain ⟨kept, again⟩ := stores noDraws .numbered .numbered "store" "c" "f" "s" "s" false
    (.number 1) settings script files t
    _ saveLine runLine callLine asks (writes _ _ writes_runLine)
    (writes _ _ writes_callLine) rfl here saves rfl
  have there := supplied (kept _ leads)
  have prints : ComesTo (I := systemInterface) (onFiles noDraws) (run fuel runLine .numbered) t
      { code := 0, said := "Number(1)\n" } t :=
    ((runs .numbered runLine "c" "s" false (.number 1) settings script t t
      (writes _ _ writes_runLine) there (by decide)).1 _ _
      (start_of_stored rfl stored) _ t).2 ⟨.ok (.number 1), _, inline, rfl⟩
  exact ⟨fuel, t, saves, prints, again there _ t prints rfl⟩

namespace Printing

open Lua Machine
open Saving (process settings noDraws)
open Gateway (equipped)

def script : ByteArray := bytes (ascii "print('x') return 1")

def line : Stmt := .expression (.call (DumpChunk.global "print" 0 1) [DumpChunk.text "x"] 1)

def chunk : Function := .mk 0 true [line, Gateway.Preferring.one]

theorem read_script : Chunk.read script = .ok chunk := read_of_readsAs (by decide +kernel)

/-- What the script prints. -/
def text : ByteArray := bytes (ascii "x") ++ bytes [10]

/-- The call prints the text, in a heap whose texts have no metamethod that shows them. -/
theorem gives_line {depth : Depth} {env : Env} {h : Heap}
    (binds : h.Binds env.scope [.table Heap.globals])
    (room : depth.Admits 1 0) (entry : h.get Heap.globals (.ofAscii "print") = .builtin .print)
    (silent : ∀ s, h.metamethod (.string s) (eventKey "tostring") = .nil) :
    Gives depth (exec env line h) (.next env) ((h.print (bytes (ascii "x"))).print (bytes [10])) :=
  .stmt_expression (.multi_call 1 (DumpChunk.eval_global "print" 0 1 binds rfl entry rfl)
    (.list_one rfl (.of_eq (DumpChunk.eval_text "x"))) room (.of_builtin rfl fun _ =>
      .of_eq (Builtin.run_print (silent _))))

section Runs

variable {h : Heap}

/-- The heap with the script and the number one as its argument. -/
def ready (h : Heap) : Heap :=
  (h.loaded chunk scriptChunk).set Heap.globals (.ofText argumentName) (.integer 1)

/-- The heap after the script. -/
def printed (h : Heap) : Heap := ((ready h).print (bytes (ascii "x"))).print (bytes [10])

theorem output_printed (h : Heap) :
    (printed h).output = h.output ++ bytes (ascii "x") ++ bytes [10] := rfl

theorem collector_printed (h : Heap) : (printed h).collector = h.collector := rfl

theorem get_ready (plain : h.Plain Heap.globals) {id : TableId} {key : Value}
    (other : (id, key.toKey) ≠ (Heap.globals, .ofText argumentName)) :
    (ready h).get id key = h.get id key :=
  Heap.get_loaded_set_of_ne plain chunk scriptChunk _ other

/-- The script is run on the number one, in a heap with what it needs. -/
theorem comes_printing {outer : Depth} (room : (hostDepth outer).Admits 1 0)
    (plain : h.Plain Heap.globals) (entry : h.get Heap.globals (.ofAscii "print") = .builtin .print)
    (silent : h.get Heap.stringMetatable (.string (eventKey "tostring")) = .nil) :
    Comes (Q := NestedCall) outer (execute script (.number 1)) ⟨h, []⟩
      (.number 1) ⟨printed h, []⟩ := by
  have binds : (ready h).Binds [h.cells.size] [.table Heap.globals] :=
    .cons (h.bound_loaded chunk scriptChunk) .nil
  have body : Gives (hostDepth outer)
      (execList ⟨[h.cells.size], [.integer 1], Chunk.shownName scriptChunk.toUTF8⟩
      chunk.body (ready h)) (.ret [.integer 1]) (printed h) :=
    (gives_line binds room ((get_ready plain (by decide)).trans entry)
      fun _ => (get_ready plain (by decide)).trans silent).stmts_next Gateway.Preferring.gives_one
  have stored : (ready h).closures[h.closures.size]? =
    some ⟨chunk, [h.cells.size], Chunk.shownName scriptChunk.toUTF8⟩ :=
      h.stored_loaded chunk scriptChunk
  rw [execute_eq, applied_eq]
  refine .bind (Gateway.given_number read_script _ 1 _)
    (.bind (comes_called (plain.loaded chunk scriptChunk)
    (fun _ => Value.noConfusion) (returns_variadic stored (.of_ret body) _) []) ?_)
  exact .bind (.op_pure fun _ => rfl) (.bind (.op_pure fun _ => rfl) (.pure _ _))

end Runs

/-- Files of a configuration and of the script beside an empty directory. -/
def files : FileTree :=
  .directory [("c", .file Saving.document.toUTF8), ("s", .file script), ("store", .directory [])]

theorem reads {name : String} {data : ByteArray} (plain : FilePath.Plain name)
    (found : FileTree.child? [("c", .file Saving.document.toUTF8), ("s", .file script),
      ("store", .directory [])] name =
      some (.file data)) : files.read name = .ok data :=
  FileTree.HasDirectory.read_of_file (.inl ⟨rfl, rfl⟩ : Leads "" []) plain
    (FileTree.HasDirectory.nil.2 rfl) found

theorem supplied : Supplies (onFiles noDraws) "c" "s" settings script files files :=
  ⟨Saving.document, files, congrArg (·, files) (reads ⟨by decide, by simp, by decide⟩ rfl),
    Saving.document_valid,
    congrArg (·, files) (reads ⟨by decide, by simp, by decide⟩ rfl)⟩

theorem holds_store : Directory.Holds ["store"] files {} := by
  refine ⟨[], ?_, fun _ _ => rfl⟩
  exact FileTree.find_cons_of_child (FilePath.Plain.limit ⟨by decide, by simp, by decide⟩) rfl []

/-- What the gateway's run of the script comes to, and what it prints on the way. -/
theorem runs_script : ∃ fuel, ComesTo (I := platformInterface) (Process.onSystem (onFiles noDraws))
    (settings.toGateway.runInline fuel script false (.number 1)).run
      (process, files) (.ok (.number 1))
      ({ process with made := 1, printed := text }, files) := by
  let circumstances := Gateway.Preferring.circumstances
  let running : Process := { process with made := 1 }
  have admits : (Process.onSystem (onFiles noDraws) .admitInterpreter).run (process, files) =
      (.ok circumstances, (running, files)) := rfl
  have entry : (equipped circumstances).get Heap.globals (.ofAscii "print") = .builtin .print := by
    rw [Gateway.get_equipped circumstances (by decide) (by decide),
      Heap.get_eq Library.stored_basic, Library.get_tableOf]
    decide +kernel
  have silent := (Gateway.get_equipped circumstances (by decide) (by decide)).trans
    Library.silent_initialHeap
  have room := Interpreter.admits_outermost (Q := NestedCall) ⟨⟨equipped circumstances, []⟩, []⟩ 1 0
    (by omega) (by decide)
  obtain ⟨fuel, runs⟩ := Gateway.runWith_comesTo settings.toGateway.callers admits
    (comes_printing room (Gateway.plain_equipped circumstances) entry silent)
    ((congrArg Collector.marked (collector_printed _)).trans
      (Gateway.unmarked_equipped circumstances))
  have told : Platform.printed (Process.onSystem (onFiles noDraws))
      (printed (equipped circumstances)).output (running, files) =
      ({ process with made := 1, printed := text }, files) := by
    rw [output_printed, Gateway.silent_equipped]
    rfl
  refine ⟨fuel, ?_⟩
  rw [settings.toGateway.runInline_unsealed fuel (.number 1) rfl, Gateway.run_depthLimit, ← told]
  exact runs fuel le_rfl

end Printing

open Saving (settings noDraws process runLine writes_runLine) in
open Printing in
/-- A line that runs a script writes more than the value if the script prints. -/
theorem script_prints_before_value : ∃ fuel p,
    ComesTo (I := platformInterface) (Process.onSystem (onFiles noDraws))
        (settings.toGateway.runInline fuel script false (.number 1)).run (process, files)
          (.ok (.number 1)) (p, files) ∧
      ComesTo (I := systemInterface) (onFiles noDraws) (run fuel runLine .numbered) files
        { code := 0, printed := text, said := "Number(1)\n" } files ∧
      Ending.written { code := 0, printed := text, said := "Number(1)\n" } ≠
        ((Parcel.number 1).display ++ "\n").toUTF8 := by
  obtain ⟨fuel, inline⟩ := runs_script
  have started : (Process.start (Process.files (onFiles noDraws)) .numbered settings).run files =
      (.ok process, files) := by
    rw [run_start_of_root rfl, Directory.run_open Saving.leads_store.1 holds_store]
    rfl
  obtain ⟨_, _, found, valid, read⟩ := supplied
  refine ⟨fuel, _, inline, ?_, by decide⟩
  exact (comesTo_run_run writes_runLine.asks found valid read (by decide) started).2
    ⟨.ok (.number 1), _, inline, rfl⟩

end CommandLine
end SealedLua
