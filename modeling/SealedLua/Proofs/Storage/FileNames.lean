import SealedLua.Proofs.Number.Reading
import SealedLua.Proofs.Storage.Failing
import SealedLua.Proofs.Storage.Processes

/-!
# Names of scripts and names of files

The file of an object is named by two digits for each byte of the id, and a name
has at most 255 bytes.  A script is written to an object of its own first, and the
id of that one holds the serial number of the save besides the name.  So whether a
script can be saved in a directory depends on the length of its name and on how
many saves there were before: a name is sure to be stored if it has at most 98
bytes, and one that was stored before need not be stored again.
-/

namespace SealedLua

open FilePath (Leads)
open Directory (Fits Holds)

namespace Scripts

theorem size_recordId (text : String) : (recordId text).size = 7 + text.toUTF8.size := by
  rw [recordId, ByteArray.size_append, size_bytes]
  rfl

theorem size_stagingId (serial : UInt64) (text : String) :
    (stagingId serial text).size = 9 + (Ascii.numeral 10 serial.toNat).length +
      text.toUTF8.size := by
  rw [stagingId, ByteArray.size_append, size_bytes, List.length_append, List.length_append]
  have hfront : (ascii "staging:").length = 8 := rfl
  have hcolon : (ascii ":").length = 1 := rfl
  omega

theorem length_serial_le (serial : UInt64) : (Ascii.numeral 10 serial.toNat).length ≤ 20 := by
  obtain ⟨vs, heq, -, -, hshort⟩ := Ascii.exists_digits (by decide : 2 ≤ 10) serial.toNat
  rw [heq, List.length_map]
  exact hshort 20 (by decide) (Nat.lt_trans serial.toNat_lt (by decide))

/-- The object for the record has a shorter id than the one that is written first. -/
theorem fits_recordId {serial : UInt64} {text : String} (h : Fits (stagingId serial text)) :
    Fits (recordId text) := by
  have hlimit := h.2
  rw [size_stagingId] at hlimit
  rw [Fits, size_recordId]
  omega

end Scripts

namespace Directory

variable {root : String} {parts : List String} {t : FileTree} {m : Memory} {id : ObjectId}
  (hroot : Leads root parts) (h : Holds parts t m) (hlong : 127 < id.size)

include hlong in
theorem long_encode : FileTree.nameLimit < (Hex.encode id).utf8ByteSize := by
  rw [Hex.utf8ByteSize_encode, FileTree.nameLimit]
  omega

include hroot h hlong

theorem run_create_of_long :
    (Call.inDirectory root (.perform (.create id))).run t = (.error (.files .nameTooLong), t) := by
  obtain ⟨entries, hdirectory, -⟩ := h
  have hcreate : t.perform (.create (path root id)) = (.error .nameTooLong, t) :=
    hdirectory.change_of_long hroot (bare_encode (by omega)) (long_encode hlong)
  exact run_ask hcreate _

theorem run_delete_of_long :
    (Call.inDirectory root (.perform (.delete id))).run t = (.error (.files .nameTooLong), t) := by
  obtain ⟨entries, hdirectory, -⟩ := h
  have hremove : t.perform (.remove (path root id)) = (.error .nameTooLong, t) :=
    hdirectory.change_of_long hroot (bare_encode (by omega)) (long_encode hlong)
  exact run_ask hremove _

omit hroot h hlong in
/-- Reading leaves the files as they are, whatever is read. -/
theorem run_openRead_files (root : String) (id : ObjectId) (t : FileTree) :
    ∃ x, (Call.inDirectory root (.perform (.openRead id))).run t = (x, t) := by
  have hread : t.perform (.read (path root id)) = (t.read (path root id), t) := rfl
  cases hfound : t.read (path root id) with
  | ok data =>
    rw [hfound] at hread
    exact ⟨_, run_ask hread _⟩
  | error e =>
    rw [hfound] at hread
    exact ⟨_, run_ask hread _⟩

end Directory

namespace Host

/-- A host that keeps objects in a directory and lets no operation fail. -/
structure InDirectory (root : String) (parts : List String) (h : Host) (m : Memory) : Prop where
  root : h.process.root = some root
  faults : h.observation.faults = []
  files : Holds parts h.files m

variable {root : String} {parts : List String} {h : Host} {m : Memory}

/-- The host after an operation that leaves other files. -/
def withFiles (h : Host) (op : StorageOp) (files : FileTree) : Host :=
  { h with files := files, observation := h.observation.note op }

theorem InDirectory.withFiles (hd : InDirectory root parts h m) (op : StorageOp)
    {files : FileTree} {m' : Memory}
    (hfiles : Holds parts files m') : InDirectory root parts (h.withFiles op files) m' :=
  ⟨hd.root, hd.faults, hfiles⟩

@[simp] theorem withFiles_serial (h : Host) (op : StorageOp) (files : FileTree) :
    (h.withFiles op files).process.serial = h.process.serial := rfl

@[simp] theorem withFiles_files (h : Host) (op : StorageOp) (files : FileTree) :
    (h.withFiles op files).files = files := rfl

theorem answer_in_directory (hd : InDirectory root parts h m) {op : StorageOp}
    {x : op.Answer} {files : FileTree}
    (hrun : (Directory.Call.inDirectory root (.perform op)).run h.files = (x, files)) :
    (answer (.storage op)).run h = (x, h.withFiles op files) := by
  obtain ⟨⟨place, memory, serial, made, printed, circumstances⟩, tree, observation,
    interpreters, limit⟩ := h
  obtain ⟨hplace, hfaults, -⟩ := hd
  simp only at hplace hfaults hrun
  subst hplace
  have hintercept : observation.intercept op = (none, observation.note op) := by
    rw [Observation.intercept, Observation.fault?, hfaults]
    rfl
  have hperform : (Host.perform op).run
      ⟨⟨some root, memory, serial, made, printed, circumstances⟩, tree,
        observation.note op, interpreters, limit⟩ =
      (x, ⟨⟨some root, memory, serial, made, printed, circumstances⟩, files, observation.note op,
        interpreters, limit⟩) :=
    congrArg (fun r : op.Answer × FileTree =>
      (r.1, (⟨⟨some root, memory, serial, made, printed, circumstances⟩, r.2, observation.note op,
        interpreters, limit⟩ : Host))) hrun
  simp only [answer, StateT.run, hintercept]
  exact hperform

open Scripts

variable {limit : Nat} {name : ByteArray} {text : String}

def drawn (h : Host) : Host :=
  { h with process := { h.process with serial := h.process.serial + 1 } }

theorem answer_drawSerial (h : Host) :
    (answer .drawSerial).run h = (h.process.serial, h.drawn) := rfl

@[simp] theorem drawn_serial (h : Host) : h.drawn.process.serial = h.process.serial + 1 := rfl

theorem InDirectory.drawn (hd : InDirectory root parts h m) : InDirectory root parts h.drawn m :=
  ⟨hd.root, hd.faults, hd.files⟩

theorem run_stage_in_directory (hroot : Leads root parts) (hd : InDirectory root parts h m)
    {staging record : ObjectId}
    (hstaging : Fits staging) (hrecord : Fits record) (body : ByteArray) :
    ∃ t m', (Program.run (I := platformInterface) answer (stage staging record body).run).run
      h = (.ok (), t) ∧
      InDirectory root parts t m' ∧ t.process.serial = h.process.serial ∧
        m'.find? record = some body := by
  obtain ⟨files₁, hcreate, hholds₁⟩ := Directory.run_create hroot hd.files hstaging
  have hd₁ := hd.withFiles (.create staging) hholds₁
  obtain ⟨files₂, hwrite, hholds₂⟩ := Directory.run_write hroot hd₁.files hstaging body
  rw [Memory.perform_write _ (Memory.find?_insert_self _ _ _)] at hwrite hholds₂
  have hd₂ := hd₁.withFiles (.write staging body) hholds₂
  obtain ⟨files₃, hrename, hholds₃⟩ := Directory.run_rename hroot hd₂.files hstaging hrecord
  rw [Memory.perform_rename _ (Memory.find?_insert_self _ _ _)] at hrename hholds₃
  refine ⟨_, _, ?_, hd₂.withFiles (.rename staging record) hholds₃, rfl, ?_⟩
  · unfold stage
    exact (run_storage_bind (answer_in_directory hd hcreate) _).trans
      ((run_storage_bind (answer_in_directory hd₁ hwrite) _).trans
        (answer_in_directory hd₂ hrename))
  · rw [Memory.find?_insert_self, bytes_nil_append]

theorem run_save_of_fits (hroot : Leads root parts) (hd : InDirectory root parts h m)
    (hname : checkName limit name = .ok text) (hfits : Fits (stagingId h.process.serial text))
    (body : ByteArray) :
    ∃ t m', (Host.run (save limit name body)).run h = (.ok (), t) ∧ InDirectory root parts t m' ∧
      t.process.serial = h.process.serial + 1 ∧ m'.find? (recordId text) = some body := by
  obtain ⟨t, m', hstage, hd', hserial, hfound⟩ :=
    run_stage_in_directory hroot hd.drawn hfits (fits_recordId hfits) body
  exact ⟨t, m', run_save_of_staged hname h.answer_drawSerial hstage, hd', hserial, hfound⟩

/-- A save whose first object has a name that is too long fails and leaves the files as they are. -/
theorem run_save_of_long (hroot : Leads root parts) (hd : InDirectory root parts h m)
    (hname : checkName limit name = .ok text) (hlong : 127 < (stagingId h.process.serial text).size)
    (body : ByteArray) :
    ∃ t, (Host.run (save limit name body)).run h = (.error (.files .nameTooLong), t) ∧
      InDirectory root parts t m ∧
      t.process.serial = h.process.serial + 1 ∧ t.files = h.files := by
  have hcreate :=
    answer_in_directory hd.drawn (Directory.run_create_of_long hroot hd.drawn.files hlong)
  have hd₁ := hd.drawn.withFiles (.create (stagingId h.process.serial text)) hd.files
  have hdelete := answer_in_directory hd₁ (Directory.run_delete_of_long hroot hd₁.files hlong)
  have hd₂ := hd₁.withFiles (.delete (stagingId h.process.serial text)) hd.files
  have hstage : (Program.run (I := platformInterface) answer
      (stage (stagingId h.process.serial text) (recordId text) body).run).run h.drawn =
      (.error (.files .nameTooLong),
        h.drawn.withFiles (.create (stagingId h.process.serial text)) h.files) := by
    unfold stage
    exact run_storage_bind_error hcreate _
  exact ⟨_, run_save_of_failed hname h.answer_drawSerial hstage hdelete, hd₂, rfl, rfl⟩

theorem fits_or_long (serial : UInt64) (text : String) :
    Fits (stagingId serial text) ∨ 127 < (stagingId serial text).size := by
  rw [Fits, size_stagingId]
  omega

theorem run_load_in_directory (hd : InDirectory root parts h m) (limit : Nat) (name : ByteArray) :
    InDirectory root parts ((Host.run (load limit name)).run h).2 m ∧
      ((Host.run (load limit name)).run h).2.process.serial = h.process.serial := by
  cases hname : checkName limit name with
  | error e =>
    have hrun : (Host.run (load limit name)).run h = (.error e, h) := run_load_refused hname h
    rw [hrun]
    exact ⟨hd, rfl⟩
  | ok text =>
    obtain ⟨x, hread⟩ := Directory.run_openRead_files root (recordId text) h.files
    have hanswer := answer_in_directory hd hread
    have hrun : ((Host.run (load limit name)).run h).2 =
        h.withFiles (.openRead (recordId text)) h.files := by
      rw [load, hname]
      have hgo := Program.run_ask_bind (I := platformInterface) hanswer
        (β := Except StoreError Record)
      refine (congrArg Prod.snd (hgo _)).trans ?_
      rcases x with e | _ | body <;> rfl
    rw [hrun]
    exact ⟨hd.withFiles _ hd.files, rfl⟩

theorem run_load_of_fits (hroot : Leads root parts) (hd : InDirectory root parts h m)
    (hname : checkName limit name = .ok text) (hfits : Fits (recordId text)) {body : ByteArray}
    (hfound : m.find? (recordId text) = some body) :
    ((Host.run (load limit name)).run h).1 = .ok ⟨text, body⟩ := by
  have hread := answer_in_directory hd (Directory.run_openRead hroot hd.files hfits)
  rw [load, hname]
  have hrun := Program.run_ask_bind (I := platformInterface) hread (β := Except StoreError Record)
  refine (congrArg Prod.fst (hrun _)).trans ?_
  rw [hfound]
  rfl

def draws (limit : Nat) : Scripts.Call → Bool
  | .save name _ => (checkName limit name).isOk
  | .load _ => false

/-- A call leaves the files in order and has drawn the numbers that it draws. -/
theorem serve_in_directory (hroot : Leads root parts) (hd : InDirectory root parts h m)
    (limit : Nat) (call : Scripts.Call) :
    ∃ m', InDirectory root parts ((Host.run (call.program limit)).run h).2 m' ∧
      ((Host.run (call.program limit)).run h).2.process.serial =
        h.process.serial + UInt64.ofNat (draws limit call).toNat := by
  cases call with
  | load name =>
    obtain ⟨hd', hserial⟩ := run_load_in_directory hd limit name
    rw [Host.run, Scripts.Call.run_load]
    exact ⟨m, hd', hserial.trans (UInt64.add_zero _).symm⟩
  | save name body =>
    rw [Host.run, Scripts.Call.run_save]
    cases hname : checkName limit name with
    | error e =>
      rw [run_save_refused hname, draws, hname]
      exact ⟨m, hd, (UInt64.add_zero _).symm⟩
    | ok text =>
      rw [draws, hname]
      rcases fits_or_long h.process.serial text with hfits | hlong
      · obtain ⟨t, m', hrun, hd', hserial, -⟩ := run_save_of_fits hroot hd hname hfits body
        rw [Host.run] at hrun
        rw [hrun]
        exact ⟨m', hd', hserial⟩
      · obtain ⟨t, hrun, hd', hserial, -⟩ := run_save_of_long hroot hd hname hlong body
        rw [Host.run] at hrun
        rw [hrun]
        exact ⟨m, hd', hserial⟩

/-- The number that is drawn after some calls counts the saves among them whose names are fit. -/
theorem serveAll_in_directory (hroot : Leads root parts) (limit : Nat) (calls : List Scripts.Call)
    (hd : InDirectory root parts h m) :
    ∃ m', InDirectory root parts (serveAll limit answer calls h).2 m' ∧
      (serveAll limit answer calls h).2.process.serial =
        h.process.serial + UInt64.ofNat (calls.countP (draws limit)) := by
  induction calls generalizing h m with
  | nil => exact ⟨m, hd, (UInt64.add_zero _).symm⟩
  | cons call rest ih =>
    obtain ⟨m₁, hd₁, hserial₁⟩ := serve_in_directory hroot hd limit call
    obtain ⟨m₂, hd₂, hserial₂⟩ := ih hd₁
    refine ⟨m₂, hd₂, hserial₂.trans ?_⟩
    rw [hserial₁, UInt64.add_assoc, ← UInt64.ofNat_add, List.countP_cons, Nat.add_comm]
    cases draws limit call <;> rfl

/-- After any calls, a script whose name is fit is saved and can be loaded iff its name
together with the digits of the number of saves so far has at most 118 bytes; otherwise
the save fails and no file changes.  Every name of at most 98 bytes can be saved. -/
theorem names_are_stored_iff_short (hroot : Leads root parts)
    (hd : InDirectory root parts h m) {limit : Nat} {name body : ByteArray} {text : String}
    (hname : checkName limit name = .ok text) (earlier : List Scripts.Call) :
    let now := (serveAll limit answer earlier h).2
    let saved := (Host.run (save limit name body)).run now
    let loaded := (Host.run (load limit name)).run saved.2
    let serial := h.process.serial + UInt64.ofNat (earlier.countP (draws limit))
    let length := name.size + (Ascii.numeral 10 serial.toNat).length
    (length ≤ 118 → saved.1 = .ok () ∧ loaded.1 = .ok ⟨text, body⟩) ∧
      (118 < length → saved.1 = .error (.files .nameTooLong) ∧ saved.2.files = now.files) ∧
      (name.size ≤ 98 → saved.1 = .ok () ∧ loaded.1 = .ok ⟨text, body⟩) := by
  intro now saved loaded serial length
  obtain ⟨m', hnow, hserial⟩ := serveAll_in_directory hroot limit earlier hd
  have hdrawn : now.process.serial = serial := hserial
  have hsize : (stagingId now.process.serial text).size = 9 + length := by
    rw [hdrawn, size_stagingId, checkName_eq_ok hname]
    omega
  have hshort : length ≤ 118 → saved.1 = .ok () ∧ loaded.1 = .ok ⟨text, body⟩ := by
    intro hlength
    have hfits : Fits (stagingId now.process.serial text) := by
      rw [Fits, hsize]
      omega
    obtain ⟨t, m'', hrun, hd', -, hfound⟩ := run_save_of_fits hroot hnow hname hfits body
    refine ⟨congrArg Prod.fst hrun, ?_⟩
    have hafter : saved.2 = t := congrArg Prod.snd hrun
    rw [← hafter] at hd'
    exact run_load_of_fits hroot hd' hname (fits_recordId hfits) hfound
  refine ⟨hshort, ?_, ?_⟩
  · intro hlength
    have hlong : 127 < (stagingId now.process.serial text).size := by omega
    obtain ⟨t, hrun, -, -, hfiles⟩ := run_save_of_long hroot hnow hname hlong body
    have hafter : saved.2 = t := congrArg Prod.snd hrun
    exact ⟨congrArg Prod.fst hrun, hafter ▸ hfiles⟩
  · intro hlimit
    have := length_serial_le serial
    exact hshort (by omega)

/-- A host that starts on an empty directory. -/
def onEmptyRoot : Host := { process := { root := some "objects" }, files := emptyRoot }

theorem inDirectory_onEmptyRoot : InDirectory "objects" ["objects"] onEmptyRoot {} :=
  ⟨rfl, rfl, leads_emptyRoot.2⟩

def smallScript : ByteArray := bytes (ascii "return 1")

/-- The letter `a` so many times. -/
def repeated (n : Nat) : String := String.ofList (List.replicate n 'a')

theorem size_repeated (n : Nat) : (repeated n).toUTF8.size = n := by
  rw [repeated, String.toUTF8, String.size_toByteArray, String.utf8ByteSize_ofList]
  induction n with
  | zero => rfl
  | succ n ih => rw [List.replicate_succ, String.utf8Len_cons, ih]; rfl

theorem checkName_repeated {limit n : Nat} (hpos : 0 < n) (hn : n ≤ limit) :
    checkName limit (repeated n).toUTF8 = .ok (repeated n) := by
  have hin : (decide ((repeated n).toUTF8.size = 0) || decide (limit < (repeated n).toUTF8.size)) =
      false := by
    rw [size_repeated, Bool.or_eq_false_iff, decide_eq_false_iff_not, decide_eq_false_iff_not]
    omega
  rw [checkName, hin, if_neg Bool.false_ne_true, Parcel.fromUTF8?_toUTF8]

/-- A name of 117 bytes is stored ten times and then no more. -/
theorem eleventh_save_fails :
    Leads "objects" ["objects"] ∧ InDirectory "objects" ["objects"] onEmptyRoot {} ∧
      checkName 117 (repeated 117).toUTF8 = .ok (repeated 117) ∧
      ((Host.run (save 117 (repeated 117).toUTF8 smallScript)).run onEmptyRoot).1 = .ok () ∧
      ((Host.run (save 117 (repeated 117).toUTF8 smallScript)).run
        (serveAll 117 answer (List.replicate 10 (.save (repeated 117).toUTF8 smallScript))
          onEmptyRoot).2).1 =
          .error (.files .nameTooLong) := by
  have hname : checkName 117 (repeated 117).toUTF8 = .ok (repeated 117) :=
    checkName_repeated (by decide) (Nat.le_refl _)
  have hdraws : draws 117 (.save (repeated 117).toUTF8 smallScript) = true := by
    rw [draws, hname]
    rfl
  have hten : (List.replicate 10 (Scripts.Call.save (repeated 117).toUTF8 smallScript)).countP
      (draws 117) = 10 := by
    rw [List.countP_replicate, if_pos hdraws]
  obtain ⟨hfirst, -⟩ :=
    names_are_stored_iff_short leads_emptyRoot.1 inDirectory_onEmptyRoot hname []
  obtain ⟨-, heleventh, -⟩ :=
    names_are_stored_iff_short leads_emptyRoot.1 inDirectory_onEmptyRoot hname
    (List.replicate 10 (.save (repeated 117).toUTF8 smallScript))
  refine ⟨leads_emptyRoot.1, inDirectory_onEmptyRoot, hname, (hfirst ?_).1, (heleventh ?_).1⟩
  · rw [size_repeated]
    simp [onEmptyRoot, Ascii.numeral]
  · rw [size_repeated, hten]
    simp [onEmptyRoot, Ascii.numeral]

/-- A configuration under which names may have 118 bytes. -/
def longNames : Configuration :=
  { secret := ⟨bytes (List.replicate 32 1), size_bytes _⟩, nameLimit :=
    118, storageRoot := some "objects" }

/-- A name of 118 bytes is accepted under that configuration and is not stored even once. -/
theorem accepted_name_is_not_stored :
    longNames.check = .ok () ∧
      (Process.start answerFile Lua.Circumstances.numbered longNames).run onEmptyRoot.files =
        (.ok onEmptyRoot.process, onEmptyRoot.files) ∧
      checkName longNames.nameLimit (repeated 118).toUTF8 = .ok (repeated 118) ∧
      ((Host.run (save longNames.nameLimit (repeated 118).toUTF8 smallScript)).run onEmptyRoot).1 =
        .error (.files .nameTooLong) ∧
      ¬∀ (c : Configuration) (name body : ByteArray) (text : String), c.check = .ok () →
        checkName c.nameLimit name = .ok text →
          ((Host.run (save c.nameLimit name body)).run onEmptyRoot).1 = .ok () := by
  have hcheck : longNames.check = .ok () := rfl
  have hname : checkName longNames.nameLimit (repeated 118).toUTF8 = .ok (repeated 118) :=
    checkName_repeated (by decide) (Nat.le_refl _)
  have hlong : 127 < (stagingId onEmptyRoot.process.serial (repeated 118)).size := by
    rw [size_stagingId, size_repeated]
    simp [onEmptyRoot, Ascii.numeral]
  obtain ⟨t, hrun, -⟩ :=
    run_save_of_long leads_emptyRoot.1 inDirectory_onEmptyRoot hname hlong smallScript
  have hfails := congrArg Prod.fst hrun
  refine ⟨hcheck, ?_, hname, hfails, ?_⟩
  · have hopen := Directory.run_open leads_emptyRoot.1 inDirectory_onEmptyRoot.files
    exact congrArg (fun r : Except StoreError Unit × FileTree =>
      (r.1.map fun () => ({ root := some "objects" } : Process), r.2)) hopen
  · intro hall
    have hsaved := hall longNames _ smallScript _ hcheck hname
    rw [hfails] at hsaved
    cases hsaved

end Host
end SealedLua
