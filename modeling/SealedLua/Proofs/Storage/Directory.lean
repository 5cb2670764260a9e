import SealedLua.Proofs.Files.Elsewhere
import SealedLua.Proofs.Storage.Reliable

/-!
# Storage in a directory is storage in memory

Objects with ids that fit in a file name are told apart by the names of their
files, and every operation does to the entry of an object what it does to the
object in memory.  So whoever uses the storage, and closes and opens it again at
will, gets the same answers from both.
-/

namespace SealedLua

open Function (update)

namespace Hex

def char (value : Nat) : Char := Char.ofNat (Ascii.digit value).toNat

def chars (l : List UInt8) : List Char := l.flatMap fun c =>
  [char (c.toNat / 16), char (c.toNat % 16)]

theorem toList_encode (b : ByteArray) : (encode b).toList = chars (codes b) := by
  simp [encode, Ascii.text, List.map_flatMap, char, chars]

theorem halves_lt (c : UInt8) : c.toNat / 16 < 16 ∧ c.toNat % 16 < 16 := by
  have := c.toNat_lt
  omega

theorem char_plain : ∀ v < 16, char v ≠ '/' ∧ char v ≠ '.' ∧ char v ≠ '\x00' ∧
    (char v).utf8Size = 1 := by
  decide

theorem char_injective : ∀ v < 16, ∀ w < 16, char v = char w → v = w := by
  decide

theorem exists_char_of_mem {b : ByteArray} {c : Char} (h : c ∈ (encode b).toList) :
    ∃ v < 16, c = char v := by
  rw [toList_encode, chars, List.mem_flatMap] at h
  obtain ⟨code, -, hc⟩ := h
  rcases List.mem_pair.1 hc with rfl | rfl
  · exact ⟨_, (halves_lt code).1, rfl⟩
  · exact ⟨_, (halves_lt code).2, rfl⟩

theorem utf8Len_chars (l : List UInt8) : String.utf8Len (chars l) = 2 * l.length := by
  induction l with
  | nil => rfl
  | cons c l ih =>
    have hhigh := (char_plain _ (halves_lt c).1).2.2.2
    have hlow := (char_plain _ (halves_lt c).2).2.2.2
    have hcons : chars (c :: l) = char (c.toNat / 16) :: char (c.toNat % 16) :: chars l := rfl
    rw [hcons, String.utf8Len_cons, String.utf8Len_cons, ih, hhigh, hlow, List.length_cons]
    omega

theorem utf8ByteSize_encode (b : ByteArray) : (encode b).utf8ByteSize = 2 * b.size := by
  rw [← String.ofList_toList (s := encode b), String.utf8ByteSize_ofList, toList_encode,
    utf8Len_chars, length_codes]

theorem chars_injective {l m : List UInt8} (h : chars l = chars m) : l = m := by
  induction l generalizing m with
  | nil =>
    cases m with
    | nil => rfl
    | cons y m => cases h
  | cons x l ih =>
    cases m with
    | nil => cases h
    | cons y m =>
      injection h with hhigh hrest
      injection hrest with hlow hrest
      have hdiv := char_injective _ (halves_lt x).1 _ (halves_lt y).1 hhigh
      have hmod := char_injective _ (halves_lt x).2 _ (halves_lt y).2 hlow
      have hxy : x = y := UInt8.toNat_inj.1 (by omega)
      rw [hxy, ih hrest]

theorem encode_injective {b c : ByteArray} (h : encode b = encode c) : b = c := by
  have htext := congrArg String.toList h
  rw [toList_encode, toList_encode] at htext
  exact codes_injective (chars_injective htext)

end Hex

namespace Directory

open FilePath (Bare Leads Plain)
open FileTree (child? withEntry)

/-- An id is not empty, and twice its size is a length that a name may have. -/
def Fits (id : ObjectId) : Prop := 0 < id.size ∧ id.size ≤ 127

theorem bare_encode {id : ObjectId} (h : 0 < id.size) : Bare (Hex.encode id) where
  nonempty heq := by
    have hsize := Hex.utf8ByteSize_encode id
    rw [heq] at hsize
    have hzero : "".utf8ByteSize = 0 := rfl
    omega
  chars c hc := by
    obtain ⟨v, hv, rfl⟩ := Hex.exists_char_of_mem hc
    obtain ⟨hslash, hdot, hzero, -⟩ := Hex.char_plain v hv
    exact ⟨hslash, hdot, hzero⟩

theorem Fits.plain {id : ObjectId} (h : Fits id) : Plain (Hex.encode id) where
  nonempty := (bare_encode h.1).nonempty
  chars := (bare_encode h.1).chars
  limit := by
    rw [Hex.utf8ByteSize_encode]
    have := h.2
    unfold FileTree.nameLimit
    omega

/-- The files of a directory with the names of ids are the objects in memory. -/
def Mirrors (entries : List (String × FileTree)) (m : Memory) : Prop :=
  ∀ id, Fits id → child? entries (Hex.encode id) = (m.find? id).map .file

/-- Below the parts, the tree has a directory with the objects. -/
def Holds (parts : List String) (t : FileTree) (m : Memory) : Prop :=
  ∃ entries, t.HasDirectory parts entries ∧ Mirrors entries m

theorem Mirrors.update {entries entries' : List (String × FileTree)} {m m' : Memory} {id : ObjectId}
    {data : Option ByteArray} (h : Mirrors entries m)
    (hentries : child? entries' = update (child? entries) (Hex.encode id) (data.map .file))
    (hobjects : m'.find? = update m.find? id data) : Mirrors entries' m' := by
  intro other hother
  rw [hentries, hobjects]
  by_cases heq : other = id
  · subst heq
    rw [Function.update_self, Function.update_self]
  · have hname : Hex.encode other ≠ Hex.encode id := fun hname => heq (Hex.encode_injective hname)
    rw [Function.update_of_ne heq, Function.update_of_ne hname]
    exact h other hother

/-- What is asked of storage by one who may also close it and open it again. -/
inductive Call where
  | perform (op : StorageOp)
  | reopen

namespace Call

def Answer : Call → Type
  | .perform op => op.Answer
  | .reopen => Except StoreError Unit

def ids : Call → List ObjectId
  | .perform op => op.ids
  | .reopen => []

/-- Answers a call with files below a root. -/
def inDirectory (root : String) : (c : Call) → StateM FileTree c.Answer
  | .perform op => Program.run (I := fileInterface) Host.answerFile (Directory.perform root op)
  | .reopen => Program.run (I := fileInterface) Host.answerFile (Directory.open root)

/-- Answers a call with objects in memory, which there is no need to open. -/
def inMemory : (c : Call) → StateM Memory c.Answer
  | .perform op => fun m => m.perform op
  | .reopen => pure (.ok ())

end Call

section Steps

/-- After an operation on files a program goes on with the answer. -/
theorem run_ask {α : Type} {op : FileOp} {x : op.Answer} {t t' : FileTree}
    (h : t.perform op = (x, t')) (f : op.Answer → Program fileInterface α) :
    (Program.run (I := fileInterface) Host.answerFile
      ((Program.ask (I := fileInterface) op).bind f)).run t =
      (Program.run (I := fileInterface) Host.answerFile (f x)).run t' :=
  congrArg (fun r : op.Answer × FileTree =>
    (Program.run (I := fileInterface) Host.answerFile (f r.1)).run r.2) h

variable {root : String} {parts : List String} {t : FileTree} {m : Memory}

theorem exists_leads_of_open {t' : FileTree}
    (hopen : (Call.inDirectory root .reopen).run t = (.ok (), t')) :
    ∃ parts, Leads root parts := by
  by_cases hempty : root = ""
  · exact ⟨[], .inl ⟨hempty, rfl⟩⟩
  · cases hpath : FilePath.ofString root with
    | ok p => exact ⟨p.parts, .inr ⟨p.directory, hpath⟩⟩
    | error e =>
      -- A root that is no path neither exists nor can be made.
      have hexists : t.perform (.exists root) =
          (if e = .notFound then .ok false else .error e, t) := by
        have hfound : t.exists root = if e = .notFound then .ok false else .error e := by
          unfold FileTree.exists
          rw [hpath]
          rfl
        exact congrArg (·, t) hfound
      have hmake : t.perform (.makeDirectories root) = (.error e, t) := by
        have hmade : t.makeDirectories root = (.error e, t) := by
          simp [FileTree.makeDirectories, hempty, hpath, bind, Except.bind]
        exact hmade
      by_cases hmissing : e = .notFound
      · rw [if_pos hmissing] at hexists
        have hrun : (Call.inDirectory root .reopen).run t = (.error (.files e), t) :=
          (run_ask hexists _).trans (run_ask hmake _)
        rw [hrun] at hopen
        cases hopen
      · rw [if_neg hmissing] at hexists
        have hrun : (Call.inDirectory root .reopen).run t = (.error (.files e), t) :=
          run_ask hexists _
        rw [hrun] at hopen
        cases hopen

variable (hroot : Leads root parts)

include hroot

theorem run_open_of_directory {entries : List (String × FileTree)}
    (hdirectory : t.HasDirectory parts entries) :
    (Call.inDirectory root .reopen).run t = (.ok (), t) := by
  by_cases hempty : root = ""
  · subst hempty
    rfl
  · have hexists : (Host.answerFile (.exists root)).run t = (.ok true, t) :=
      congrArg (·, t) (hdirectory.exists_root hroot hempty)
    exact run_ask hexists _

theorem run_open (h : Holds parts t m) : (Call.inDirectory root .reopen).run t = (.ok (), t) := by
  obtain ⟨entries, hdirectory, -⟩ := h
  exact run_open_of_directory hroot hdirectory

theorem run_create (h : Holds parts t m) {id : ObjectId} (hid : Fits id) :
    ∃ t', (Call.inDirectory root (.perform (.create id))).run t = (.ok (), t') ∧
      Holds parts t' (m.insert id (bytes [])) := by
  obtain ⟨entries, hdirectory, hmirrors⟩ := h
  obtain ⟨t', hcreate, hdirectory'⟩ :
      ∃ t', t.perform (.create (path root id)) = (.ok (), t') ∧
        t'.HasDirectory parts (withEntry entries (Hex.encode id) (some (.file (bytes [])))) := by
    apply hdirectory.change_of_ok hroot hid.plain
    rw [hmirrors id hid]
    cases m.find? id <;> rfl
  refine ⟨t', run_ask hcreate _, _, hdirectory', ?_⟩
  exact hmirrors.update (FileTree.child?_withEntry _ _ _) (m.find?_insert id (bytes []))

theorem run_write (h : Holds parts t m) {id : ObjectId} (hid : Fits id) (data : ByteArray) :
    ∃ t', (Call.inDirectory root (.perform (.write id data))).run t =
      ((m.perform (.write id data)).1, t') ∧
      Holds parts t' (m.perform (.write id data)).2 := by
  obtain ⟨entries, hdirectory, hmirrors⟩ := h
  have hfile := hmirrors id hid
  cases hobject : m.find? id with
  | none =>
    rw [hobject] at hfile
    have happend : t.perform (.append (path root id) data) = (.error .notFound, t) := by
      apply hdirectory.change_of_error hroot hid.plain
      rw [hfile]
      rfl
    have hmemory : m.perform (.write id data) = (.error (.missing id), m) := by
      simp only [Memory.perform, hobject]
    rw [hmemory]
    exact ⟨t, run_ask happend _, entries, hdirectory, hmirrors⟩
  | some old =>
    rw [hobject] at hfile
    obtain ⟨t', happend, hdirectory'⟩ :
        ∃ t', t.perform (.append (path root id) data) = (.ok (), t') ∧
          t'.HasDirectory parts
          (withEntry entries (Hex.encode id) (some (.file (old ++ data)))) := by
      apply hdirectory.change_of_ok hroot hid.plain
      rw [hfile]
      rfl
    rw [m.perform_write hobject]
    refine ⟨t', run_ask happend _, _, hdirectory', ?_⟩
    exact hmirrors.update (FileTree.child?_withEntry _ _ _) (m.find?_insert id _)

theorem run_openRead (h : Holds parts t m) {id : ObjectId} (hid : Fits id) :
    (Call.inDirectory root (.perform (.openRead id))).run t = (.ok (m.find? id), t) := by
  obtain ⟨entries, hdirectory, hmirrors⟩ := h
  have hfile := hmirrors id hid
  cases hobject : m.find? id with
  | none =>
    rw [hobject] at hfile
    have hread : t.perform (.read (path root id)) = (.error .notFound, t) :=
      congrArg (·, t) (hdirectory.read_of_none hroot hid.plain hfile)
    exact run_ask hread _
  | some data =>
    rw [hobject] at hfile
    have hread : t.perform (.read (path root id)) = (.ok data, t) :=
      congrArg (·, t) (hdirectory.read_of_file hroot hid.plain hfile)
    exact run_ask hread _

theorem run_rename (h : Holds parts t m) {source target : ObjectId} (hsource : Fits source)
    (htarget : Fits target) :
    ∃ t', (Call.inDirectory root (.perform (.rename source target))).run t =
        ((m.perform (.rename source target)).1, t') ∧
      Holds parts t' (m.perform (.rename source target)).2 := by
  obtain ⟨entries, hdirectory, hmirrors⟩ := h
  have hfile := hmirrors source hsource
  cases hobject : m.find? source with
  | none =>
    rw [hobject] at hfile
    have hrename : t.perform (.rename (path root source) (path root target)) =
        (.error .notFound, t) :=
      hdirectory.rename_of_none hroot hsource.plain htarget.plain hfile
    have hmemory : m.perform (.rename source target) = (.error (.missing source), m) := by
      simp only [Memory.perform, hobject]
    rw [hmemory]
    exact ⟨t, run_ask hrename _, entries, hdirectory, hmirrors⟩
  | some data =>
    rw [hobject] at hfile
    have hreplaced : ∀ u ∈ child? entries (Hex.encode target), u.isDirectory = false := by
      intro u hu
      rw [hmirrors target htarget] at hu
      obtain ⟨old, -, rfl⟩ := Option.map_eq_some_iff.1 hu
      rfl
    obtain ⟨t', entries', hrename, hdirectory', hentries⟩ :=
      hdirectory.rename_of_file hroot hsource.plain htarget.plain hfile hreplaced
    have hrename' : t.perform (.rename (path root source) (path root target)) =
      (.ok (), t') := hrename
    rw [m.perform_rename hobject]
    refine ⟨t', run_ask hrename' _, entries', hdirectory', ?_⟩
    have htaken : Mirrors (withEntry entries (Hex.encode source) none) (m.erase source) :=
      hmirrors.update (FileTree.child?_withEntry _ _ _) (m.find?_erase source)
    apply htaken.update _ ((m.erase source).find?_insert target data)
    rw [hentries, FileTree.child?_withEntry]
    rfl

theorem run_delete (h : Holds parts t m) {id : ObjectId} (hid : Fits id) :
    ∃ t', (Call.inDirectory root (.perform (.delete id))).run t = (.ok (), t') ∧
      Holds parts t' (m.erase id) := by
  obtain ⟨entries, hdirectory, hmirrors⟩ := h
  have hfile := hmirrors id hid
  cases hobject : m.find? id with
  | none =>
    rw [hobject] at hfile
    have hremove : t.perform (.remove (path root id)) = (.error .notFound, t) := by
      apply hdirectory.change_of_error hroot hid.plain
      rw [hfile]
      rfl
    have hsame : (m.erase id).find? = m.find? := by
      rw [m.find?_erase, ← hobject, Function.update_eq_self]
    refine ⟨t, run_ask hremove _, entries, hdirectory, ?_⟩
    intro other hother
    rw [hsame]
    exact hmirrors other hother
  | some data =>
    rw [hobject] at hfile
    obtain ⟨t', hremove, hdirectory'⟩ :
        ∃ t', t.perform (.remove (path root id)) = (.ok (), t') ∧
          t'.HasDirectory parts (withEntry entries (Hex.encode id) none) := by
      apply hdirectory.change_of_ok hroot hid.plain
      rw [hfile]
      rfl
    refine ⟨t', run_ask hremove _, _, hdirectory', ?_⟩
    exact hmirrors.update (FileTree.child?_withEntry _ _ _) (m.find?_erase id)

/-- A file that is made, filled and moved ends up in its place, in a directory that is there. -/
theorem exists_entry_of_staged {t₁ t₂ t₃ : FileTree} {staging record : ObjectId} {body : ByteArray}
    (hstaging : 0 < staging.size) (hrecord : 0 < record.size) (hshort : record.size ≤ staging.size)
    (hcreate : (Call.inDirectory root (.perform (.create staging))).run t = (.ok (), t₁))
    (hwrite : (Call.inDirectory root (.perform (.write staging body))).run t₁ = (.ok (), t₂))
    (hrename : (Call.inDirectory root (.perform (.rename staging record))).run t₂ = (.ok (), t₃)) :
    Plain (Hex.encode record) ∧
      ∃ entries, t₃.HasDirectory parts entries ∧
        child? entries (Hex.encode record) = some (.file body) := by
  have hcreated : t.perform (.create (path root staging)) = (.ok (), t₁) := by
    rcases h : t.perform (.create (path root staging)) with ⟨e | _, u⟩
    · have hrun : (Call.inDirectory root (.perform (.create staging))).run t =
        (.error (.files e), u) := run_ask h _
      rw [hrun] at hcreate
      cases hcreate
    · have hrun : (Call.inDirectory root (.perform (.create staging))).run t =
        (.ok (), u) := run_ask h _
      rw [hrun] at hcreate
      cases hcreate
      rfl
  obtain ⟨entries, entry, -, hlimit, hentry, hdirectory₁⟩ :=
    FileTree.HasDirectory.exists_entry_of_change hroot (bare_encode hstaging) hcreated
  obtain rfl : entry = some (.file (bytes [])) := by
    generalize child? entries (Hex.encode staging) = found at hentry
    rcases found with _ | (_ | _) <;> cases hentry <;> rfl
  have hplain : Plain (Hex.encode staging) :=
    ⟨(bare_encode hstaging).nonempty, (bare_encode hstaging).chars, hlimit⟩
  have hfits : Plain (Hex.encode record) := by
    refine ⟨(bare_encode hrecord).nonempty, (bare_encode hrecord).chars, ?_⟩
    rw [Hex.utf8ByteSize_encode] at hlimit ⊢
    omega
  obtain ⟨made, hdirectory₁, hempty⟩ :
      ∃ made, t₁.HasDirectory parts made ∧ child? made (Hex.encode staging) =
        some (.file (bytes [])) := by
    refine ⟨_, hdirectory₁, ?_⟩
    rw [FileTree.child?_withEntry, Function.update_self]
  obtain ⟨u, happend, hdirectory₂⟩ :
      ∃ u, t₁.perform (.append (path root staging) body) = (.ok (), u) ∧
        u.HasDirectory parts (withEntry made (Hex.encode staging) (some (.file body))) := by
    apply hdirectory₁.change_of_ok hroot hplain
    rw [hempty]
    simp
  have hwritten : (Call.inDirectory root (.perform (.write staging body))).run t₁ = (.ok (), u) :=
    run_ask happend _
  obtain rfl : u = t₂ := congrArg Prod.snd (hwritten.symm.trans hwrite)
  obtain ⟨filled, hdirectory₂, hfile⟩ :
      ∃ filled, u.HasDirectory parts filled ∧
        child? filled (Hex.encode staging) = some (.file body) := by
    refine ⟨_, hdirectory₂, ?_⟩
    rw [FileTree.child?_withEntry, Function.update_self]
  by_cases hreplaced : ∀ old ∈ child? filled (Hex.encode record), old.isDirectory = false
  · obtain ⟨v, entries', hmove, hdirectory₃, hentries⟩ :=
      hdirectory₂.rename_of_file hroot hplain hfits hfile hreplaced
    have hmove' : u.perform (.rename (path root staging) (path root record)) = (.ok (), v) := hmove
    have hmoved : (Call.inDirectory root (.perform (.rename staging record))).run u = (.ok (), v) :=
      run_ask hmove' _
    obtain rfl : v = t₃ := congrArg Prod.snd (hmoved.symm.trans hrename)
    refine ⟨hfits, entries', hdirectory₃, ?_⟩
    rw [hentries, Function.update_self]
  · -- A directory in the place of the record would have made the last step fail.
    simp only [not_forall] at hreplaced
    obtain ⟨old, hold, hkind⟩ := hreplaced
    cases old with
    | file data => exact absurd rfl hkind
    | directory below =>
      have hmove : u.perform (.rename (path root staging) (path root record)) =
          (.error .isADirectory, u) :=
        hdirectory₂.rename_of_directory hroot hplain hfits hfile hold
      have hrefused : (Call.inDirectory root (.perform (.rename staging record))).run u =
          (.error (.files .isADirectory), u) :=
        run_ask hmove _
      rw [hrefused] at hrename
      cases hrename

/-- Every call gets the answer of the memory, and goes on with what the memory holds after it. -/
theorem run_call (h : Holds parts t m) {c : Call} (hids : ∀ id ∈ c.ids, Fits id) :
    ∃ x t' m', (c.inDirectory root).run t = (x, t') ∧ (c.inMemory).run m = (x, m') ∧
      Holds parts t' m' := by
  cases c with
  | reopen => exact ⟨_, t, m, run_open hroot h, rfl, h⟩
  | perform op =>
    cases op with
    | create id =>
      obtain ⟨t', hrun, hholds⟩ := run_create hroot h (hids id (by simp [Call.ids, StorageOp.ids]))
      exact ⟨_, t', _, hrun, rfl, hholds⟩
    | write id data =>
      obtain ⟨t', hrun, hholds⟩ :=
        run_write hroot h (hids id (by simp [Call.ids, StorageOp.ids])) data
      exact ⟨_, t', _, hrun, rfl, hholds⟩
    | openRead id =>
      exact ⟨_, t, m, run_openRead hroot h (hids id (by simp [Call.ids, StorageOp.ids])), rfl, h⟩
    | rename source target =>
      obtain ⟨t', hrun, hholds⟩ :=
        run_rename hroot h (hids source (by simp [Call.ids, StorageOp.ids]))
        (hids target (by simp [Call.ids, StorageOp.ids]))
      exact ⟨_, t', _, hrun, rfl, hholds⟩
    | delete id =>
      obtain ⟨t', hrun, hholds⟩ := run_delete hroot h (hids id (by simp [Call.ids, StorageOp.ids]))
      exact ⟨_, t', _, hrun, rfl, hholds⟩

end Steps

section Elsewhere

variable {root : String} {parts : List String} {t : FileTree}

/-- A program that asks once leaves the files that this operation leaves. -/
theorem files_of_ask {α : Type} {op : FileOp} {f : op.Answer → Program fileInterface α}
    (hdone : ∀ x, ∃ a, f x = .done a) :
    ((Program.run (I := fileInterface) Host.answerFile
      ((Program.ask (I := fileInterface) op).bind f)).run t).2 =
      (t.perform op).2 := by
  obtain ⟨a, ha⟩ := hdone (t.perform op).1
  rw [run_ask (x := (t.perform op).1) rfl, ha]
  rfl

theorem keeps_perform (hroot : Leads root parts) {op : StorageOp} {x : op.Answer} {t' : FileTree}
    (h : (Call.inDirectory root (.perform op)).run t = (x, t'))
    (hids : ∀ id ∈ op.ids, 0 < id.size) :
    t.KeepsElsewhere parts t' := by
  have hleft : ((Call.inDirectory root (.perform op)).run t).2 = t' := congrArg Prod.snd h
  rw [← hleft]
  have hpath : ∀ id ∈ op.ids, FilePath.ofString (path root id) =
      .ok ⟨parts ++ [Hex.encode id], false⟩ := fun id hid =>
    FilePath.ofString_join hroot (bare_encode (hids id hid))
  have hbelow : ∀ id, parts <+: parts ++ [Hex.encode id] := fun id => List.prefix_append _ _
  cases op with
  | create id =>
    have hfiles : ((Call.inDirectory root (.perform (.create id))).run t).2 =
        (t.perform (.create (path root id))).2 :=
      files_of_ask fun x => by cases x <;> exact ⟨_, rfl⟩
    rw [hfiles]
    exact .of_change (hpath id (by simp [StorageOp.ids])) (hbelow id) rfl
  | write id data =>
    have hfiles : ((Call.inDirectory root (.perform (.write id data))).run t).2 =
        (t.perform (.append (path root id) data)).2 :=
      files_of_ask fun x => by cases x <;> exact ⟨_, rfl⟩
    rw [hfiles]
    exact .of_change (hpath id (by simp [StorageOp.ids])) (hbelow id) rfl
  | openRead id =>
    have hfiles : ((Call.inDirectory root (.perform (.openRead id))).run t).2 =
        (t.perform (.read (path root id))).2 :=
      files_of_ask fun x => by cases x <;> exact ⟨_, rfl⟩
    rw [hfiles]
    exact .refl parts t
  | rename source target =>
    have hfiles : ((Call.inDirectory root (.perform (.rename source target))).run t).2 =
        (t.perform (.rename (path root source) (path root target))).2 :=
      files_of_ask fun x => by cases x <;> exact ⟨_, rfl⟩
    rw [hfiles]
    exact .of_rename (hpath source (by simp [StorageOp.ids]))
      (hpath target (by simp [StorageOp.ids])) (hbelow source) (hbelow target) rfl
  | delete id =>
    have hfiles : ((Call.inDirectory root (.perform (.delete id))).run t).2 =
        (t.perform (.remove (path root id))).2 :=
      files_of_ask fun x => by cases x <;> exact ⟨_, rfl⟩
    rw [hfiles]
    exact .of_change (hpath id (by simp [StorageOp.ids])) (hbelow id) rfl

/-- A directory that is opened is made if need be, and no file is lost. -/
theorem keeps_open : t.KeepsElsewhere parts ((Call.inDirectory root .reopen).run t).2 := by
  have hexists : t.perform (.exists root) = (t.exists root, t) := rfl
  rcases hfound : t.exists root with e | (_ | _) <;> rw [hfound] at hexists
  · have hrun : (Call.inDirectory root .reopen).run t = (.error (.files e), t) := run_ask hexists _
    rw [hrun]
    exact .refl parts t
  · have hfiles : ((Call.inDirectory root .reopen).run t).2 =
        (t.perform (.makeDirectories root)).2 := by
      refine (congrArg Prod.snd (run_ask hexists _)).trans ?_
      exact files_of_ask fun x => by cases x <;> exact ⟨_, rfl⟩
    rw [hfiles]
    exact .of_makeDirectories rfl
  · have hrun : (Call.inDirectory root .reopen).run t = (.ok (), t) := run_ask hexists _
    rw [hrun]
    exact .refl parts t

end Elsewhere

/-- The calls as operations of programs. -/
abbrev callInterface : Interface := ⟨Call, Call.Answer⟩

/-- Calls that are made whatever the answers are. -/
def inTurn : List Call → Program callInterface Unit
  | [] => .done ()
  | c :: rest => .perform c fun _ => inTurn rest

theorem only_inTurn {P : Call → Prop} {calls : List Call} (h : ∀ c ∈ calls, P c) :
    (inTurn calls).Only P := by
  induction calls with
  | nil => exact .done ()
  | cons c rest ih =>
    exact .perform (h c List.mem_cons_self) fun _ => ih fun c hc => h c (List.mem_cons_of_mem _ hc)

/-- From an empty directory and an empty memory on, whoever asks for objects with
ids that fit in a name, each call chosen with the earlier answers in view, gets
the same answers from both. -/
theorem answers_as_in_memory {root : String} {parts : List String} {t : FileTree}
    (hroot : Leads root parts)
    (hempty : t.HasDirectory parts []) {α : Type} {client : Program callInterface α}
    (hids : client.Only fun c => ∀ id ∈ Call.ids c, Fits id) :
    Program.performed (Call.inDirectory root) client t =
      Program.performed Call.inMemory client {} := by
  apply Program.performed_eq_of_related (Holds parts) _ hids
  · exact ⟨[], hempty, fun _ _ => rfl⟩
  · intro c t m hc h
    exact run_call hroot h hc

/-- An object that is moved in the place of itself and of another and read, with
the storage opened again in between. -/
def moving : List Call :=
  [.perform (.create (bytes [0])), .perform (.write (bytes [0]) (bytes [7])), .reopen,
    .perform (.rename (bytes [0]) (bytes [0])), .perform (.create (bytes [1, 255])),
    .perform (.rename (bytes [0]) (bytes [1, 255])), .perform (.openRead (bytes [1, 255])),
    .perform (.delete (bytes [0])), .perform (.write (bytes [0]) (bytes [8]))]

theorem moving_answers_as_in_memory :
    Leads "objects" ["objects"] ∧
      (FileTree.directory [("objects", .directory [])]).HasDirectory ["objects"] [] ∧
      (∀ c ∈ moving, ∀ id ∈ c.ids, Fits id) ∧
      Program.performed (Call.inDirectory "objects") (inTurn moving)
        (.directory [("objects", .directory [])]) =
        Program.performed Call.inMemory (inTurn moving) {} := by
  have hname : Plain "objects" := ⟨by decide, by simp, by decide⟩
  have hroot : Leads "objects" ["objects"] := .inr ⟨false, hname.ofString⟩
  have hempty : (FileTree.directory [("objects", .directory [])]).HasDirectory ["objects"] [] :=
    FileTree.find_cons_of_child hname.limit rfl []
  have hids : ∀ c ∈ moving, ∀ id ∈ c.ids, Fits id := by
    unfold Fits
    decide
  exact ⟨hroot, hempty, hids, answers_as_in_memory hroot hempty (only_inTurn hids)⟩

end Directory
end SealedLua
