import Mathlib.Data.List.Nodup
import SealedLua.Proofs.Storage.Automata

/-!
# Saves that may share their scratch object

Saves of one name whose serial numbers are not drawn from one counter may work
on the same object: the one empties what the other has written, writes behind
it, or moves it away.  A `Desk` is what there is to say of such saves: how far
each has come and which objects there are.  From it one reads which bodies may
come to be one after the other in the record, and when a save has its object for
itself.
-/

namespace SealedLua

open Function (update)

namespace Scripts

/-- A save of a process: the serial number that the process draws next, and the body. -/
structure Save where
  serial : UInt64
  body : ByteArray

/-- How far a save has come when others may touch its object. -/
inductive Stage where
  | waiting
  | drawn
  | created
  | written
  | failed (e : StoreError)
  | ended (outcome : Except StoreError Unit)

namespace Stage

/-- The object of the save is made, and not moved or given up. -/
inductive AtWork : Stage → Prop where
  | created : AtWork .created
  | written : AtWork .written

def holds (body : ByteArray) : Stage → Option ByteArray
  | .created => some (bytes [])
  | .written => some body
  | .waiting | .drawn | .failed _ | .ended _ => none

theorem atWork_of_holds {stage : Stage} {body data : ByteArray} (h : stage.holds body = some data) :
    stage.AtWork := by
  cases stage with
  | created => exact .created
  | written => exact .written
  | waiting | drawn | failed | ended => cases h

/-- The save has no write before it. -/
inductive Past : Stage → Prop where
  | written : Past .written
  | failed (e : StoreError) : Past (.failed e)
  | ended (outcome : Except StoreError Unit) : Past (.ended outcome)

end Stage

abbrev Objects : Type := ObjectId → Option ByteArray

namespace Save

variable (text : String) (s : Save)

def scratch : ObjectId := stagingId s.serial text

def left : Stage → Platform Reply
  | .waiting => Platform.drawSerial.bind fun serial =>
    makeObject (stagingId serial text) (recordId text) s.body
  | .drawn => makeObject (s.scratch text) (recordId text) s.body
  | .created => fillObject (s.scratch text) (recordId text) s.body
  | .written => moveObject (s.scratch text) (recordId text)
  | .failed e => dropObject (s.scratch text) e
  | .ended outcome => .done (.saved outcome)

/-- What an operation of a save makes of its stage and of the objects. -/
def step (objects : Objects) : Stage → Stage × Objects
  | .waiting => (.drawn, objects)
  | .drawn => (.created, update objects (s.scratch text) (some (bytes [])))
  | .created =>
    match objects (s.scratch text) with
    | some old => (.written, update objects (s.scratch text) (some (old ++ s.body)))
    | none => (.failed (.missing (s.scratch text)), objects)
  | .written =>
    match objects (s.scratch text) with
    | some data =>
      (.ended (.ok ()), update (update objects (s.scratch text) none) (recordId text) (some data))
    | none => (.failed (.missing (s.scratch text)), objects)
  | .failed e => (.ended (.error e), update objects (s.scratch text) none)
  | .ended outcome => (.ended outcome, objects)

theorem scratch_ne_recordId : s.scratch text ≠ recordId text := stagingId_ne_recordId _ _ _

theorem scratch_ne {other : Save} (h : s.serial ≠ other.serial) :
    s.scratch text ≠ other.scratch text :=
  fun heq => h (serial_of_stagingId_eq heq)

theorem scratch_congr {other : Save} (h : s.serial = other.serial) :
    s.scratch text = other.scratch text := by
  rw [scratch, scratch, h]

theorem step_waiting (objects : Objects) : s.step text objects .waiting = (.drawn, objects) := rfl

theorem step_drawn (objects : Objects) :
    s.step text objects .drawn = (.created, update objects (s.scratch text) (some (bytes []))) :=
  rfl

theorem step_failed (objects : Objects) (e : StoreError) :
    s.step text objects (.failed e) = (.ended (.error e), update objects (s.scratch text) none) :=
  rfl

theorem step_ended (objects : Objects) (outcome : Except StoreError Unit) :
    s.step text objects (.ended outcome) = (.ended outcome, objects) := rfl

theorem step_created {objects : Objects} {old : ByteArray}
    (h : objects (s.scratch text) = some old) :
    s.step text objects .created =
      (.written, update objects (s.scratch text) (some (old ++ s.body))) := by
  simp only [step, h]

theorem step_created_missing {objects : Objects} (h : objects (s.scratch text) = none) :
    s.step text objects .created = (.failed (.missing (s.scratch text)), objects) := by
  simp only [step, h]

theorem step_written {objects : Objects} {data : ByteArray}
    (h : objects (s.scratch text) = some data) :
    s.step text objects .written =
      (.ended (.ok ()), update (update objects (s.scratch text) none)
        (recordId text) (some data)) := by
  simp only [step, h]

theorem step_written_missing {objects : Objects} (h : objects (s.scratch text) = none) :
    s.step text objects .written = (.failed (.missing (s.scratch text)), objects) := by
  simp only [step, h]

end Save

/-- An object that is there when another has been taken away was there before. -/
theorem found_before_removal {objects : Objects} {gone id : ObjectId} {data : ByteArray}
    (h : update objects gone none id = some data) : objects id = some data := by
  by_cases heq : id = gone
  · rw [heq, Function.update_self] at h
    cases h
  · rwa [Function.update_of_ne heq] at h

/-- Saves of one name and what they work on. -/
structure Desk where
  stage : Nat → Stage
  objects : Objects

namespace Desk

def put (d : Desk) (i : Nat) (stage : Stage) (objects : Objects) : Desk :=
  ⟨update d.stage i stage, objects⟩

@[simp] theorem stage_put_self (d : Desk) (i : Nat) (stage : Stage) (objects : Objects) :
    (d.put i stage objects).stage i = stage := by
  simp [put]

theorem stage_put_of_ne (d : Desk) {i j : Nat} (h : j ≠ i) (stage : Stage) (objects : Objects) :
    (d.put i stage objects).stage j = d.stage j := by
  simp [put, h]

@[simp] theorem objects_put (d : Desk) (i : Nat) (stage : Stage) (objects : Objects) :
    (d.put i stage objects).objects = objects := rfl

theorem put_self (d : Desk) (i : Nat) : d.put i (d.stage i) d.objects = d := by
  simp [put]

section Turns

variable (text : String) (saves : List Save)

def turn (d : Desk) (i : Nat) : Desk :=
  match saves[i]? with
  | none => d
  | some s => d.put i (s.step text d.objects (d.stage i)).1 (s.step text d.objects (d.stage i)).2

def after (d : Desk) (schedule : List Nat) : Desk := schedule.foldl (turn text saves) d

def begin (objects : Objects) : Desk := ⟨fun _ => .waiting, objects⟩

end Turns

variable {text : String} {saves : List Save} {d : Desk} {i : Nat} {s : Save}

theorem turn_of_none (h : saves[i]? = none) : d.turn text saves i = d := by
  simp only [turn, h]

theorem turn_of_some (h : saves[i]? = some s) :
    d.turn text saves i = d.put i (s.step text d.objects (d.stage i)).1
      (s.step text d.objects (d.stage i)).2 := by
  simp only [turn, h]

theorem turn_of_step {before stage : Stage} {objects : Objects} (h : saves[i]? = some s)
    (hstage : d.stage i = before) (hstep : s.step text d.objects before = (stage, objects)) :
    d.turn text saves i = d.put i stage objects := by
  rw [turn_of_some h, hstage, hstep]

section Together

variable (saves : List Save)

def together (writers : List Nat) : ByteArray :=
  (writers.filterMap (saves[·]?)).foldl (fun data s => data ++ s.body) (bytes [])

def Draws (serial : UInt64) (i : Nat) : Prop := ∃ s, saves[i]? = some s ∧ s.serial = serial

/-- Different saves that draw one serial number. -/
structure Meet (serial : UInt64) (writers : List Nat) : Prop where
  different : writers.Nodup
  same : ∀ i ∈ writers, Draws saves serial i

/-- Writers whose bodies one save may put in the place of the record.  There may be
none if another save has emptied the object. -/
def Mergeable (writers : List Nat) : Prop :=
  ∃ serial, Meet saves serial writers ∧
    (writers = [] → ∃ i j, i ≠ j ∧ Draws saves serial i ∧ Draws saves serial j)

end Together

theorem together_nil : together saves [] = bytes [] := rfl

theorem together_concat (h : saves[i]? = some s) (writers : List Nat) :
    together saves (writers ++ [i]) = together saves writers ++ s.body := by
  simp [together, List.filterMap_append, h]

theorem Meet.concat {serial : UInt64} {writers : List Nat} (h : Meet saves serial writers)
    (hnew : i ∉ writers) (hi : Draws saves serial i) : Meet saves serial (writers ++ [i]) where
  different := by
    rw [← List.concat_eq_append]
    exact h.different.concat hnew
  same j hj := by
    rcases List.mem_append.1 hj with hj | hj
    · exact h.same j hj
    · rw [List.mem_singleton.1 hj]
      exact hi

/-- What is in the object that a save works on, and in the record. -/
structure Blended (text : String) (saves : List Save) (previous : Option ByteArray)
    (d : Desk) : Prop where
  scratch : ∀ (i : Nat) (s : Save) (data : ByteArray), saves[i]? = some s → (d.stage i).AtWork →
    d.objects (s.scratch text) = some data → ∃ writers, Meet saves s.serial writers ∧
      (∀ j ∈ writers, (d.stage j).Past) ∧ data = together saves writers ∧
      (d.stage i = .written → i ∉ writers → ∃ j ≠ i, Draws saves s.serial j)
  record : d.objects (recordId text) = previous ∨
    ∃ writers, Mergeable saves writers ∧ d.objects (recordId text) = some (together saves writers)

namespace Blended

variable {previous : Option ByteArray}

theorem begin (objects : Objects) :
    Blended text saves (objects (recordId text)) (begin objects) where
  scratch := nofun
  record := .inl rfl

theorem past_put {stage : Stage} (hpast : (d.stage i).Past → stage.Past)
    (objects : Objects) {j : Nat}
    (h : (d.stage j).Past) : ((d.put i stage objects).stage j).Past := by
  by_cases hji : j = i
  · subst hji
    rw [stage_put_self]
    exact hpast h
  · rw [d.stage_put_of_ne hji]
    exact h

/-- A turn after which the save is not at work on its object, and which leaves
other objects as they are or takes them away. -/
theorem keep (h : Blended text saves previous d) {stage : Stage}
    {objects : Objects} (hidle : ¬stage.AtWork) (hpast : (d.stage i).Past → stage.Past)
    (hscratch : ∀ (s : Save) (data : ByteArray), objects (s.scratch text) = some data →
      d.objects (s.scratch text) = some data)
    (hrecord : objects (recordId text) = d.objects (recordId text) ∨
      ∃ writers, Mergeable saves writers ∧ objects (recordId text) =
        some (together saves writers)) :
    Blended text saves previous (d.put i stage objects) where
  scratch k other data hother hwork hdata := by
    have hki : k ≠ i := by
      rintro rfl
      rw [stage_put_self] at hwork
      exact hidle hwork
    rw [d.stage_put_of_ne hki] at hwork ⊢
    obtain ⟨writers, hmeet, hwritten, hsame, hothers⟩ :=
      h.scratch k other data hother hwork (hscratch other data hdata)
    exact ⟨writers, hmeet, fun j hj => past_put hpast objects (hwritten j hj), hsame, hothers⟩
  record := by
    rw [objects_put]
    rcases hrecord with hsame | hmerged
    · rw [hsame]
      exact h.record
    · exact .inr hmerged

theorem work (h : Blended text saves previous d) (hsave : saves[i]? = some s) {stage : Stage}
    (hpast : (d.stage i).Past → stage.Past) {data : ByteArray} {writers : List Nat}
    (hmeet : Meet saves s.serial writers)
    (hwritten : ∀ j ∈ writers, ((d.put i stage d.objects).stage j).Past)
    (hdata : data = together saves writers) (hempty : stage = .written → i ∈ writers) :
    Blended text saves previous
      (d.put i stage (update d.objects (s.scratch text) (some data))) where
  scratch k other found hother hwork hfound := by
    rw [objects_put] at hfound
    by_cases hserial : other.serial = s.serial
    · rw [other.scratch_congr text hserial, Function.update_self] at hfound
      obtain rfl : data = found := Option.some.inj hfound
      refine ⟨writers, hserial ▸ hmeet, hwritten, hdata, ?_⟩
      intro hstage hnot
      refine ⟨i, ?_, s, hsave, hserial.symm⟩
      rintro rfl
      rw [stage_put_self] at hstage
      exact hnot (hempty hstage)
    · rw [Function.update_of_ne (other.scratch_ne text hserial)] at hfound
      have hki : k ≠ i := by
        rintro rfl
        rw [hsave] at hother
        cases hother
        exact hserial rfl
      rw [d.stage_put_of_ne hki] at hwork ⊢
      obtain ⟨others, hmeet', hwritten', hsame, hothers⟩ :=
        h.scratch k other found hother hwork hfound
      exact ⟨others, hmeet', fun j hj => past_put hpast _ (hwritten' j hj), hsame, hothers⟩
  record := by
    rw [objects_put, Function.update_of_ne (s.scratch_ne_recordId text).symm]
    exact h.record

theorem turn (h : Blended text saves previous d) (i : Nat) :
    Blended text saves previous (d.turn text saves i) := by
  cases hsave : saves[i]? with
  | none =>
    rw [turn_of_none hsave]
    exact h
  | some s =>
    have hscratch : ∀ other : Save, recordId text ≠ other.scratch text := fun other =>
      (other.scratch_ne_recordId text).symm
    cases hstage : d.stage i with
    | waiting =>
      rw [turn_of_step hsave hstage (s.step_waiting text _)]
      apply h.keep
      · exact nofun
      · rw [hstage]
        exact nofun
      · exact fun _ _ hdata => hdata
      · exact .inl rfl
    | drawn =>
      rw [turn_of_step hsave hstage (s.step_drawn text _)]
      have hpast : (d.stage i).Past → Stage.created.Past := by
        rw [hstage]
        exact nofun
      exact h.work hsave hpast ⟨List.nodup_nil, nofun⟩ nofun together_nil.symm nofun
    | created =>
      cases hfound : d.objects (s.scratch text) with
      | none =>
        rw [turn_of_step hsave hstage (s.step_created_missing text hfound)]
        apply h.keep
        · exact nofun
        · exact fun _ => .failed _
        · exact fun _ _ hdata => hdata
        · exact .inl rfl
      | some old =>
        -- a write adds to what is there, so the object then holds what all of its writers wrote,
        -- this one last
        obtain ⟨writers, hmeet, hwritten, rfl, -⟩ :=
          h.scratch i s old hsave (hstage ▸ .created) hfound
        have hnew : i ∉ writers := fun hi => nomatch hstage ▸ hwritten i hi
        rw [turn_of_step hsave hstage (s.step_created text hfound)]
        apply h.work hsave (fun _ => .written)
          (hmeet.concat hnew ⟨s, hsave, rfl⟩) _ (together_concat hsave writers).symm
        · exact fun _ => List.mem_append_right _ List.mem_cons_self
        · intro j hj
          rcases List.mem_append.1 hj with hj | hj
          · exact past_put (fun _ => .written) _ (hwritten j hj)
          · rw [List.mem_singleton.1 hj, stage_put_self]
            exact .written
    | written =>
      cases hfound : d.objects (s.scratch text) with
      | none =>
        rw [turn_of_step hsave hstage (s.step_written_missing text hfound)]
        apply h.keep
        · exact nofun
        · exact fun _ => .failed _
        · exact fun _ _ hdata => hdata
        · exact .inl rfl
      | some data =>
        -- an object without writers was emptied after this write, by another save that draws the
        -- serial number
        obtain ⟨writers, hmeet, -, rfl, hothers⟩ :=
          h.scratch i s data hsave (hstage ▸ .written) hfound
        rw [turn_of_step hsave hstage (s.step_written text hfound)]
        apply h.keep
        · exact nofun
        · exact fun _ => .ended _
        · intro other data hdata
          rw [Function.update_of_ne (hscratch other).symm] at hdata
          exact found_before_removal hdata
        · refine .inr ⟨writers, ⟨s.serial, hmeet, ?_⟩, Function.update_self _ _ _⟩
          rintro rfl
          obtain ⟨j, hji, hj⟩ := hothers hstage List.not_mem_nil
          exact ⟨j, i, hji, hj, s, hsave, rfl⟩
    | failed e =>
      rw [turn_of_step hsave hstage (s.step_failed text _ e)]
      apply h.keep
      · exact nofun
      · exact fun _ => .ended _
      · exact fun _ _ hdata => found_before_removal hdata
      · rw [Function.update_of_ne (hscratch s)]
        exact .inl rfl
    | ended outcome =>
      rw [turn_of_step hsave hstage (s.step_ended text _ outcome)]
      apply h.keep
      · exact nofun
      · exact fun _ => .ended _
      · exact fun _ _ hdata => hdata
      · exact .inl rfl

end Blended

def Apart (saves : List Save) (d : Desk) : Prop :=
  ∀ (serial : UInt64) (i j : Nat), i ≠ j → Draws saves serial i → Draws saves serial j →
    ¬((d.stage i).AtWork ∧ (d.stage j).AtWork)

theorem Apart.serial_ne (h : Apart saves d) (hsave : saves[i]? = some s)
    (hwork : (d.stage i).AtWork) {k : Nat}
    {other : Save} (hki : k ≠ i) (hother : saves[k]? = some other) (hwork' : (d.stage k).AtWork) :
    other.serial ≠ s.serial :=
  fun heq => h s.serial k i hki ⟨other, hother, heq⟩ ⟨s, hsave, rfl⟩ ⟨hwork', hwork⟩

/-- Every save finds in its object what it has put there, and the record is that
of a save that has returned. -/
structure Whole (text : String) (saves : List Save) (previous : Option ByteArray)
    (d : Desk) : Prop where
  scratch : ∀ (i : Nat) (s : Save) (data : ByteArray), saves[i]? = some s →
    (d.stage i).holds s.body = some data →
    d.objects (s.scratch text) = some data
  succeeds : ∀ (i : Nat) (e : StoreError), d.stage i ≠ .failed e ∧ d.stage i ≠ .ended (.error e)
  record : ((∀ i, d.stage i ≠ .ended (.ok ())) ∧ d.objects (recordId text) = previous) ∨
    ∃ (i : Nat) (s : Save), saves[i]? = some s ∧ d.stage i = .ended (.ok ()) ∧
      d.objects (recordId text) = some s.body

namespace Whole

variable {previous : Option ByteArray}

theorem begin (objects : Objects) : Whole text saves (objects (recordId text)) (begin objects) where
  scratch := nofun
  succeeds _ _ := ⟨nofun, nofun⟩
  record := .inl ⟨nofun, rfl⟩

theorem put (h : Whole text saves previous d) (hsave : saves[i]? = some s)
    {stage : Stage} {objects : Objects}
    (hown : ∀ data, stage.holds s.body = some data → objects (s.scratch text) = some data)
    (hothers : ∀ (k : Nat) (other : Save), k ≠ i → saves[k]? = some other → (d.stage k).AtWork →
      objects (other.scratch text) = d.objects (other.scratch text))
    (hsucceeds : ∀ e, stage ≠ .failed e ∧ stage ≠ .ended (.error e))
    (hrecord : (stage = .ended (.ok ()) ∧ objects (recordId text) = some s.body) ∨
      (stage ≠ .ended (.ok ()) ∧ d.stage i ≠ .ended (.ok ()) ∧ objects (recordId text) =
        d.objects (recordId text))) :
    Whole text saves previous (d.put i stage objects) where
  scratch k other data hother hholds := by
    by_cases hki : k = i
    · subst hki
      rw [hsave] at hother
      cases hother
      rw [stage_put_self] at hholds
      exact hown data hholds
    · rw [d.stage_put_of_ne hki] at hholds
      rw [objects_put, hothers k other hki hother (Stage.atWork_of_holds hholds)]
      exact h.scratch k other data hother hholds
  succeeds k e := by
    by_cases hki : k = i
    · subst hki
      rw [stage_put_self]
      exact hsucceeds e
    · rw [d.stage_put_of_ne hki]
      exact h.succeeds k e
  record := by
    rcases hrecord with ⟨hended, hbody⟩ | ⟨hafter, hbefore, hsame⟩
    · refine .inr ⟨i, s, hsave, ?_, hbody⟩
      rw [stage_put_self]
      exact hended
    · rw [objects_put, hsame]
      rcases h.record with ⟨hnone, hprevious⟩ | ⟨k, other, hother, hended, hbody⟩
      · refine .inl ⟨?_, hprevious⟩
        intro k
        by_cases hki : k = i
        · subst hki
          rw [stage_put_self]
          exact hafter
        · rw [d.stage_put_of_ne hki]
          exact hnone k
      · have hki : k ≠ i := by
          rintro rfl
          exact hbefore hended
        refine .inr ⟨k, other, hother, ?_, hbody⟩
        rw [d.stage_put_of_ne hki]
        exact hended

/-- A turn before and after which no two saves are at work on one object keeps every body whole. -/
theorem turn (h : Whole text saves previous d) (i : Nat) (hbefore : Apart saves d)
    (hafter : Apart saves (d.turn text saves i)) :
    Whole text saves previous (d.turn text saves i) := by
  cases hsave : saves[i]? with
  | none =>
    rw [turn_of_none hsave]
    exact h
  | some s =>
    have hrecord : recordId text ≠ s.scratch text := (s.scratch_ne_recordId text).symm
    cases hstage : d.stage i with
    | waiting =>
      rw [turn_of_step hsave hstage (s.step_waiting text _)]
      apply h.put hsave
      · exact nofun
      · exact fun _ _ _ _ _ => rfl
      · exact fun _ => ⟨nofun, nofun⟩
      · exact .inr ⟨nofun, hstage ▸ nofun, rfl⟩
    | drawn =>
      rw [turn_of_step hsave hstage (s.step_drawn text _)] at hafter ⊢
      apply h.put hsave
      · rintro data ⟨⟩
        exact Function.update_self _ _ _
      · intro k other hki hother hwork
        have hne : other.serial ≠ s.serial := by
          apply hafter.serial_ne hsave _ hki hother
          · rw [d.stage_put_of_ne hki]
            exact hwork
          · rw [stage_put_self]
            exact .created
        exact Function.update_of_ne (other.scratch_ne text hne) _ _
      · exact fun _ => ⟨nofun, nofun⟩
      · exact .inr ⟨nofun, hstage ▸ nofun, Function.update_of_ne hrecord _ _⟩
    | created =>
      have hempty : d.objects (s.scratch text) = some (bytes []) :=
        h.scratch i s _ hsave (by rw [hstage]; rfl)
      rw [turn_of_step hsave hstage (s.step_created text hempty)]
      apply h.put hsave
      · rintro data ⟨⟩
        rw [Function.update_self, bytes_nil_append]
      · intro k other hki hother hwork
        have hne : other.serial ≠ s.serial :=
          hbefore.serial_ne hsave (hstage ▸ .created) hki hother hwork
        exact Function.update_of_ne (other.scratch_ne text hne) _ _
      · exact fun _ => ⟨nofun, nofun⟩
      · exact .inr ⟨nofun, hstage ▸ nofun, Function.update_of_ne hrecord _ _⟩
    | written =>
      have hwhole : d.objects (s.scratch text) = some s.body :=
        h.scratch i s _ hsave (by rw [hstage]; rfl)
      rw [turn_of_step hsave hstage (s.step_written text hwhole)]
      apply h.put hsave
      · exact nofun
      · intro k other hki hother hwork
        have hne : other.serial ≠ s.serial :=
          hbefore.serial_ne hsave (hstage ▸ .written) hki hother hwork
        rw [Function.update_of_ne (other.scratch_ne_recordId text),
          Function.update_of_ne (other.scratch_ne text hne)]
      · exact fun _ => ⟨nofun, nofun⟩
      · exact .inl ⟨rfl, Function.update_self _ _ _⟩
    | failed e => exact absurd hstage (h.succeeds i e).1
    | ended outcome =>
      rw [turn_of_step hsave hstage (s.step_ended text _ outcome), ← hstage, put_self]
      exact h

end Whole

theorem after_cons (d : Desk) (i : Nat) (schedule : List Nat) :
    d.after text saves (i :: schedule) = (d.turn text saves i).after text saves schedule := rfl

theorem after_append (d : Desk) (first second : List Nat) :
    d.after text saves (first ++ second) = (d.after text saves first).after text saves second := by
  simp [after, List.foldl_append]

/-- What a step from one stage to another does to an object, when the object is fit for it. -/
def Leads (text : String) (staging : ObjectId) (before stage : Stage)
    (fit : Option ByteArray → Prop)
    (change : Option ByteArray → Save → Option ByteArray) (s : Save) : Prop :=
  ∀ objects : Objects, fit (objects staging) → ∃ objects',
    s.step text objects before = (stage, objects') ∧
    objects' staging = change (objects staging) s ∧ fit (change (objects staging) s)

/-- When different saves take the same step, each comes from the one stage to the
other, and the object is changed by each in turn. -/
theorem after_phase {staging : ObjectId} {before stage : Stage} {fit : Option ByteArray → Prop}
    {change : Option ByteArray → Save → Option ByteArray} {writers : List Nat}
    (hdifferent : writers.Nodup)
    (hleads : ∀ j ∈ writers, ∃ s, saves[j]? = some s ∧ Leads text staging before stage fit change s)
    (hbefore : ∀ j ∈ writers, d.stage j = before) (hfit : fit (d.objects staging)) :
    (∀ j ∈ writers, (d.after text saves writers).stage j = stage) ∧
      (∀ j ∉ writers, (d.after text saves writers).stage j = d.stage j) ∧
      (d.after text saves writers).objects staging =
        (writers.filterMap (saves[·]?)).foldl change (d.objects staging) := by
  induction writers generalizing d with
  | nil => exact ⟨nofun, fun _ _ => rfl, rfl⟩
  | cons i rest ih =>
    obtain ⟨hnew, hrest⟩ := List.nodup_cons.1 hdifferent
    obtain ⟨s, hsave, hstep⟩ := hleads i List.mem_cons_self
    obtain ⟨objects', hstep, hobject, hfit'⟩ := hstep d.objects hfit
    have hturn : d.turn text saves i = d.put i stage objects' :=
      turn_of_step hsave (hbefore i List.mem_cons_self) hstep
    have hbefore' : ∀ j ∈ rest, (d.put i stage objects').stage j = before := by
      intro j hj
      rw [d.stage_put_of_ne (ne_of_mem_of_not_mem hj hnew)]
      exact hbefore j (List.mem_cons_of_mem i hj)
    have hleads' : ∀ j ∈ rest, ∃ s, saves[j]? = some s ∧
        Leads text staging before stage fit change s :=
      fun j hj => hleads j (List.mem_cons_of_mem i hj)
    rw [← hobject] at hfit'
    obtain ⟨hin, hout, hobjects⟩ := ih hrest hleads' hbefore' hfit'
    rw [after_cons, hturn]
    refine ⟨?_, ?_, ?_⟩
    · intro j hj
      rcases List.mem_cons.1 hj with rfl | hj
      · rw [hout j hnew, stage_put_self]
      · exact hin j hj
    · intro j hj
      rw [hout j (List.not_mem_of_not_mem_cons hj), d.stage_put_of_ne (List.ne_of_not_mem_cons hj)]
    · rw [hobjects, objects_put, hobject, List.filterMap_cons_some hsave, List.foldl_cons]

section Steps

variable (s)

theorem leads_drawn (staging : ObjectId) :
    Leads text staging .waiting .drawn (fun _ => True) (fun found _ => found) s :=
  fun objects _ => ⟨objects, rfl, rfl, trivial⟩

theorem leads_created :
    Leads text (s.scratch text) .drawn .created (fun _ => True) (fun _ _ => some (bytes [])) s :=
  fun _ _ => ⟨_, rfl, Function.update_self _ _ _, trivial⟩

theorem leads_written :
    Leads text (s.scratch text) .created .written (fun found => ∃ old, found = some old)
      (fun found s => found.map (· ++ s.body)) s := by
  rintro objects ⟨old, hold⟩
  refine ⟨_, s.step_created text hold, ?_, old ++ s.body, ?_⟩
  · rw [Function.update_self, hold]
    rfl
  · rw [hold]
    rfl

end Steps

theorem foldl_created (writers : List Save) (hne : writers ≠ []) (found : Option ByteArray) :
    writers.foldl (fun _ _ => some (bytes [])) found = some (bytes []) := by
  induction writers generalizing found with
  | nil => exact absurd rfl hne
  | cons s rest ih =>
    cases rest with
    | nil => rfl
    | cons next rest => exact ih (List.cons_ne_nil next rest) (some (bytes []))

theorem foldl_written (writers : List Save) (old : ByteArray) :
    writers.foldl (fun found s => found.map (· ++ s.body)) (some old) =
      some (writers.foldl (fun data s => data ++ s.body) old) := by
  induction writers generalizing old with
  | nil => rfl
  | cons s rest ih => exact ih (old ++ s.body)

/-- Saves that draw their numbers, make their object and write to it one after the
other leave all bodies in it, and the first of them puts it in the place of the record. -/
theorem merges_written (objects : Objects) {serial : UInt64} {i : Nat} {rest : List Nat}
    (h : Meet saves serial (i :: rest)) :
    ∃ schedule, ((begin objects).after text saves schedule).objects (recordId text) =
      some (together saves (i :: rest)) := by
  obtain ⟨s, hsave, rfl⟩ := h.same i List.mem_cons_self
  have hleads : ∀ {before stage : Stage} {fit : Option ByteArray → Prop}
      {change : Option ByteArray → Save → Option ByteArray},
      (∀ s : Save, Leads text (s.scratch text) before stage fit change s) →
        ∀ j ∈ i :: rest, ∃ other, saves[j]? = some other ∧
          Leads text (s.scratch text) before stage fit change other := by
    intro before stage fit change hall j hj
    obtain ⟨other, hother, hserial⟩ := h.same j hj
    refine ⟨other, hother, ?_⟩
    rw [← other.scratch_congr text hserial]
    exact hall other
  obtain ⟨hdrawn, -, -⟩ := after_phase (d := begin objects) h.different
    (hleads fun other => leads_drawn other _) (fun _ _ => rfl) trivial
  obtain ⟨hcreated, -, hempty⟩ :=
    after_phase h.different (hleads fun other => leads_created other) hdrawn trivial
  rw [List.filterMap_cons_some hsave, foldl_created _ (List.cons_ne_nil _ _)] at hempty
  obtain ⟨hwritten, -, hfull⟩ :=
    after_phase h.different (hleads fun other => leads_written other) hcreated ⟨_, hempty⟩
  rw [hempty, foldl_written] at hfull
  refine ⟨(i :: rest) ++ (i :: rest) ++ (i :: rest) ++ [i], ?_⟩
  rw [after_append, after_append, after_append]
  have hturn := turn_of_step hsave (hwritten i List.mem_cons_self) (s.step_written text hfull)
  rw [after_cons, hturn]
  exact Function.update_self _ _ _

/-- A save whose object is emptied by another before it moves it leaves an empty record. -/
theorem merges_empty (objects : Objects) {serial : UInt64} {i j : Nat} (hij : i ≠ j)
    (hi : Draws saves serial i) (hj : Draws saves serial j) :
    ∃ schedule, ((begin objects).after text saves schedule).objects (recordId text) =
      some (bytes []) := by
  obtain ⟨s, hsave, hserial⟩ := hi
  obtain ⟨other, hother, rfl⟩ := hj
  have hscratch : s.scratch text = other.scratch text := s.scratch_congr text hserial
  refine ⟨[i, i, i, j, j, i], ?_⟩
  simp [after, turn, hsave, hother, begin, Save.step, put, hij, hij.symm, hscratch]

/-- Two saves of one serial number in step: both bodies are in the object that
the first one moves. -/
theorem after_inStep (objects : Objects) {one two : Save} (h : one.serial = two.serial) :
    ((begin objects).after text [one, two] [0, 1, 0, 1, 0, 1, 0]).objects (recordId text) =
      some (one.body ++ two.body) := by
  have hscratch : one.scratch text = two.scratch text := one.scratch_congr text h
  simp [after, turn, begin, Save.step, put, hscratch, bytes_nil_append]

theorem exists_merge (objects : Objects) {writers : List Nat} (h : Mergeable saves writers) :
    ∃ schedule, ((begin objects).after text saves schedule).objects (recordId text) =
      some (together saves writers) := by
  obtain ⟨serial, hmeet, hempty⟩ := h
  cases writers with
  | nil =>
    obtain ⟨i, j, hij, hi, hj⟩ := hempty rfl
    exact merges_empty objects hij hi hj
  | cons i rest => exact merges_written objects hmeet

theorem blended_after (objects : Objects) (schedule : List Nat) :
    Blended text saves (objects (recordId text)) ((begin objects).after text saves schedule) := by
  induction schedule using List.reverseRecOn with
  | nil => exact .begin objects
  | append_singleton earlier i ih =>
    rw [after_append]
    exact ih.turn i

/-- The bodies that are in the record after some schedule are those that may come together. -/
theorem exists_record_iff (objects : Objects) (found : Option ByteArray) :
    (∃ schedule, ((begin objects).after text saves schedule).objects (recordId text) = found) ↔
      found = objects (recordId text) ∨ ∃ writers, Mergeable saves writers ∧
        found = some (together saves writers) := by
  constructor
  · rintro ⟨schedule, rfl⟩
    exact (blended_after objects schedule).record
  · rintro (rfl | ⟨writers, hmerge, rfl⟩)
    · exact ⟨[], rfl⟩
    · exact exists_merge objects hmerge

/-- While no two saves have been at work on one object, every body is whole. -/
theorem whole_after (objects : Objects) (schedule : List Nat)
    (hapart : ∀ earlier, earlier <+: schedule →
      Apart saves ((begin objects).after text saves earlier)) :
    Whole text saves (objects (recordId text)) ((begin objects).after text saves schedule) := by
  induction schedule using List.reverseRecOn with
  | nil => exact .begin objects
  | append_singleton earlier i ih =>
    have hbefore := hapart earlier (List.prefix_append earlier [i])
    have hafter := hapart _ (List.prefix_refl _)
    rw [after_append] at hafter ⊢
    refine (ih ?_).turn i hbefore hafter
    intro first hfirst
    exact hapart first (hfirst.trans (List.prefix_append earlier [i]))

end Desk
end Scripts
end SealedLua
