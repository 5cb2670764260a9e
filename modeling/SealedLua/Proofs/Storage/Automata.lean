import SealedLua.Proofs.Number.Reading
import SealedLua.Proofs.Pool
import SealedLua.Proofs.Storage.Records

/-!
# Calls of the store as automata

A call of the store takes a few operations, one after the other, whose answers
are all that it goes by.  How far it has come is its `Status`, and the status
says what is left to do.  A save works on an object whose id begins with the
serial number that it has drawn; objects of different numbers have different
ids, though names may hold digits and colons themselves.
-/

namespace SealedLua

namespace Scripts

/-- A call whose name was checked. -/
inductive Job where
  | refused (reply : Reply)
  | saving (text : String) (body : ByteArray)
  | loading (text : String)

def Call.job (limit : Nat) : Call → Job
  | .save name body =>
    match checkName limit name with
    | .error e => .refused (.saved (.error e))
    | .ok text => .saving text body
  | .load name =>
    match checkName limit name with
    | .error e => .refused (.loaded (.error e))
    | .ok text => .loading text

theorem Call.eq_of_saving {limit : Nat} {call : Call} {text : String} {body : ByteArray}
    (hjob : call.job limit = .saving text body) :
    call = .save text.toUTF8 body ∧ checkName limit text.toUTF8 = .ok text := by
  cases call with
  | load name =>
    simp only [Call.job] at hjob
    split at hjob <;> cases hjob
  | save name other =>
    simp only [Call.job] at hjob
    split at hjob
    · cases hjob
    · next hname =>
      cases hjob
      rw [checkName_eq_ok hname]
      exact ⟨rfl, hname⟩

theorem Call.eq_of_loading {limit : Nat} {call : Call} {text : String}
    (hjob : call.job limit = .loading text) :
    ∃ name, call = .load name ∧ checkName limit name = .ok text := by
  cases call with
  | save name body =>
    simp only [Call.job] at hjob
    split at hjob <;> cases hjob
  | load name =>
    simp only [Call.job] at hjob
    split at hjob
    · cases hjob
    · next hname =>
      cases hjob
      exact ⟨name, rfl, hname⟩

/-- What a load makes of a record. -/
def found (text : String) : Option ByteArray → Except StoreError Record
  | none => .error (.notFound text)
  | some body => .ok ⟨text, body⟩

/-- How far a call has come. -/
inductive Status where
  | waiting
  | drawn (serial : UInt64)
  | created (serial : UInt64)
  | written (serial : UInt64)
  | ended (reply : Reply)

namespace Status

def serial? : Status → Option UInt64
  | .drawn serial | .created serial | .written serial => some serial
  | .waiting | .ended _ => none

/-- What a save of a body has put into its object so far. -/
def holds (body : ByteArray) : Status → Option (UInt64 × ByteArray)
  | .created serial => some (serial, bytes [])
  | .written serial => some (serial, body)
  | .waiting | .drawn _ | .ended _ => none

theorem serial?_of_holds {body data : ByteArray} {serial : UInt64} {status : Status}
    (h : status.holds body = some (serial, data)) : status.serial? = some serial := by
  cases status <;> cases h <;> rfl

end Status

section Steps

variable (staging record : ObjectId)

def dropObject (e : StoreError) : Platform Reply :=
  (Platform.storage (.delete staging)).bind fun _ => .done (.saved (.error e))

def next (rest : Platform Reply) : Except StoreError Unit → Platform Reply
  | .ok _ => rest
  | .error e => dropObject staging e

def moveObject : Platform Reply :=
  (Platform.storage (.rename staging record)).bind (next staging (.done (.saved (.ok ()))))

def fillObject (body : ByteArray) : Platform Reply :=
  (Platform.storage (.write staging body)).bind (next staging (moveObject staging record))

def makeObject (body : ByteArray) : Platform Reply :=
  (Platform.storage (.create staging)).bind (next staging (fillObject staging record body))

end Steps

def Job.left : Job → Status → Platform Reply
  | _, .ended reply => .done reply
  | .refused reply, _ => .done reply
  | .loading text, _ =>
    (Platform.storage (.openRead (recordId text))).bind fun x =>
      .done (.loaded (Except.bind x (found text)))
  | .saving text body, .waiting =>
    Platform.drawSerial.bind fun serial => makeObject (stagingId serial text) (recordId text) body
  | .saving text body, .drawn serial => makeObject (stagingId serial text) (recordId text) body
  | .saving text body, .created serial => fillObject (stagingId serial text) (recordId text) body
  | .saving text _, .written serial => moveObject (stagingId serial text) (recordId text)

theorem Call.job_left (limit : Nat) (call : Call) :
    (call.job limit).left .waiting = call.program limit := by
  cases call with
  | save name body =>
    cases hname : checkName limit name with
    | error e =>
      simp only [Call.job, Call.program, Scripts.save, hname]
      rfl
    | ok text =>
      simp only [Call.job, Call.program, Scripts.save, hname]
      refine congrArg Platform.drawSerial.bind (funext fun serial => ?_)
      refine congrArg (Platform.storage (.create _)).bind (funext fun created => ?_)
      cases created with
      | error e => rfl
      | ok created =>
        refine congrArg (Platform.storage (.write _ body)).bind (funext fun written => ?_)
        cases written with
        | error e => rfl
        | ok written =>
          refine congrArg (Platform.storage (.rename _ _)).bind (funext fun renamed => ?_)
          cases renamed <;> rfl
  | load name =>
    cases hname : checkName limit name with
    | error e =>
      simp only [Call.job, Call.program, Scripts.load, hname]
      rfl
    | ok text =>
      simp only [Call.job, Call.program, Scripts.load, hname]
      refine congrArg (Platform.storage (.openRead _)).bind (funext fun x => ?_)
      cases x with
      | error e => rfl
      | ok object => cases object <;> rfl

theorem within_next {staging : ObjectId} {rest : Platform Reply} {count : Nat}
    (h : Pool.Within (count + 1) rest)
    (x : Except StoreError Unit) : Pool.Within (count + 1) (next staging rest x) := by
  cases x with
  | ok a => exact h
  | error e => exact .perform fun _ => .done _ _

theorem Call.within (limit : Nat) (call : Call) : Pool.Within 5 (call.program limit) := by
  rw [← call.job_left limit]
  cases call.job limit with
  | refused reply => exact .done _ _
  | loading text => exact .perform fun x => .done _ _
  | saving text body =>
    have hmove : ∀ staging record, Pool.Within 2 (moveObject staging record) :=
      fun staging record => .perform (within_next (.done _ _))
    have hfill : ∀ staging record, Pool.Within 3 (fillObject staging record body) :=
      fun staging record => .perform (within_next (hmove staging record))
    have hmake : ∀ staging record, Pool.Within 4 (makeObject staging record body) :=
      fun staging record => .perform (within_next (hfill staging record))
    exact .perform fun serial => hmake _ _

/-- Objects of different serial numbers have different ids, whatever the names. -/
theorem serial_of_stagingId_eq {a b : UInt64} {text other : String}
    (h : stagingId a text = stagingId b other) : a = b := by
  have hcodes := congrArg codes h
  simp only [stagingId, codes_append, codes_bytes, List.append_assoc,
    List.append_cancel_left_eq] at hcodes
  -- The numeral ends at the first colon, wherever the name has others.
  have hnumeral : ∀ (n : Nat) (rest : List UInt8),
      (Ascii.numeral 10 n ++ (ascii ":" ++ rest)).takeWhile Ascii.isDigit =
      Ascii.numeral 10 n := by
    intro n rest
    refine (takeWhile_append_of_stop (fun c hc => Ascii.isDigit_of_mem_numeral hc) ?_).1
    intro c hc
    cases hc
    rfl
  have hsame := congrArg (List.takeWhile Ascii.isDigit) hcodes
  rw [hnumeral, hnumeral] at hsame
  exact UInt64.toNat_inj.1 (Ascii.numeral_injective hsame)

end Scripts
end SealedLua
