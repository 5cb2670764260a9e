import SealedLua.Proofs.Crypto.Opening
import SealedLua.Proofs.Gateway.Requests

/-!
# Payloads that do not open

A sealed script that does not open has no effect: the request that brings it is
refused by a program that performs no operation.  Which failure is reported is
said by definitions of their own.  The argument of a run and the name of a save
are looked at before the payload, and the payload's length before its code.
-/

namespace SealedLua

/-- The sealed script that a request brings, if it brings one. -/
def Request.payload? : Request → Option ByteArray
  | .runInline x => if x.mode.a = 0 then none else some x.script
  | .runSaved _ => none
  | .save x => if x.mode.a = 0 then none else some x.script

namespace Gateway

/-- What is wrong with the argument of a run: its tag is not known, its text or
code is too long, or it is no UTF-8. -/
def argumentFault? (g : Gateway) (x : RunSlots) : Option GatewayError :=
  if x.words.a = 0 then none
  else if x.words.a = 1 ∨ x.words.a = 2 then
    if g.capacity < x.buffer.size then some (.capacity x.buffer.size g.capacity)
    else if String.fromUTF8? x.buffer = none then
      some (.badParameters EngineError.invalidText.message)
    else none
  else some (.badParameters (EngineError.unknownTag x.words.a).message)

/-- What is wrong with a name: it is empty or too long, or it is no UTF-8. -/
def nameFault? (g : Gateway) (name : ByteArray) : Option GatewayError :=
  if name.size = 0 ∨ g.nameLimit < name.size then
    some (.badParameters
      ("name length " ++ toString name.size ++ " outside 1..=" ++ toString g.nameLimit))
  else if String.fromUTF8? name = none then some (.badParameters "name is not valid UTF-8")
  else none

/-- What is wrong with a request apart from its payload. -/
def fault? (g : Gateway) : Request → Option GatewayError
  | .runInline x | .runSaved x => g.argumentFault? x
  | .save x => g.nameFault? x.name

/-- What is wrong with a payload that does not open: it has no whole header, or
it fails its check. -/
def payloadFault (payload : ByteArray) : GatewayError :=
  if payload.size < 88 then .format payload.size 88 else .authentication

theorem readBuffer_eq (buffer : ByteArray) (capacity : Nat) :
    (if capacity < buffer.size then Parcel.readBuffer buffer capacity =
      .error (.capacity buffer.size capacity)
      else if String.fromUTF8? buffer = none then Parcel.readBuffer buffer capacity =
        .error .invalidText
      else ∃ s, Parcel.readBuffer buffer capacity = .ok s) := by
  unfold Parcel.readBuffer
  split_ifs with hlong hinvalid
  · rfl
  · rw [hinvalid]
  · obtain ⟨s, hs⟩ := Option.ne_none_iff_exists'.1 hinvalid
    exact ⟨s, by rw [hs]⟩

/-- An argument is read unless something is wrong with it. -/
theorem argument_eq (g : Gateway) (x : RunSlots) :
    match g.argumentFault? x with
    | some e => g.argument x = .error e
    | none => ∃ p, g.argument x = .ok p := by
  have hbuffer := readBuffer_eq x.buffer g.capacity
  unfold argumentFault? argument Parcel.ofSlots Parcel.numberTag Parcel.textTag Parcel.codeTag
  by_cases hnumber : x.words.a = 0
  · simp only [if_pos hnumber]
    exact ⟨_, rfl⟩
  by_cases htext : x.words.a = 1 ∨ x.words.a = 2
  · simp only [if_neg hnumber, if_pos htext]
    -- A text and a code differ in nothing but the kind of parcel.
    have htwo : x.words.a ≠ 1 → x.words.a = 2 := htext.resolve_left
    split_ifs at hbuffer with hlong hinvalid
    · simp only [if_pos hlong, hbuffer]
      by_cases hone : x.words.a = 1
      · rw [if_pos hone]
        rfl
      · rw [if_neg hone, if_pos (htwo hone)]
        rfl
    · simp only [if_neg hlong, if_pos hinvalid, hbuffer]
      by_cases hone : x.words.a = 1
      · rw [if_pos hone]
        rfl
      · rw [if_neg hone, if_pos (htwo hone)]
        rfl
    · obtain ⟨s, hs⟩ := hbuffer
      simp only [if_neg hlong, if_neg hinvalid, hs]
      by_cases hone : x.words.a = 1
      · rw [if_pos hone]
        exact ⟨_, rfl⟩
      · rw [if_neg hone, if_pos (htwo hone)]
        exact ⟨_, rfl⟩
  · obtain ⟨hone, htwo⟩ := not_or.1 htext
    simp only [if_neg hnumber, if_neg htext, if_neg hone, if_neg htwo]
    rfl

/-- A name is taken unless something is wrong with it. -/
theorem checkName_eq (g : Gateway) (name : ByteArray) :
    match g.nameFault? name with
    | some e => (Scripts.checkName g.nameLimit name).mapError .ofStore = .error e
    | none => ∃ text, (Scripts.checkName g.nameLimit name).mapError GatewayError.ofStore =
      .ok text := by
  unfold nameFault? Scripts.checkName
  by_cases hlength : name.size = 0 ∨ g.nameLimit < name.size
  · have hrefused : (name.size = 0 || decide (g.nameLimit < name.size)) = true := by
      simpa using hlength
    simp only [if_pos hlength, hrefused]
    rfl
  · have htaken : (name.size = 0 || decide (g.nameLimit < name.size)) = false := by
      simpa using hlength
    simp only [if_neg hlength, htaken]
    cases htext : String.fromUTF8? name with
    | none => rfl
    | some s => exact ⟨s, rfl⟩

/-- A payload that does not open is refused for its length or by its check. -/
theorem unsealed_eq_error (g : Gateway) {payload : ByteArray}
    (hclosed : ∀ body, Payload.decrypt g.secret payload ≠ .ok body) :
    g.unsealed true payload = .error (payloadFault payload) := by
  have hheader : Payload.headerLength = 88 := rfl
  have hcases := Payload.decrypt_cases g.secret payload
  rw [hheader] at hcases
  simp only [unsealed, if_true, payloadFault]
  rcases hcases with ⟨hshort, hfails⟩ | ⟨-, -, -, body, -, -, -, hopens⟩ | ⟨hlong, hfails⟩
  · rw [hfails, if_pos hshort]
    rfl
  · exact absurd hopens (hclosed body)
  · rw [hfails, if_neg (Nat.not_lt.2 hlong)]
    rfl

theorem carryOut_runInline_error (g : Gateway) (fuel : Nat) {x : RunSlots} {e : GatewayError}
    (h : g.runRequest fuel x false = Work.ofExcept (.error e)) :
    g.carryOut fuel (.runInline x) = pure (.error e, x.slots) := by
  rw [carryOut, h]
  rfl

theorem runRequest_fault (g : Gateway) (fuel : Nat) {x : RunSlots}
    {e : GatewayError} (isSaved : Bool)
    (h : g.argument x = .error e) : g.runRequest fuel x isSaved = Work.ofExcept (.error e) := by
  rw [runRequest, h]
  rfl

theorem runRequest_closed (g : Gateway) (fuel : Nat) {x : RunSlots} {p : Parcel} {e : GatewayError}
    (h : g.argument x = .ok p) (hclosed : g.unsealed (x.mode.a != 0) x.script = .error e) :
    g.runRequest fuel x false = Work.ofExcept (.error e) := by
  have hinline : g.runInline fuel x.script (x.mode.a != 0) p = Work.ofExcept (.error e) := by
    rw [runInline, hclosed]
    rfl
  rw [runRequest, h]
  exact hinline

theorem carryOut_save_error (g : Gateway) (fuel : Nat) {x : SaveSlots} {e : GatewayError}
    (h : g.save x.name x.script (x.mode.a != 0) = Work.ofExcept (.error e)) :
    g.carryOut fuel (.save x) = pure (.error e, x.slots) := by
  rw [carryOut, h]
  rfl

/-- A request whose sealed script does not open under the secret is refused by a
program that performs no operation: storage is not touched, no interpreter is
made, and, as the program is the same with any fuel and with none, no code is
run, that of the argument included.  The slots stay as they are.  Reported is
what is wrong with the argument or the name, if anything, and otherwise what is
wrong with the payload. -/
theorem unopened_payloads_have_no_effect (g : Gateway) (fuel : Nat)
    (r : Request) {payload : ByteArray} (hpayload : r.payload? = some payload)
    (hclosed : ∀ body, Payload.decrypt g.secret payload ≠ .ok body) :
    g.dispatch fuel r.command.id r.slots =
      pure (.error ((g.fault? r).getD (payloadFault payload)), r.slots) := by
  have hrefused := g.unsealed_eq_error hclosed
  rw [dispatch_request]
  cases r with
  | runSaved x => cases hpayload
  | runInline x =>
    simp only [Request.payload?] at hpayload
    split_ifs at hpayload with hmode
    cases hpayload
    have hsealed : (x.mode.a != 0) = true := bne_iff_ne.2 hmode
    have hargument := g.argument_eq x
    simp only [fault?]
    cases hfault : g.argumentFault? x with
    | some e =>
      rw [hfault] at hargument
      exact g.carryOut_runInline_error fuel (g.runRequest_fault fuel false hargument)
    | none =>
      rw [hfault] at hargument
      obtain ⟨p, hp⟩ := hargument
      rw [← hsealed] at hrefused
      exact g.carryOut_runInline_error fuel (g.runRequest_closed fuel hp hrefused)
  | save x =>
    simp only [Request.payload?] at hpayload
    split_ifs at hpayload with hmode
    cases hpayload
    have hsealed : (x.mode.a != 0) = true := bne_iff_ne.2 hmode
    have hname := g.checkName_eq x.name
    simp only [fault?]
    refine g.carryOut_save_error fuel ?_
    rw [hsealed]
    cases hfault : g.nameFault? x.name with
    | some e =>
      rw [hfault] at hname
      rw [save, hname]
      rfl
    | none =>
      rw [hfault] at hname
      obtain ⟨text, htext⟩ := hname
      rw [save, htext, hrefused]
      rfl

/-- Five bytes that are to be run on the value of a chunk that never ends, and
the same five bytes that are to be saved without a name. -/
theorem short_payloads_have_no_effect :
    let g : Gateway := { secret := ⟨bytes (List.replicate 32 0), size_bytes _⟩ }
    let run : RunSlots := ⟨bytes (ascii "short"), ⟨2, 0⟩, ⟨1, 0⟩, bytes (ascii "while true do end")⟩
    let save : SaveSlots := ⟨bytes [], bytes (ascii "short"), ⟨1, 0⟩⟩
    g.dispatch 0 1 run.slots = pure (.error (.format 5 88), run.slots) ∧
      g.dispatch 0 3 save.slots =
        pure (.error (.badParameters "name length 0 outside 1..=64"), save.slots) := by
  intro g run save
  have hclosed : ∀ body, Payload.decrypt g.secret (bytes (ascii "short")) ≠ .ok body := by
    intro body hopens
    cases hopens
  have hrun := g.unopened_payloads_have_no_effect 0 (.runInline run) rfl hclosed
  have hsave := g.unopened_payloads_have_no_effect 0 (.save save) rfl hclosed
  have hargument : g.fault? (.runInline run) = none := by decide +kernel
  have hname : g.fault? (.save save) = some (.badParameters "name length 0 outside 1..=64") := by
    have htext : "name length " ++ toString 0 ++ " outside 1..=" ++ toString 64 =
        "name length 0 outside 1..=64" := by
      decide +kernel
    rw [← htext]
    rfl
  rw [hargument] at hrun
  rw [hname] at hsave
  exact ⟨hrun, hsave⟩

end Gateway
end SealedLua
