import SealedLua.Gateway.Configuration
import SealedLua.Proofs.Gateway.Records

/-!
# The secret and plain scripts

The secret opens sealed scripts and does nothing else.  A gateway with another
secret therefore carries out a plain request by the same program, and nested
calls by the same programs too, since saved scripts are plain.  From one call
this passes to any calls on any platform.
-/

namespace SealedLua

namespace Gateway

variable (g : Gateway) (secret : MasterSecret)

/-- The gateway with another secret. -/
def withSecret : Gateway := { g with secret := secret }

theorem loadScript_withSecret (name : ByteArray) :
    (g.withSecret secret).loadScript name = g.loadScript name := rfl

theorem run_withSecret (fuel levels : Nat) (script : ByteArray) (argument : Parcel) :
    (g.withSecret secret).run fuel levels script argument = g.run fuel levels script argument := by
  induction levels generalizing script argument with
  | zero => rfl
  | succ levels ih =>
    simp only [run, loadScript_withSecret]
    congr 1
    funext printed call
    congr 2
    funext body
    exact ih body call.argument

theorem unsealed_withSecret (script : ByteArray) :
    (g.withSecret secret).unsealed false script = g.unsealed false script := by
  simp [unsealed]

theorem runInline_withSecret (fuel : Nat) (script : ByteArray) (argument : Parcel) :
    (g.withSecret secret).runInline fuel script false argument =
      g.runInline fuel script false argument := by
  simp only [runInline, unsealed_withSecret, run_withSecret]
  rfl

theorem runSaved_withSecret (fuel : Nat) (name : ByteArray) (argument : Parcel) :
    (g.withSecret secret).runSaved fuel name argument = g.runSaved fuel name argument := by
  simp only [runSaved, loadScript_withSecret, run_withSecret]
  rfl

theorem save_withSecret (name script : ByteArray) :
    (g.withSecret secret).save name script false = g.save name script false := by
  simp only [save, unsealed_withSecret]
  rfl

end Gateway

/-- The script that comes with a request, if one comes, is plain. -/
def Request.IsPlain : Request → Prop
  | .runInline x => x.mode.a = 0
  | .runSaved _ => True
  | .save x => x.mode.a = 0

namespace Gateway

variable (g : Gateway) (secret : MasterSecret)

theorem carryOut_withSecret (fuel : Nat) {r : Request} (h : r.IsPlain) :
    (g.withSecret secret).carryOut fuel r = g.carryOut fuel r := by
  cases r with
  | runInline x =>
    have hmode : (x.mode.a != 0) = false := by simpa [Request.IsPlain] using h
    simp only [carryOut, runRequest, hmode, Bool.false_eq_true, if_false, runInline_withSecret]
    rfl
  | runSaved x =>
    simp only [carryOut, runRequest, if_true, runSaved_withSecret]
    rfl
  | save x =>
    have hmode : (x.mode.a != 0) = false := by simpa [Request.IsPlain] using h
    simp only [carryOut, hmode, save_withSecret]

end Gateway

/-- The third slot of a call that comes with a script says that the script is plain. -/
def SessionCall.IsPlain : SessionCall → Prop
  | .invoke _ _ command slots =>
    command = Command.runInline.id ∨ command = Command.save.id → ∀ words,
      slots.r.asValue = .ok words → words.a = 0
  | _ => True

theorem SessionCall.IsPlain.request {fuel : Nat} {session : UInt32} {r : Request}
    (h : SessionCall.IsPlain (.invoke fuel session r.command.id r.slots)) : r.IsPlain := by
  cases r with
  | runInline x => exact h (.inl rfl) x.mode rfl
  | runSaved x => trivial
  | save x => exact h (.inr rfl) x.mode rfl

namespace Gateway

/-- A plain command is the same program.  What is no request is refused without
a look at the secret. -/
theorem dispatch_withSecret (g : Gateway) (secret : MasterSecret) {fuel : Nat}
    {session id : UInt32} {slots : Slots}
    (h : SessionCall.IsPlain (.invoke fuel session id slots)) :
    (g.withSecret secret).dispatch fuel id slots = g.dispatch fuel id slots := by
  by_cases hknown : ∃ c : Command, id = c.id
  · obtain ⟨c, rfl⟩ := hknown
    by_cases htypes : slots.types = c.signature
    · obtain ⟨r, rfl, rfl⟩ := Request.exists_of_types htypes
      rw [dispatch_request, dispatch_request]
      exact g.carryOut_withSecret secret fuel h.request
    · rw [dispatch_mismatch _ fuel c htypes, dispatch_mismatch _ fuel c htypes]
  · have hunknown : ∀ c : Command, id ≠ c.id := fun c heq => hknown ⟨c, heq⟩
    rw [dispatch_unknown _ fuel slots hunknown, dispatch_unknown _ fuel slots hunknown]

end Gateway

namespace SessionManager

variable {σ : Type}

theorem serve_withSecret (g : Gateway) (secret : MasterSecret)
    (answer : (op : PlatformOp) → StateM σ op.Answer)
    {call : SessionCall} (h : call.IsPlain) (m : SessionManager) (s : σ) :
    serve (g.withSecret secret) answer call m s = serve g answer call m s := by
  cases call with
  | openSession uuid slots => rfl
  | closeSession session => rfl
  | invoke fuel session id slots =>
    have hinvoke : m.invoke (g.withSecret secret) fuel session id slots =
        m.invoke g fuel session id slots := by
      simp only [invoke, Session.invoke, g.dispatch_withSecret secret h]
    simp only [serve, hinvoke]

theorem serveAll_withSecret (g : Gateway) (secret : MasterSecret)
    (answer : (op : PlatformOp) → StateM σ op.Answer) {calls : List SessionCall}
    (h : ∀ call ∈ calls, call.IsPlain) (m : SessionManager) (s : σ) :
    serveAll (g.withSecret secret) answer calls m s = serveAll g answer calls m s := by
  induction calls generalizing m s with
  | nil => rfl
  | cons call rest ih =>
    have hrest : ∀ other ∈ rest, other.IsPlain := fun other hother =>
      h other (List.mem_cons_of_mem call hother)
    simp only [serveAll, serve_withSecret g secret answer (h call List.mem_cons_self), ih hrest]

/-- The secret does not show in what is done with plain scripts.  Two gateways
that are configured alike but for the secret start alike.  If every script that
comes with a call is plain, then after each call they have given the same
replies, with the same codes and slots, have the same sessions and leave the
platform with all its records in the same state. -/
theorem plain_calls_hide_secret (c : Configuration) (secret : MasterSecret)
    (calls : List SessionCall) (hplain : ∀ call ∈ calls, call.IsPlain) :
    let other : Configuration := { c with toGateway := c.toGateway.withSecret secret }
    (∀ (circumstances : Nat → Lua.Circumstances) (files : FileTree),
      (Process.start Host.answerFile circumstances other).run files =
        (Process.start Host.answerFile circumstances c).run files) ∧
      ∀ (answer : (op : PlatformOp) → StateM σ op.Answer) (s : σ) (served : List SessionCall),
      served <+: calls →
        serveAll other.toGateway answer served empty s =
          serveAll c.toGateway answer served empty s := by
  intro other
  constructor
  · intro circumstances files
    rfl
  · intro answer s served hserved
    apply serveAll_withSecret
    intro call hcall
    exact hplain call (hserved.subset hcall)

/-- The script `1` is saved and run, under the secret of zeros or of ones. -/
theorem savingOnce_hides_secret :
    let zeros : MasterSecret := ⟨bytes (List.replicate 32 0), size_bytes _⟩
    let ones : MasterSecret := ⟨bytes (List.replicate 32 1), size_bytes _⟩
    let g : Gateway := { secret := zeros }
    let host : Host := { process := { root := none } }
    serveAll (g.withSecret ones) Host.answer savingOnce empty host =
      serveAll g Host.answer savingOnce empty host := by
  intro zeros ones g host
  refine (plain_calls_hide_secret { toGateway := g } ones savingOnce ?_).2 Host.answer host
    savingOnce List.prefix_rfl
  intro call hcall
  rcases List.mem_cons.1 hcall with rfl | hcall
  · trivial
  · obtain rfl := List.mem_singleton.1 hcall
    intro _ words hwords
    cases hwords
    rfl

end SessionManager
end SealedLua
