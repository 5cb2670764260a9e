import SealedLua.Proofs.Crypto.Opening
import SealedLua.Proofs.Gateway.Records
import SealedLua.Proofs.Gateway.Requests

/-!
# Routes to a script

A script can come in plain text, sealed, or by the name under which it was
saved.  All routes meet in the same run; a sealed script is opened before
anything is asked of the platform, and a saved one costs a read more.  What is
left is that a read leaves no trace: two runs of a program from states that
differ in what was read before go on in step.
-/

namespace SealedLua

open Program (Only)

variable {σ α β : Type} {answer : (op : PlatformOp) → StateM σ op.Answer}

namespace Platform

/-- What a program comes to on a platform, and the state after it. -/
def ran (answer : (op : PlatformOp) → StateM σ op.Answer) (p : Platform α) (s : σ) : α × σ :=
  (Program.run (I := platformInterface) answer p).run s

/-- An operation, and what is done with its answer. -/
def after (op : PlatformOp) (k : op.Answer → Platform α) : Platform α :=
  Program.perform (I := platformInterface) op k

theorem ran_after (op : PlatformOp) (k : op.Answer → Platform α) (s : σ) :
    ran answer (after op k) s = ran answer (k ((answer op).run s).1) ((answer op).run s).2 := rfl

theorem ran_map (p : Platform α) (f : α → β) (s : σ) :
    ran answer (p.bind fun a => .done (f a)) s = (f (ran answer p s).1, (ran answer p s).2) :=
  Program.run_bind_run (I := platformInterface) p _ s

end Platform

/-- How many interpreters are made with an answer of the platform. -/
def PlatformOp.interpreters : (op : PlatformOp) → op.Answer → Nat
  | .admitInterpreter, .ok _ => 1
  | _, _ => 0

namespace Platform

def interpreters (answer : (op : PlatformOp) → StateM σ op.Answer) (p : Platform α) (s : σ) : Nat :=
  Program.tally (I := platformInterface) PlatformOp.interpreters answer p s

theorem interpreters_after (op : PlatformOp) (k : op.Answer → Platform α) (s : σ) :
    interpreters answer (after op k) s =
      op.interpreters ((answer op).run s).1 +
        interpreters answer (k ((answer op).run s).1) ((answer op).run s).2 := rfl

theorem interpreters_map (p : Platform α) (f : α → β) (s : σ) :
    interpreters answer (p.bind fun a => .done (f a)) s = interpreters answer p s :=
  Program.tally_map f p s

end Platform

/-- Storage whose reads leave no trace.  A state shows its view, in which objects
can be seen, what was printed and how an interpreter is admitted, but not what was
read. -/
structure SteadyStorage (answer : (op : PlatformOp) → StateM σ op.Answer) extends
    ReliableStorage answer where
  View : Type
  view : σ → View
  object_of_view : ∀ s t, view s = view t → object s = object t
  view_openRead : ∀ s id, works s → view ((answer (.storage (.openRead id))).run s).2 = view s
  admit_of_view : ∀ s t, works s → works t → view s = view t →
    ((answer .admitInterpreter).run s).1 = ((answer .admitInterpreter).run t).1 ∧
      view ((answer .admitInterpreter).run s).2 = view ((answer .admitInterpreter).run t).2
  print_of_view : ∀ s t text, works s → works t → view s = view t →
    view ((answer (.print text)).run s).2 = view ((answer (.print text)).run t).2

namespace SteadyStorage

variable (storage : SteadyStorage answer)

/-- Two programs come to the same, each from a state of its own. -/
structure Alike (p q : Platform α) (s t : σ) : Prop where
  result : (Platform.ran answer p s).1 = (Platform.ran answer q t).1
  view : storage.view (Platform.ran answer p s).2 = storage.view (Platform.ran answer q t).2
  interpreters : Platform.interpreters answer p s = Platform.interpreters answer q t

variable {storage}

/-- One step of a program that only reads: the answers are the same, and so are
the views after them. -/
theorem step_of_view {op : PlatformOp} (hop : Reads op) {s t : σ}
    (hs : storage.works s) (ht : storage.works t) (h : storage.view s = storage.view t) :
    ((answer op).run s).1 = ((answer op).run t).1 ∧
      storage.view ((answer op).run s).2 = storage.view ((answer op).run t).2 ∧
      storage.works ((answer op).run s).2 ∧ storage.works ((answer op).run t).2 := by
  cases hop with
  | openRead id =>
    have hview : storage.view ((answer (.storage (.openRead id))).run s).2 =
        storage.view ((answer (.storage (.openRead id))).run t).2 := by
      rw [storage.view_openRead s id hs, storage.view_openRead t id ht, h]
    obtain ⟨s', hs', hworks, -⟩ := storage.openRead s id hs
    obtain ⟨t', ht', hworks', -⟩ := storage.openRead t id ht
    refine ⟨?_, hview, ?_, ?_⟩
    · rw [hs', ht', storage.object_of_view s t h]
    · rw [hs']
      exact hworks
    · rw [ht']
      exact hworks'
  | admitInterpreter =>
    obtain ⟨_, s', hs', hworks, -⟩ := storage.admitInterpreter s hs
    obtain ⟨_, t', ht', hworks', -⟩ := storage.admitInterpreter t ht
    obtain ⟨hanswer, hview⟩ := storage.admit_of_view s t hs ht h
    refine ⟨hanswer, hview, ?_, ?_⟩
    · rw [hs']
      exact hworks
    · rw [ht']
      exact hworks'
  | print text =>
    obtain ⟨s', hs', hworks, -⟩ := storage.print s text hs
    obtain ⟨t', ht', hworks', -⟩ := storage.print t text ht
    refine ⟨rfl, storage.print_of_view s t text hs ht h, ?_, ?_⟩
    · rw [hs']
      exact hworks
    · rw [ht']
      exact hworks'

/-- An operation that is answered the same is followed by what goes on alike. -/
theorem alike_after {op : PlatformOp} {k : op.Answer → Platform α} {s t : σ}
    (hanswer : ((answer op).run s).1 = ((answer op).run t).1)
    (hrest : storage.Alike (k ((answer op).run s).1) (k ((answer op).run s).1) ((answer op).run s).2
      ((answer op).run t).2) :
    storage.Alike (.after op k) (.after op k) s t := by
  constructor
  · rw [Platform.ran_after, Platform.ran_after, ← hanswer]
    exact hrest.result
  · rw [Platform.ran_after, Platform.ran_after, ← hanswer]
    exact hrest.view
  · rw [Platform.interpreters_after, Platform.interpreters_after, ← hanswer, hrest.interpreters]

/-- A program that only reads comes to the same from states with the same view. -/
theorem alike_of_view {p : Platform α} (hp : Only Reads p) {s t : σ}
    (hs : storage.works s) (ht : storage.works t)
    (h : storage.view s = storage.view t) : storage.Alike p p s t := by
  induction hp generalizing s t with
  | done a => exact ⟨rfl, h, rfl⟩
  | @perform op k allowed rest ih =>
    obtain ⟨hanswer, hview, hs', ht'⟩ := step_of_view allowed hs ht h
    exact alike_after hanswer (ih _ hs' ht' hview)

/-- An operation that leaves the view and makes no interpreter comes before a
program without being noticed. -/
theorem alike_after_unnoticed {p : Platform α} (hp : Only Reads p) {op : PlatformOp}
    {k : op.Answer → Platform α} {t u : σ} {a : op.Answer} (hanswer : (answer op).run t = (a, u))
    (hk : k a = p) (hnone : op.interpreters a = 0)
    (ht : storage.works t) (hu : storage.works u) (hview : storage.view t = storage.view u) :
    storage.Alike p (.after op k) t t := by
  have hrest := alike_of_view hp ht hu hview
  have hran : Platform.ran answer (.after op k) t = Platform.ran answer p u := by
    rw [Platform.ran_after, hanswer, hk]
  have hcount : Platform.interpreters answer (.after op k) t =
      Platform.interpreters answer p u := by
    rw [Platform.interpreters_after, hanswer, hk, hnone, Nat.zero_add]
  refine ⟨?_, ?_, ?_⟩
  · rw [hran]
    exact hrest.result
  · rw [hran]
    exact hrest.view
  · rw [hcount]
    exact hrest.interpreters

theorem alike_after_read {p : Platform α} (hp : Only Reads p) {t : σ}
    (ht : storage.works t) {id : ObjectId}
    {k : PlatformOp.Answer (.storage (.openRead id)) → Platform α}
    (hk : k (Except.ok (storage.object t id)) = p) :
    storage.Alike p (.after (.storage (.openRead id)) k) t t := by
  obtain ⟨u, hread, hu, -⟩ := storage.openRead t id ht
  have hview : storage.view t = storage.view u := by
    have hsteady := storage.view_openRead t id ht
    rw [hread] at hsteady
    exact hsteady.symm
  exact alike_after_unnoticed hp hread hk rfl ht hu hview

end SteadyStorage

/-- What a caller learns from a call: how it ended, and what is in the slots in
which a run leaves its result. -/
def Slots.heard (ended : Except GatewayError Unit × Slots) :
    Except GatewayError Unit × Slot × Slot :=
  (ended.1, ended.2.q, ended.2.s)

namespace Gateway

/-- Two calls that agree, from a state: their callers learn the same, the same
objects are left, and as many interpreters are made. -/
structure Agree (storage : SteadyStorage answer)
    (p q : OptionT (Program platformInterface) (Except GatewayError Unit × Slots))
    (s : σ) : Prop where
  heard : (Platform.ran answer p.run s).1.map Slots.heard =
    (Platform.ran answer q.run s).1.map Slots.heard
  objects : storage.object (Platform.ran answer p.run s).2 =
    storage.object (Platform.ran answer q.run s).2
  interpreters : Platform.interpreters answer p.run s = Platform.interpreters answer q.run s

/-- What is heard of the end of a run depends on the argument's slots only. -/
theorem heard_concluded (g : Gateway) {x y : RunSlots} (hwords : x.words = y.words)
    (hbuffer : x.buffer = y.buffer) (ended : Except GatewayError Parcel) :
    Slots.heard (g.concluded x ended) = Slots.heard (g.concluded y ended) := by
  obtain ⟨script, words, mode, buffer⟩ := x
  obtain ⟨script', words', mode', buffer'⟩ := y
  obtain rfl : words = words' := hwords
  obtain rfl : buffer = buffer' := hbuffer
  unfold concluded conclude
  cases ended with
  | error e => rfl
  | ok result => cases h : result.toSlots g.capacity <;> simp only [h] <;> rfl

theorem agree_of_alike (g : Gateway) {storage : SteadyStorage answer} {fuel : Nat} {x y : RunSlots}
    {isSaved isSaved' : Bool} {t : σ} (hwords : x.words = y.words) (hbuffer : x.buffer = y.buffer)
    (h : storage.Alike (g.runRequest fuel x isSaved).run.run
      (g.runRequest fuel y isSaved').run.run t t) :
    Agree storage (g.carryOut fuel (runOf x isSaved)) (g.carryOut fuel (runOf y isSaved')) t := by
  constructor
  · have hheard : Slots.heard ∘ g.concluded x = Slots.heard ∘ g.concluded y :=
      funext (g.heard_concluded hwords hbuffer)
    rw [carryOut_runOf, carryOut_runOf, Platform.ran_map, Platform.ran_map,
      Option.map_map, Option.map_map, hheard, h.result]
  · rw [carryOut_runOf, carryOut_runOf, Platform.ran_map, Platform.ran_map]
    exact storage.object_of_view _ _ h.view
  · rw [carryOut_runOf, carryOut_runOf, Platform.interpreters_map, Platform.interpreters_map]
    exact h.interpreters

/-- What a script in plain text and a payload that opens to it are run as. -/
theorem unsealed_clear (g : Gateway) (script : ByteArray) {mode : Words} (hclear : mode.a = 0) :
    g.unsealed (mode.a != 0) script = .ok script := by
  rw [hclear]
  rfl

theorem unsealed_flagged (g : Gateway) {payload script : ByteArray}
    {mode : Words} (hflagged : mode.a ≠ 0)
    (hopens : Payload.decrypt g.secret payload = .ok script) :
    g.unsealed (mode.a != 0) payload = .ok script := by
  rw [bne_iff_ne.2 hflagged]
  simp only [unsealed, if_true, hopens]
  rfl

theorem save_unsealed (g : Gateway) (name : ByteArray) {script body : ByteArray} {isSealed : Bool}
    (h : g.unsealed isSealed script = .ok body) :
    g.save name script isSealed = g.save name body false := by
  unfold save
  rw [h]
  rfl

theorem runInline_unsealed (g : Gateway) (fuel : Nat) {script body : ByteArray}
    {isSealed : Bool} (argument : Parcel) (h : g.unsealed isSealed script = .ok body) :
    g.runInline fuel script isSealed argument = g.run fuel g.depthLimit body argument := by
  unfold runInline
  rw [h]
  rfl

/-- Running a script that was saved is a read, and then the run of what was read. -/
theorem runSaved_eq (g : Gateway) (fuel : Nat) {name : ByteArray}
    {text : String} (argument : Parcel) (hname : Scripts.checkName g.nameLimit name = .ok text) :
    ∃ k : PlatformOp.Answer (.storage (.openRead (Scripts.recordId text))) →
        Platform (Option (Except GatewayError Parcel)),
      (g.runSaved fuel name argument).run.run =
        Platform.after (.storage (.openRead (Scripts.recordId text))) k ∧
        ∀ body, k (Except.ok (some body)) = (g.run fuel g.depthLimit body argument).run.run := by
  unfold runSaved loadScript Scripts.load
  rw [hname]
  refine ⟨_, rfl, ?_⟩
  intro body
  rfl

theorem runRequest_inline (g : Gateway) (fuel : Nat) {x : RunSlots} {body : ByteArray}
    (h : g.unsealed (x.mode.a != 0) x.script = .ok body) :
    g.runRequest fuel x false = (do
      let argument ← Work.ofExcept (g.argument x)
      g.run fuel g.depthLimit body argument) := by
  unfold runRequest
  congr 1
  funext argument
  exact g.runInline_unsealed fuel argument h

theorem runRequest_inline_only (g : Gateway) (fuel : Nat) (x : RunSlots) (body : ByteArray) :
    Only Reads (do
      let argument ← Work.ofExcept (g.argument x)
      g.run fuel g.depthLimit body argument : Work Parcel).run.run :=
  Only.bindExcept (Work.ofExcept_only _) fun argument => run_only g fuel _ body argument

theorem argument_congr (g : Gateway) {x y : RunSlots} (hwords : x.words = y.words)
    (hbuffer : x.buffer = y.buffer) :
    g.argument x = g.argument y := by
  rw [argument, argument, hwords, hbuffer]

theorem alike_inline (g : Gateway) {storage : SteadyStorage answer} (fuel : Nat)
    {x y : RunSlots} {body : ByteArray} (hx : g.unsealed (x.mode.a != 0) x.script = .ok body)
    (hy : g.unsealed (y.mode.a != 0) y.script = .ok body)
    (hwords : x.words = y.words) (hbuffer : x.buffer = y.buffer) {t : σ} (ht : storage.works t) :
    storage.Alike (g.runRequest fuel x false).run.run (g.runRequest fuel y false).run.run t t := by
  rw [g.runRequest_inline fuel hx, g.runRequest_inline fuel hy, ← g.argument_congr hwords hbuffer]
  exact SteadyStorage.alike_of_view (g.runRequest_inline_only fuel x body) ht ht rfl

/-- A script runs alike in plain text and by the name under which it is saved. -/
theorem alike_saved (g : Gateway) {storage : SteadyStorage answer} (fuel : Nat)
    {x y : RunSlots} {body : ByteArray}
    {text : String} (hx : g.unsealed (x.mode.a != 0) x.script = .ok body)
    (hname : Scripts.checkName g.nameLimit y.script = .ok text) (hwords : x.words = y.words)
    (hbuffer : x.buffer = y.buffer)
    {t : σ} (ht : storage.works t) (hsaved : storage.object t (Scripts.recordId text) = some body) :
    storage.Alike (g.runRequest fuel x false).run.run (g.runRequest fuel y true).run.run t t := by
  rw [g.runRequest_inline fuel hx]
  unfold runRequest
  rw [← g.argument_congr hwords hbuffer]
  cases g.argument x with
  | error e => exact ⟨rfl, rfl, rfl⟩
  | ok argument =>
    obtain ⟨k, hrun, hk⟩ := g.runSaved_eq fuel argument hname
    have hfound : k (Except.ok (storage.object t (Scripts.recordId text))) =
        (g.run fuel g.depthLimit body argument).run.run := by
      rw [hsaved]
      exact hk body
    have hread :=
      SteadyStorage.alike_after_read (run_only g fuel g.depthLimit body argument) ht hfound
    rw [← hrun] at hread
    exact hread

theorem dispatch_save_unsealed (g : Gateway) (fuel : Nat) {x : SaveSlots} {body : ByteArray}
    (h : g.unsealed (x.mode.a != 0) x.script = .ok body) :
    g.dispatch fuel 3 x.slots = (do
      let ended ← (g.save x.name body false).run
      return (ended, x.slots)) := by
  have hdispatch := g.dispatch_request fuel (.save x)
  rw [carryOut, g.save_unsealed x.name h] at hdispatch
  exact hdispatch

/-- On storage that works a script is saved under any name that is fit. -/
theorem save_comesTo (g : Gateway) (storage : ReliableStorage answer) {s : σ}
    (hs : storage.works s) {name : ByteArray}
    {text : String} (hname : Scripts.checkName g.nameLimit name = .ok text) (body : ByteArray) :
    ∃ t, Program.ComesTo (I := platformInterface) answer (g.save name body false).run s (.ok ()) t ∧
      storage.works t ∧ storage.object t (Scripts.recordId text) = some body := by
  obtain ⟨t, hrun, ht, hobject⟩ := Scripts.run_save storage hname body hs
  refine ⟨t, ?_, ht, (hobject text).trans (if_pos rfl)⟩
  unfold save
  rw [hname]
  refine (Work.run_ofPlatform _ _ s).trans ?_
  rw [hrun]
  rfl

/-- All routes to a script agree.  A script is saved in plain text and sealed by
programs that differ in nothing but the slots that come back, so on any platform
with the same result and the same effects.  On storage that works both succeed;
from the state after them the script is run the same in plain text, sealed, and
by its name, whatever it does. -/
theorem routes_agree (g : Gateway) (storage : SteadyStorage answer) {s : σ} (hs : storage.works s)
    {name : ByteArray} {text : String} (hname : Scripts.checkName g.nameLimit name = .ok text)
    (script : ByteArray)
    {salt nonce : List UInt8} (hsalt : salt.length = 16) (hnonce : nonce.length = 8)
    {clear flagged : Words} (hclear : clear.a = 0) (hflagged : flagged.a ≠ 0) :
    let payload := Payload.encrypt g.secret salt nonce script
    let plainSave : SaveSlots := ⟨name, script, clear⟩
    let sealedSave : SaveSlots := ⟨name, payload, flagged⟩
    (∀ fuel, Prod.fst <$> g.dispatch fuel 3 plainSave.slots = Prod.fst <$>
      g.dispatch fuel 3 sealedSave.slots) ∧
      ∃ t, storage.works t ∧
        (∀ fuel, Program.ComesTo (I := platformInterface) answer
            (g.dispatch fuel 3 plainSave.slots) s
            (.ok (), plainSave.slots) t ∧
          Program.ComesTo (I := platformInterface) answer (g.dispatch fuel 3 sealedSave.slots) s
            (.ok (), sealedSave.slots) t) ∧
        ∀ fuel words mode buffer,
          let plainRun : RunSlots := ⟨script, words, clear, buffer⟩
          let sealedRun : RunSlots := ⟨payload, words, flagged, buffer⟩
          let savedRun : RunSlots := ⟨name, words, mode, buffer⟩
          Agree storage (g.dispatch fuel 1 plainRun.slots) (g.dispatch fuel 1 sealedRun.slots) t ∧
            Agree storage (g.dispatch fuel 1 plainRun.slots)
            (g.dispatch fuel 2 savedRun.slots) t := by
  intro payload
  have hopens : Payload.decrypt g.secret payload = .ok script :=
    Payload.decrypt_of_encrypt? hsalt hnonce
      (Payload.encrypt?_eq_encrypt g.secret script hsalt hnonce)
  -- From here on all that counts of the payload is that it opens.
  clear_value payload
  intro plainSave sealedSave
  have hplain : g.unsealed (clear.a != 0) script = .ok script := g.unsealed_clear script hclear
  have hsealed : g.unsealed (flagged.a != 0) payload = .ok script :=
    g.unsealed_flagged hflagged hopens
  obtain ⟨t, hsave, ht, hsaved⟩ := g.save_comesTo storage.toReliableStorage hs hname script
  refine ⟨fun fuel => ?_, t, ht, fun fuel => ⟨?_, ?_⟩, fun fuel words mode buffer => ?_⟩
  · rw [g.dispatch_save_unsealed fuel (x := plainSave) hplain,
      g.dispatch_save_unsealed fuel (x := sealedSave) hsealed]
    simp only [map_bind, map_pure]
    rfl
  · rw [g.dispatch_save_unsealed fuel (x := plainSave) hplain]
    exact (Program.comesTo_map (I := platformInterface)).2 ⟨.ok (), hsave, rfl⟩
  · rw [g.dispatch_save_unsealed fuel (x := sealedSave) hsealed]
    exact (Program.comesTo_map (I := platformInterface)).2 ⟨.ok (), hsave, rfl⟩
  · intro plainRun sealedRun savedRun
    have hplainRun : g.dispatch fuel 1 plainRun.slots = g.carryOut fuel (runOf plainRun false) :=
      g.dispatch_request fuel (.runInline plainRun)
    have hsealedRun : g.dispatch fuel 1 sealedRun.slots = g.carryOut fuel (runOf sealedRun false) :=
      g.dispatch_request fuel (.runInline sealedRun)
    have hsavedRun : g.dispatch fuel 2 savedRun.slots = g.carryOut fuel (runOf savedRun true) :=
      g.dispatch_request fuel (.runSaved savedRun)
    rw [hplainRun, hsealedRun, hsavedRun]
    exact ⟨g.agree_of_alike rfl rfl (g.alike_inline fuel (x := plainRun) (y := sealedRun)
      hplain hsealed rfl rfl ht),
      g.agree_of_alike rfl rfl (g.alike_saved fuel (x := plainRun) (y := savedRun) hplain
        hname rfl rfl ht hsaved)⟩

end Gateway

namespace Host

/-- A host that keeps objects in memory notes its reads apart from all that it acts on. -/
def steadyStorage : SteadyStorage Host.answer where
  toReliableStorage := reliableStorage
  View := Process × FileTree × Nat × Option Nat
  view h := (h.process, h.files, h.interpreters, h.interpreterLimit)
  object_of_view h k hview := by
    have hprocess : h.process = k.process := congrArg Prod.fst hview
    exact congrArg (fun p : Process => p.memory.find?) hprocess
  view_openRead h id hm := by
    rw [answer_storage hm]
    rfl
  admit_of_view h k _ _ hview := by
    obtain ⟨process, files, observation, interpreters, limit⟩ := h
    obtain ⟨process', files', observation', interpreters', limit'⟩ := k
    simp only [Prod.mk.injEq] at hview
    obtain ⟨rfl, rfl, rfl, rfl⟩ := hview
    simp only [Host.answer, StateT.run]
    split <;> exact ⟨rfl, rfl⟩
  print_of_view h k text _ _ hview := by
    obtain ⟨process, files, observation, interpreters, limit⟩ := h
    obtain ⟨process', files', observation', interpreters', limit'⟩ := k
    simp only [Prod.mk.injEq] at hview
    obtain ⟨rfl, rfl, rfl, rfl⟩ := hview
    rfl

end Host

/-- A script that calls itself, saved in a host's memory and then run in three ways. -/
theorem Gateway.routes_to_recursion_agree :
    let g : Gateway := { secret := ⟨bytes (List.replicate 32 0), size_bytes _⟩ }
    let host : Host := { process := { root := none } }
    let script := bytes (ascii "return internal_TA_call('f', arg)")
    let payload := Payload.encrypt g.secret (List.replicate 16 7) (List.replicate 8 9) script
    ∃ t, Host.InMemory t ∧ ∀ fuel words mode buffer,
      let plainRun : RunSlots := ⟨script, words, ⟨0, 0⟩, buffer⟩
      let sealedRun : RunSlots := ⟨payload, words, ⟨1, 0⟩, buffer⟩
      let savedRun : RunSlots := ⟨bytes [102], words, mode, buffer⟩
      Program.ComesTo (I := platformInterface) Host.answer
          (g.dispatch fuel 3 (SaveSlots.mk (bytes [102]) payload ⟨1, 0⟩).slots) host
          (.ok (), (SaveSlots.mk (bytes [102]) payload ⟨1, 0⟩).slots) t ∧
        Agree Host.steadyStorage (g.dispatch fuel 1 plainRun.slots)
        (g.dispatch fuel 1 sealedRun.slots) t ∧
        Agree Host.steadyStorage (g.dispatch fuel 1 plainRun.slots)
        (g.dispatch fuel 2 savedRun.slots) t := by
  intro g host script payload
  have hworks : Host.InMemory host := ⟨rfl, rfl⟩
  have hname : Scripts.checkName g.nameLimit (bytes [102]) = .ok "f" := rfl
  have hsalt : (List.replicate 16 (7 : UInt8)).length = 16 := rfl
  have hnonce : (List.replicate 8 (9 : UInt8)).length = 8 := rfl
  have hclear : (Words.mk 0 0).a = 0 := rfl
  have hflagged : (Words.mk 1 0).a ≠ 0 := by decide
  obtain ⟨-, t, ht, hsaves, hruns⟩ :=
    g.routes_agree Host.steadyStorage hworks hname script hsalt hnonce hclear hflagged
  refine ⟨t, ht, fun fuel words mode buffer => ?_⟩
  exact ⟨(hsaves fuel).2, hruns fuel words mode buffer⟩

end SealedLua
