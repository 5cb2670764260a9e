import SealedLua.Proofs.Engine.Finalizing
import SealedLua.Proofs.Engine.Refusing
import SealedLua.Proofs.Gateway.Arguments
import SealedLua.Proofs.Gateway.NestedFailures

/-!
# Nested calls are by copy

A nested call takes its argument and its name from the caller's interpreter, has a
saved script run in an interpreter of its own, and makes a value of the answer in
the caller's interpreter.  The first and the last of these run code in the caller:
the routine that renders the argument, and the code that the answer may be.
Neither changes anything that was there, so all that is left of a call is one new
value or an error.
-/

namespace SealedLua

open Lua Machine
open Program (ComesTo)

variable {σ : Type} {answer : (op : PlatformOp) → StateM σ op.Answer} {w w' w₁ : σ}

section Continuing

/-- From some fuel on, what the one machine comes to is what the other one comes
to with the fuel that is left, each from its state of the platform. -/
def Continues (answer : (op : PlatformOp) → StateM σ op.Answer)
    (around : Surroundings NestedCall (Program platformInterface)) (machine : Machine) (w : σ)
    (next : Machine) (w' : σ) : Prop :=
  ∃ moves, ∀ fuel, moves ≤ fuel → ∀ outcome w'',
    ComesTo (I := platformInterface) answer (around.drive (fuel + 1) machine) w outcome w'' ↔
      ComesTo (I := platformInterface) answer (around.drive fuel next) w' outcome w''

/-- The caller gets an error, and keeps what it had. -/
def GetsError (answer : (op : PlatformOp) → StateM σ op.Answer)
    (around : Surroundings NestedCall (Program platformInterface)) (machine : Machine)
    (c : HostCall) (w w' : σ) : Prop :=
  ∃ failure heap, Heap.Keeps none c.heap heap ∧
    Continues answer around machine w (c.resume (.error (.failure failure)) heap) w'

end Continuing

namespace Gateway

/-- A script calls a saved script with a name and an argument, and its library is in
its place.  Calls of built-in functions are not as deep as they may be. -/
structure Calls (functions : List (HostFunction NestedCall)) (machine : Machine) (c : HostCall)
    (name argument : Value) :
    Prop where
  waits : machine.next = .waits c
  bound : functions[c.host]? = some ⟨2, hostCall⟩
  given : adjust 2 c.args = [name, argument]
  library : c.heap.Unmodified
  room : c.depth.nested + 2 < Depth.nestedLimit

section Caller

variable {functions : List (HostFunction NestedCall)} {machine : Machine} {c : HostCall}
  {name argument : Value} {outer : Depth}
  {base heap : Heap} {below : List Value} {p q : Parcel} {t : String}

theorem Calls.admits (calls : Calls functions machine c name argument) {n : Nat}
    (few : c.depth.calls + n < c.depth.limit) :
    (hostDepth c.depth).Admits n 1 := by
  have room := calls.room
  exact ⟨few, Nat.add_right_comm c.depth.nested 1 1 ▸ room⟩

/-- The function of the host starts on the two values, and the script goes on after it. -/
theorem Calls.drive_eq (calls : Calls functions machine c name argument) {m : Type → Type} [Monad m]
    (around : Surroundings NestedCall m) (bound : around.functions = functions) (fuel : Nat) :
    around.drive (fuel + 1) machine = (do
      let (ended, stack) ← (around.evaluate (around.drive fuel) c.depth hostCall).run
        ⟨c.heap, [argument, name]⟩
      around.drive fuel (Surroundings.resume c ended stack)) := by
  have frame : Surroundings.frame ⟨2, hostCall⟩ c = ⟨c.heap, [argument, name]⟩ := by
    rw [Surroundings.frame, calls.given]
    rfl
  rw [Surroundings.drive, calls.waits]
  simp only [bound, calls.bound, frame]
  rfl

theorem marshalled_comes
    (encodes : Comes outer (encode (Q := NestedCall)) ⟨base, argument :: .ofText t :: below⟩ p
      ⟨heap, .ofText t :: below⟩) :
    Comes outer marshalled ⟨base, argument :: .ofText t :: below⟩ ⟨t, p⟩ ⟨heap, below⟩ :=
  .bind encodes (.bind (comes_popText heap below (Parcel.fromUTF8?_toUTF8 t)) (.pure _ _))

theorem getsError_of_continues {around : Surroundings NestedCall (Program platformInterface)}
    (e : EngineError) (below : List Value)
    (keeps : Heap.Keeps none c.heap heap)
    (continues : Continues answer around machine w
      (Surroundings.resume c (.error e) ⟨heap, below⟩) w₁) :
    GetsError answer around machine c w w₁ :=
  ⟨⟨heap.failures, e.asFailure⟩, (heap.newFailure e.asFailure).2,
    keeps.trans (.newFailure heap e.asFailure), continues⟩

/-- Any other argument is put in a parcel that carries what it says. -/
theorem Calls.takes (calls : Calls functions machine c (.ofText t) argument) {n : Nat}
    (descends : Descends c.heap [] n argument)
    (few : c.depth.calls + (n + 3) < c.depth.limit) (taken : ¬Refused c.heap [] argument) :
    ∃ p heap, Comes c.depth marshalled ⟨c.heap, [argument, .ofText t]⟩ ⟨t, p⟩ ⟨heap, []⟩ ∧
      Heap.Keeps none c.heap heap ∧
      ∀ d, Represents c.heap argument d → d.depth ≤ 100 → d.width < 0x7FFFFFFF →
        c.depth.calls + (d.depth + 3) < c.depth.limit → Carries p d := by
  obtain ⟨p, heap, comes, keeps⟩ :=
    encode_taken (Q := NestedCall) calls.library descends (calls.admits few) [.ofText t] taken
  refine ⟨p, heap, marshalled_comes comes, keeps, fun d means shallow narrow few => ?_⟩
  have crosses : Crosses c.heap argument d :=
    ⟨means, shallow, fun _ => ⟨calls.library.intact, narrow⟩⟩
  obtain ⟨p', heap', comes', carries, -⟩ :=
    encode_crosses (Q := NestedCall) crosses (calls.admits few) [.ofText t]
  obtain ⟨rfl, -⟩ := comes.unique comes'
  exact carries

def replied : Except String Parcel → Evaluation NestedCall Unit
  | .ok result => decode result
  | .error reason => throw (.hostCall hostCallName reason)

theorem answerOf_eq (call : NestedCall) : answerOf call = Evaluation.ask call >>= replied := rfl

section Asking

variable (calls : Calls functions machine c name argument) {call : NestedCall}
  (takes : Comes c.depth marshalled ⟨c.heap, [argument, name]⟩ call ⟨heap, []⟩)

include calls takes

theorem Calls.drive_asks :
    ∃ moves, ∀ {around : Surroundings NestedCall (Program platformInterface)},
    around.functions = functions → ∀ fuel, moves ≤ fuel → around.drive (fuel + 1) machine = (do
      let reply ← around.answer heap.output call
      let (ended, stack) ← (around.evaluate (around.drive fuel) c.depth (replied reply)).run
        ⟨heap.flushed, []⟩
      around.drive fuel (Surroundings.resume c ended stack)) := by
  obtain ⟨moves, run⟩ := takes
  refine ⟨moves, fun bound fuel enough => ?_⟩
  rw [calls.drive_eq _ bound, hostCall_eq, Surroundings.evaluate_bind, run _ fuel enough, pure_bind]
  simp only [answerOf_eq, Surroundings.evaluate_bind, Surroundings.evaluate_ask,
    bind_assoc, pure_bind]

theorem Calls.drive_fails (answer : (op : PlatformOp) → StateM σ op.Answer) :
    ∃ moves, ∀ {around : Surroundings NestedCall (Program platformInterface)},
    around.functions = functions → ∀ fuel, moves ≤ fuel → ∀ {reason : String} {w w₁ : σ},
      ComesTo (I := platformInterface) answer (around.answer heap.output call) w
        (.error reason) w₁ →
        ∀ outcome w'', ComesTo (I := platformInterface) answer (around.drive (fuel + 1) machine)
          w outcome w'' ↔
          ComesTo (I := platformInterface) answer (around.drive fuel
            (Surroundings.resume c (.error (.hostCall hostCallName reason)) ⟨heap.flushed, []⟩)) w₁
              outcome w'' := by
  obtain ⟨moves, asks⟩ := calls.drive_asks takes
  refine ⟨moves, fun bound fuel enough reason w w₁ replies outcome w'' => ?_⟩
  rw [asks bound fuel enough]
  refine (Program.comesTo_bind_of replies).trans ?_
  rfl

section Replies

variable {around : Surroundings NestedCall (Program platformInterface)}
  (bound : around.functions = functions) (keeps : Heap.Keeps none c.heap heap)

include bound

include keeps

theorem Calls.getsError_of_reply {reason : String}
    (replies : ComesTo (I := platformInterface) answer (around.answer heap.output call) w
      (.error reason) w₁) :
    GetsError answer around machine c w w₁ := by
  obtain ⟨moves, fails⟩ := calls.drive_fails takes answer
  exact getsError_of_continues (.hostCall hostCallName reason) [] (keeps.trans (.flushed heap))
    ⟨moves, fun fuel enough => fails bound fuel enough replies⟩

end Replies
end Asking
end Caller

/-- The script of a call, run up to what it returns, which is left on the stack. -/
def returned (g : Gateway) (fuel depth : Nat) (call : NestedCall) : Work (Interpreter NestedCall) :=
  if depth < g.depthLimit then
    g.prepared fuel (g.answersAt fuel (depth + 1)) call.name.toUTF8 fun body =>
      given body call.argument >>= fun _ => called
  else throw (.recursionLimit g.depthLimit)

/-- What the caller has printed is passed on, and what comes of the call then is
the answer to it. -/
theorem answersAt_comesTo (g : Gateway) (fuel depth : Nat) {text : ByteArray} {call : NestedCall}
    {ended : Except GatewayError Parcel}
    (calls : ComesTo (I := platformInterface) answer (g.callAt fuel depth call).run
      (Platform.printed answer text w) ended w₁) :
    ComesTo (I := platformInterface) answer (g.answersAt fuel depth text call) w
      (ended.mapError GatewayError.message) w₁ :=
  (Program.comesTo_bind_of (Program.comesTo_lift (Platform.print text) w)).2
    (Program.comesTo_map.2 ⟨ended, calls, rfl⟩)

namespace Preferring

/-- A script that calls the saved script with the number one. -/
def asking : HostCall := ⟨0, [.ofText "f", .integer 1], base, [], hostDepth outer⟩

/-- The call, about to be made. -/
def caller : Machine :=
  ⟨asking.frames, asking.depth, .invoke ⟨.host 0, asking.args, Site.native⟩ asking.heap⟩

end Preferring

open Preferring

namespace Preferring

end Preferring

namespace Finalized

/-- A script that marks a table with a finalizer, and calls the saved script. -/
def script : ByteArray :=
  bytes (ascii
    "setmetatable({}, {__gc = function() x = 1 end}) local t = internal_TA_call('f', 't') return x")

def calling : List Stmt :=
  [.declare 1
    [.call (DumpChunk.global hostCallName 0 1) [DumpChunk.text "f", DumpChunk.text "t"] 1],
    .ret [DumpChunk.global "x" 1 1]]

def chunk : Function := .mk 0 true (marking [setting "x" 1] :: calling)

theorem read_script : Chunk.read script = .ok chunk := read_of_readsAs (by decide +kernel)

section Runs

variable {h : Heap} {outer : Depth} (fresh : h.collector = {})

/-- The heap that the script calls from. -/
def marked (h : Heap) : Heap := h.afterMarking chunk scriptChunk [setting "x" 1]

include fresh

theorem reaches_call (room : (hostDepth outer).Admits 1 0) (plain : h.Plain Heap.globals)
    (setmetatable : h.get Heap.globals (.ofAscii "setmetatable") = .builtin .setmetatable)
    (host : h.get Heap.globals (.ofAscii hostCallName) = .host 0) :
    ∃ frames site, site.nested = false ∧
      Reaches (.ofCall outer (.closure h.closures.size) [] (h.loaded chunk scriptChunk))
        ⟨frames, (hostDepth outer).enter site,
          .invoke ⟨.host 0, [.ofText "f", .ofText "t"], site⟩ (marked h)⟩ := by
  let env : Env := ⟨[h.cells.size], [], Chunk.shownName scriptChunk.toUTF8⟩
  let callee := DumpChunk.global hostCallName 0 1
  have binds : (marked h).Binds env.scope [.table Heap.globals] :=
    .cons (h.bound_afterMarking chunk scriptChunk _) .nil
  have found : evalExpr env callee (marked h) = .done (.host 0) (marked h) :=
    DumpChunk.eval_global hostCallName 0 1 binds rfl ((h.get_afterMarking _ _ _ plain _).trans host)
      rfl
  have given : evalList env [DumpChunk.text "f", DumpChunk.text "t"] (marked h) =
      .done [.ofText "f", .ofText "t"] (marked h) :=
    evalList_cons (DumpChunk.eval_text "f") (evalList_one rfl (DumpChunk.eval_text "t"))
  have asks : execList env calling (marked h) = _ := execList_declare_call found given 1 1 _
  have marks := Heap.gives_afterMarking chunk scriptChunk [setting "x" 1] [] room setmetatable fresh
  have flat := nested_callSite env callee 1
  have starts := (reaches_body (h.stored_loaded chunk scriptChunk) outer []).trans
    (reaches_stmts marks calling _)
  rw [← marked, asks] at starts
  exact ⟨_, callSite env callee 1, flat,
    starts.trans (.call ((Depth.admits_enter_call flat).2 room))⟩

end Runs
end Finalized

end Gateway
end SealedLua
