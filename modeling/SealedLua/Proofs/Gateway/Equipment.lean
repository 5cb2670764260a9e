import SealedLua.Proofs.Confinement.Circumstances
import SealedLua.Proofs.Engine.Preparation
import SealedLua.Proofs.Engine.Refusing
import SealedLua.Proofs.Gateway.Records

/-!
# The interpreter that a script gets

A gateway makes an interpreter for each script that it runs, and binds the function
for nested calls in it.  The library is in its place there and nothing is marked for
finalization.  A script that comes to its end there does so on the platform, and what
it has printed is passed on after that.
-/

namespace SealedLua

open Lua
open Program (ComesTo)

variable {σ α : Type} {answer : (op : PlatformOp) → StateM σ op.Answer}

/-- The state of a platform after a text was printed. -/
def Platform.printed (answer : (op : PlatformOp) → StateM σ op.Answer)
    (text : ByteArray) (s : σ) : σ :=
  ((Program.run (I := platformInterface) answer (Platform.print text)).run s).2

section Parts

variable {Q : Type}

/-- Puts a script on a stack, and its argument on top of it. -/
def given (script : ByteArray) (argument : Parcel) : Evaluation Q Unit := do
  Evaluation.op (.load script scriptChunk)
  decode argument

def applied : Evaluation Q Parcel := do
  Evaluation.op .duplicateTop
  Evaluation.op (.setGlobal argumentName)
  Evaluation.op (.call 1 1)
  encode

/-- Runs the script below an argument, and leaves what it returns. -/
def called : Evaluation Q Unit := do
  Evaluation.op .duplicateTop
  Evaluation.op (.setGlobal argumentName)
  Evaluation.op (.call 1 1)

theorem applied_eq : (applied : Evaluation Q Parcel) = called >>= fun _ => encode := by
  refine Eq.trans ?_ (bind_assoc _ _ _).symm
  exact congrArg (Evaluation.op .duplicateTop >>= ·) (funext fun _ => (bind_assoc _ _ _).symm)

theorem comes_called {outer : Depth} {h h' : Heap} {id : ClosureId} {v x : Value}
    (plain : h.Plain Heap.globals) (data : ∀ f, v ≠ .failure f)
    (returns : Returns (hostDepth outer) ⟨.closure id, [v], Site.native⟩
      (h.set Heap.globals (.ofText argumentName) v) [x] h')
    (below : List Value) :
    Comes (Q := Q) outer called ⟨h, v :: .closure id :: below⟩ () ⟨h', x :: below⟩ := by
  have stores : ∀ {m : Type → Type} [Monad m] (run : Machine → OptionT m Outcome),
      Stack.perform run outer ⟨h, v :: v :: .closure id :: below⟩ (.setGlobal argumentName) =
        pure (.ok (),
          ⟨h.set Heap.globals (.ofText argumentName) v, v :: .closure id :: below⟩) := by
    intro m _ run
    rw [Stack.perform_setGlobal run outer plain.bare, h.pass_eq data]
  have calls : ∀ w ∈ [v], ∀ f, w ≠ .failure f := fun w mem => List.eq_of_mem_singleton mem ▸ data
  exact .bind (.op_pure fun _ => rfl) (.bind (.op_pure stores) (.call calls returns))

theorem execute_eq (script : ByteArray) (argument : Parcel) :
    (execute script argument : Evaluation Q Parcel) = given script argument >>=
    fun _ => applied := by
  refine Eq.trans ?_ (bind_assoc _ _ _).symm
  rfl

theorem Work.ofInterpreter_comesTo
    {x : OptionT (Program platformInterface) (Except EngineError α × Interpreter Q)} {s s' : σ}
    {a : α} {i : Interpreter Q}
    (ends : ComesTo (I := platformInterface) answer (Work.ofInterpreter x).run s (.ok (a, i)) s') :
    ComesTo (I := platformInterface) answer x s (.ok a, i) s' := by
  obtain ⟨⟨result, j⟩, t, first, rest⟩ := Program.comesTo_bind.1 ends
  cases result with
  | error e =>
    obtain ⟨same, -⟩ := Program.comesTo_pure.1 rest
    cases same
  | ok b =>
    obtain ⟨same, rfl⟩ := Program.comesTo_pure.1 rest
    cases same
    exact first

/-- The last work of an interpreter in which nothing is marked.  Then the rest is printed. -/
theorem Work.finishing_comesTo
    {x : OptionT (Program platformInterface) (Except EngineError α × Interpreter Q)}
    {s s' : σ} {result : Except EngineError α} {i : Interpreter Q}
    (ends : ComesTo (I := platformInterface) answer x s (result, i) s')
    (unmarked : i.stack.heap.collector.marked = []) (fuel : Nat)
    (answers : ByteArray → Q → OptionT (Program platformInterface) (Except String Parcel)) :
    ComesTo (I := platformInterface) answer (Work.finishing fuel answers x).run s
      (result.mapError .ofEngine)
      (Platform.printed answer i.stack.heap.output s') := by
  have ended : i.finish fuel answers = pure i := by
    rw [Interpreter.finish, unmarked]
    rfl
  have printed : ComesTo (I := platformInterface) answer
      (OptionT.lift (Platform.print i.stack.heap.output)) s' _ _ :=
    Program.comesTo_lift _ s'
  have rest : ComesTo (I := platformInterface) answer (do
      let i ← i.finish fuel answers
      OptionT.lift (Platform.print i.stack.heap.output)
      return result.mapError .ofEngine : OptionT Platform (Except GatewayError α)) s'
        (result.mapError .ofEngine) (Platform.printed answer i.stack.heap.output s') := by
    rw [ended, pure_bind]
    exact (Program.comesTo_bind_of printed).2 (Program.comesTo_pure.2 ⟨rfl, rfl⟩)
  exact (Program.comesTo_bind_of ends).2 rest

/-- The first function of the host is bound in a heap whose globals have no metatable. -/
theorem Interpreter.bind_plain {m : Type → Type} [Monad m] [LawfulMonad m] {h : Heap}
    (plain : h.Plain Heap.globals) (fuel : Nat)
    (answer : Q → OptionT m (Except String Parcel)) (name : String) (f : HostFunction Q) :
    (⟨⟨h, []⟩, []⟩ : Interpreter Q).bind fuel answer name f =
      pure (.ok (), ⟨⟨h.set Heap.globals (.ofText name) (.host 0), []⟩, [f]⟩) :=
  bind_bare ⟨⟨h, []⟩, []⟩ fuel answer plain.bare name f

theorem Work.ofInterpreter_pure (a : α) (i : Interpreter Q) :
    Work.ofInterpreter (pure (.ok a, i)) = pure (a, i) := by
  apply ExceptT.ext
  rw [Work.ofInterpreter, ExceptT.run_mk, pure_bind]
  rfl

end Parts

namespace Gateway

/-- The heap of an interpreter that a gateway has set up for a script. -/
def equipped (circumstances : Circumstances) : Heap :=
  (Interpreter.preparedHeap.under circumstances).set Heap.globals (.ofText hostCallName) (.host 0)

section Equipped

variable (circumstances : Circumstances)

theorem plain_equipped : (equipped circumstances).Plain Heap.globals :=
  (Interpreter.plain_preparedHeap.under circumstances).set _ _ _

theorem closed_equipped : (equipped circumstances).Closed :=
  (Interpreter.closed_preparedHeap.under circumstances).set _ (fun _ _ => rfl) (fun _ _ => rfl)

theorem collector_equipped : (equipped circumstances).collector = {} := by
  rw [equipped, Heap.collector_set, Heap.collector_under, Interpreter.collector_preparedHeap]

theorem unmarked_equipped : (equipped circumstances).collector.marked = [] :=
  congrArg Collector.marked (collector_equipped circumstances)

theorem silent_equipped : (equipped circumstances).output = bytes [] := by
  have kept : (equipped circumstances).output = Interpreter.preparedHeap.output := by
    rw [equipped, Heap.set, Heap.under]
  rw [kept, Interpreter.silent_preparedHeap]

theorem get_equipped {id : TableId} {key : Value} (kept : SandboxChunk.Kept id key)
    (other : (id, key.toKey) ≠ (Heap.globals, .ofText hostCallName)) :
    (equipped circumstances).get id key = Library.initialHeap.get id key := by
  rw [equipped, Heap.get_set_of_ne (Interpreter.plain_preparedHeap.under circumstances) rfl _ other,
    Heap.get_under, Interpreter.get_preparedHeap kept]

theorem global_equipped {name : String} (kept : SandboxChunk.Kept Heap.globals (.ofAscii name))
    (other : (Heap.globals, (Value.ofAscii name).toKey) ≠ (Heap.globals, .ofText hostCallName)) :
    (equipped circumstances).get Heap.globals (.ofAscii name) =
      ((Library.basic.reverse.find? fun e => (Value.ofAscii name).toKey == .ofAscii e.1).map
        (·.2)).getD .nil := by
  rw [get_equipped circumstances kept other, ← Interpreter.get_preparedHeap kept,
    Interpreter.global_preparedHeap name kept]

theorem setmetatable_equipped :
    (equipped circumstances).get Heap.globals (.ofAscii "setmetatable") =
    .builtin .setmetatable := by
  rw [global_equipped circumstances (by decide) (by decide)]
  decide +kernel

theorem host_equipped :
    (equipped circumstances).get Heap.globals (.ofAscii hostCallName) = .host 0 :=
  Heap.get_set_self (Interpreter.plain_preparedHeap.under circumstances) rfl _

theorem unmodified_equipped : (equipped circumstances).Unmodified := by
  have intact := Library.intact_initialHeap
  refine .of_gets ?_ ((get_equipped circumstances (by decide) (by decide)).trans
    Library.error_initialHeap)
    ((get_equipped circumstances (by decide) (by decide)).trans Library.negate_initialHeap)
    ((get_equipped circumstances (by decide) (by decide)).trans Library.silent_initialHeap)
  constructor <;> rw [get_equipped circumstances (by decide) (by decide)]
  exacts [intact.type, intact.tostring, intact.pairs, intact.string, intact.table, intact.byte,
    intact.format, intact.gsub, intact.concat, intact.sort]

theorem bind_create (fuel : Nat) {m : Type → Type} [Monad m] [LawfulMonad m]
    (answer : NestedCall → OptionT m (Except String Parcel)) :
    (Interpreter.create circumstances).bind fuel answer hostCallName ⟨2, hostCall⟩ =
      pure (.ok (), ⟨⟨equipped circumstances, []⟩, [⟨2, hostCall⟩]⟩) :=
  Interpreter.bind_plain (Interpreter.plain_preparedHeap.under circumstances) fuel _ _ _

end Equipped

variable {w w₁ w₂ : σ} {p : Parcel}

theorem admitted {circumstances : Circumstances}
    (admits : (answer .admitInterpreter).run w = (.ok circumstances, w₁)) :
    ComesTo (I := platformInterface) answer
      (Work.ofPlatform .ofEngine Platform.admitInterpreter).run w (.ok circumstances) w₁ := by
  have answered : (Program.run (I := platformInterface) answer Platform.admitInterpreter).run w =
      (.ok circumstances, w₁) := admits
  refine (Work.run_ofPlatform _ _ w).trans ?_
  rw [answered]
  rfl

/-- A run comes to what the script comes to, if nothing is marked then.  What it
has printed is passed on. -/
theorem runWith_ends {answers : Answers} {fuel : Nat} {body : ByteArray}
    {result : Except EngineError Parcel} {i : Interpreter NestedCall}
    {circumstances : Circumstances}
    (admits : (answer .admitInterpreter).run w = (.ok circumstances, w₁))
    (ends : ComesTo (I := platformInterface) answer
      ((⟨⟨equipped circumstances, []⟩, [⟨2, hostCall⟩]⟩ : Interpreter NestedCall).evaluate
        fuel answers (execute body p)) w₁ (result, i) w₂)
    (unmarked : i.stack.heap.collector.marked = []) :
    ComesTo (I := platformInterface) answer (runWith fuel answers body p).run w
      (result.mapError .ofEngine) (Platform.printed answer i.stack.heap.output w₂) := by
  refine Program.comesTo_bind_ok (admitted admits) ?_
  simp only [bind_create, Work.ofInterpreter_pure, pure_bind]
  exact Work.finishing_comesTo ends unmarked fuel answers

/-- A script is run that comes to its end whatever answers it. -/
theorem runWith_comesTo (answers : Nat → Answers) {body : ByteArray} {result : Parcel} {s : Stack}
    {circumstances : Circumstances}
    (admits : (answer .admitInterpreter).run w = (.ok circumstances, w₁))
    (comes : Comes (Q := NestedCall) (.outermost circumstances.callLimit) (execute body p)
      ⟨equipped circumstances, []⟩ result s) (unmarked : s.heap.collector.marked = []) :
    ∃ moves, ∀ fuel, moves ≤ fuel →
      ComesTo (I := platformInterface) answer (runWith fuel (answers fuel) body p).run w
        (.ok result) (Platform.printed answer s.heap.output w₁) := by
  let new : Interpreter NestedCall := ⟨⟨equipped circumstances, []⟩, [⟨2, hostCall⟩]⟩
  obtain ⟨moves, run⟩ := Comes.run (i := new) comes
  refine ⟨moves, fun fuel enough => ?_⟩
  have ends : ComesTo (I := platformInterface) answer
      (new.evaluate fuel (answers fuel) (execute body p))
      w₁ (.ok result, { new with stack := s }) w₁ := by
    rw [run (answers fuel) fuel enough]
    exact Program.comesTo_pure.2 ⟨rfl, rfl⟩
  exact runWith_ends admits ends unmarked

/-- An interpreter of a saved script, and what a program leaves in it. -/
def prepared (g : Gateway) (fuel : Nat) (answers : Answers) (name : ByteArray)
    (program : ByteArray → Evaluation NestedCall Unit) : Work (Interpreter NestedCall) := do
  let body ← g.loadScript name
  let circumstances ← Work.ofPlatform .ofEngine Platform.admitInterpreter
  let i := Interpreter.create circumstances
  let ((), i) ← Work.ofInterpreter (i.bind fuel (answers (bytes [])) hostCallName ⟨2, hostCall⟩)
  let ((), i) ← Work.ofInterpreter (i.evaluate fuel answers (program body))
  return i

variable {g : Gateway} {fuel : Nat} {name : ByteArray}

theorem prepared_comesTo (g : Gateway) (answers : Nat → Answers)
    (program : ByteArray → Evaluation NestedCall Unit)
    {body : ByteArray} {s : Stack} {circumstances : Circumstances}
    (loads : ComesTo (I := platformInterface) answer (g.loadScript name).run w (.ok body) w₁)
    (admits : (answer .admitInterpreter).run w₁ = (.ok circumstances, w₂))
    (comes : Comes (.outermost circumstances.callLimit) (program body)
      ⟨equipped circumstances, []⟩ () s) :
    ∃ moves, ∀ fuel, moves ≤ fuel →
      ComesTo (I := platformInterface) answer (g.prepared fuel (answers fuel) name program).run w
      (.ok ⟨s, [⟨2, hostCall⟩]⟩) w₂ := by
  obtain ⟨moves, run⟩ := Comes.run (i := ⟨⟨equipped circumstances, []⟩, [⟨2, hostCall⟩]⟩) comes
  refine ⟨moves, fun fuel enough => ?_⟩
  refine Program.comesTo_bind_ok loads (Program.comesTo_bind_ok (admitted admits) ?_)
  simp only [bind_create, Work.ofInterpreter_pure, pure_bind, run (answers fuel) fuel enough]
  exact Program.comesTo_pure.2 ⟨rfl, rfl⟩

/-- A script that was found and has got so far in its interpreter is run to its end there. -/
theorem exists_runWith_of_prepared {answers : Answers}
    {program : ByteArray → Evaluation NestedCall Unit} {i : Interpreter NestedCall}
    (got : ComesTo (I := platformInterface) answer (g.prepared fuel answers name program).run
      w (.ok i) w₁) :
    ∃ body t, ComesTo (I := platformInterface) answer (g.loadScript name).run w (.ok body) t ∧
      ∀ {p : Parcel} {ended : Except EngineError Parcel} {k : Interpreter NestedCall} {w' : σ}
        (rest : Evaluation NestedCall Parcel),
        ComesTo (I := platformInterface) answer (i.evaluate fuel answers rest) w₁ (ended, k) w' →
        (execute body p = program body >>= fun _ => rest) → k.stack.heap.collector.marked = [] →
        ComesTo (I := platformInterface) answer (runWith fuel answers body p).run t
          (ended.mapError .ofEngine)
          (Platform.printed answer k.stack.heap.output w') := by
  obtain ⟨body, t, loads, got⟩ := Program.comesTo_ok_of_bind got
  obtain ⟨circumstances, u, admits, got⟩ := Program.comesTo_ok_of_bind got
  let new : Interpreter NestedCall := ⟨⟨equipped circumstances, []⟩, [⟨2, hostCall⟩]⟩
  simp only [bind_create, Work.ofInterpreter_pure, pure_bind] at got
  obtain ⟨⟨⟨⟩, j⟩, v, got, returns⟩ := Program.comesTo_ok_of_bind got
  obtain ⟨same, rfl⟩ := Program.comesTo_pure.1 returns
  obtain rfl : i = j := Except.ok.inj same
  have first : ComesTo (I := platformInterface) answer (new.evaluate fuel answers (program body)) u
      (.ok (), i) w₁ :=
    Work.ofInterpreter_comesTo got
  refine ⟨body, t, loads, fun {p ended k w'} rest second parts unmarked => ?_⟩
  obtain ⟨table, stored, -⟩ := plain_equipped circumstances
  have both : ComesTo (I := platformInterface) answer (new.evaluate fuel answers (execute body p)) u
      (ended, k) w' := by
    rw [parts, new.evaluate_bind fuel _ (Array.getElem?_eq_some_iff.1 stored).1]
    exact (Program.comesTo_bind_of first).2 second
  refine Program.comesTo_bind_ok admits ?_
  simp only [bind_create, Work.ofInterpreter_pure, pure_bind]
  exact Work.finishing_comesTo both unmarked fuel answers

section Given

variable {Q : Type} {body : ByteArray} {function : Function}

theorem given_number (read : Chunk.read body = .ok function) (outer : Depth)
    (n : Int64) (h : Heap) :
    Comes (Q := Q) outer (given body (.number n)) ⟨h, []⟩ ()
      ⟨h.loaded function scriptChunk, [.integer n, .closure h.closures.size]⟩ :=
  .bind (.load (Stack.load_loaded read (by decide) h [])) (.op_pure fun _ => rfl)

theorem given_code (read : Chunk.read body = .ok function) {outer : Depth}
    {code : String} {routine : Function}
    (read' : Chunk.read code.toUTF8 = .ok routine) {h h' : Heap} {v : Value}
    (returns : Returns (hostDepth outer) ⟨.closure (h.loaded function scriptChunk).closures.size,
      [], Site.native⟩
      ((h.loaded function scriptChunk).loaded routine codeChunk) [v] h') :
    Comes (Q := Q) outer (given body (.code code)) ⟨h, []⟩ () ⟨h', [v, .closure h.closures.size]⟩ :=
  .bind (.load (Stack.load_loaded read (by decide) h []))
    (.bind (.load (Stack.load_loaded read' (by decide) _ _))
      (.call (List.forall_mem_nil _) returns))

end Given

end Gateway
end SealedLua
