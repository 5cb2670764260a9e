import SealedLua.Proofs.Confinement.Circumstances
import SealedLua.Proofs.Engine.Finalizing
import SealedLua.Proofs.Gateway.Equipment
import SealedLua.Proofs.Gateway.Nesting
import SealedLua.Proofs.Gateway.Routes
import SealedLua.Proofs.Renaming.Interpreters

/-!
# Arguments of saved scripts

Code that a caller gives as an argument runs in the interpreter that the saved
script then uses, so it can leave more behind than its value.  The run of a
saved script falls into two parts, the evaluation of the argument and the run on
what it leaves.  Arguments after which interpreters hold the same lead to the
same result; where the objects are in the interpreters counts only for a script
to which it is revealed, and what was printed on the way for none.
-/

namespace SealedLua

open Lua
open Program (Only ComesTo SameWork)

variable {σ τ α β : Type} {answer : (op : PlatformOp) → StateM σ op.Answer}

/-- Printing, which no answer depends on. -/
inductive Prints : platformInterface.Op → Prop where
  | print (text : ByteArray) : Prints (PlatformOp.print text)

namespace Platform

/-- A relation between states of a platform that reads cannot tell apart, however they
go on, whatever is printed on one side only. -/
structure Indistinct (answer : (op : PlatformOp) → StateM σ op.Answer)
    (related : σ → σ → Prop) : Prop where
  reads {op : PlatformOp} {s t : σ} (read : Reads op) (h : related s t) :
    ∃ x s' t', (answer op).run s = (x, s') ∧ (answer op).run t = (x, t') ∧ related s' t'
  prints (text : ByteArray) {s t : σ} (h : related s t) :
    related ((answer (.print text)).run s).2 t ∧ related s ((answer (.print text)).run t).2

/-- States of a platform between which reads cannot tell, however they go on. -/
def ReadsAlike (answer : (op : PlatformOp) → StateM σ op.Answer) (s t : σ) : Prop :=
  ∃ related, Indistinct answer related ∧ related s t

namespace Indistinct

variable {related : σ → σ → Prop} (h : Indistinct answer related)

include h

/-- States that cannot be told from one state cannot be told from each other. -/
theorem shared : Indistinct answer fun s t => ∃ u, related u s ∧ related u t where
  reads := by
    rintro op s t read ⟨u, hs, ht⟩
    obtain ⟨x, u', s', asked, first, hs'⟩ := h.reads read hs
    obtain ⟨y, u'', t', asked', second, ht'⟩ := h.reads read ht
    cases asked.symm.trans asked'
    exact ⟨x, s', t', first, second, u', hs', ht'⟩
  prints text := by
    rintro s t ⟨u, hs, ht⟩
    exact ⟨⟨u, (h.prints text hs).2, ht⟩, ⟨u, hs, (h.prints text ht).2⟩⟩

/-- Programs that only read and do the same but for printing come to the same. -/
theorem comesTo {p q : OptionT (Program platformInterface) α} (same : SameWork Prints Eq p q)
    (only : Only Reads p.run) {s t s' : σ} {a : α} (start : related s t)
    (ends : ComesTo (I := platformInterface) answer p s a s') :
    ∃ t', ComesTo (I := platformInterface) answer q t a t' := by
  have results := Program.Same.results_of_related (I := platformInterface) related
    (fun _ _ _ read h' => h.reads read h')
    (fun _ _ _ silent h' => by cases silent with | print text => exact h.prints text h')
    same only start
  have ends : (Program.run (I := platformInterface) answer p.run).run s = (some a, s') := ends
  rw [ends] at results
  generalize ended : (Program.run (I := platformInterface) answer q.run).run t = r at results
  obtain ⟨result, t'⟩ := r
  cases results with
  | some eq => exact ⟨t', eq ▸ ended⟩

end Indistinct
end Platform

/-- Printing one text is the same as printing another, but for printing. -/
theorem Gateway.printing_same (text text' : ByteArray) :
    SameWork Prints Eq (printing text) (printing text') := by
  have nothing : SameWork Prints Eq (pure () : OptionT Platform Unit) (pure ()) := .pure rfl
  unfold printing
  rcases Platform.print_eq text with first | first <;>
    rcases Platform.print_eq text' with second | second <;>
    rw [first, second]
  · exact nothing
  · exact .right (.print text') fun _ => nothing
  · exact .left (.print text) fun _ => nothing
  · exact .left (.print text) fun _ => .right (.print text') fun _ => nothing

/-- What is heard of a run: its result in the slots, or the failure. -/
def Slots.output (ended : Except GatewayError Unit × Slots) : Except GatewayError (Slot × Slot) :=
  ended.1.map fun _ => (ended.2.q, ended.2.s)

section Engine

variable {Q : Type} {m : Type → Type} [Monad m]

/-- A function of a script that calls nothing is run in four moves, and none of
them reveals anything. -/
theorem Surroundings.driveHidden_call (around : Surroundings Q m) (fuel : Nat) (outer : Depth)
    {id : ClosureId} {f : Closure}
    {args results : List Value} {h h' : Heap} (stored : h.closures[id]? = some f)
    (body : f.enter args h = .done (.ret results) h') :
    around.driveHidden (fuel + 4) (.ofCall outer (.closure id) args h) =
      pure (.finished results h') := by
  have move : ∀ {machine next : Machine} (fuel : Nat), machine.reveals = false →
      machine.next = .more next →
      around.driveHidden (fuel + 1) machine = around.driveHidden fuel next := by
    intro machine next fuel hidden moves
    rw [driveHidden, hidden, moves]
    rfl
  have entered : (h.closure id).enter args h = .done (.ret results) h' := by
    rw [Heap.closure_eq stored, body]
  rw [Machine.ofCall, Machine.start, move _ rfl rfl, move _ rfl rfl, entered,
    move _ rfl rfl, driveHidden]
  rfl

theorem Interpreter.runHidden_applied [LawfulMonad m] {h h' : Heap} {a n : Int64} {w : Value}
    {id : ClosureId} {f : Closure}
    (plain : h.Plain Heap.globals) (stored : h.closures[id]? = some f)
    (body : f.enter [.integer a] (h.set Heap.globals (.ofText argumentName) (.integer a)) =
      .done (.ret [w]) h')
    (kind : ValueKind.ofValue w = .integer) (number : w.integer? = some n)
    (unmarked : h'.collector.marked = []) (functions : List (HostFunction Q))
    (answer : ByteArray → Q → OptionT m (Except String Parcel)) (fuel : Nat) :
    (⟨⟨h, [.integer a, .closure id]⟩, functions⟩ : Interpreter Q).runHidden
      (fuel + 4) answer applied =
      pure (.ok (.number n)) := by
  let around : Surroundings Q m := ⟨functions, answer⟩
  let i : Interpreter Q := ⟨⟨h, [.integer a, .closure id]⟩, functions⟩
  let given := h.set Heap.globals (.ofText argumentName) (.integer a)
  have stores := Stack.perform_setGlobal (around.driveHidden (fuel + 4)) i.outermost plain.bare
    argumentName (.integer a) [.integer a, .closure id]
  have calls : Stack.perform (around.driveHidden (fuel + 4)) i.outermost
      ⟨given, [.integer a, .closure id]⟩ (.call 1 1) =
      pure (.ok (), ⟨h', [w]⟩) := by
    have called : around.driveHidden (fuel + 4)
        (.ofCall i.outermost (.closure id) [.integer a] given) =
        pure (.finished [w] h') := around.driveHidden_call fuel i.outermost stored body
    have unfolded : Stack.perform (around.driveHidden (fuel + 4)) i.outermost
        ⟨given, [.integer a, .closure id]⟩ (.call 1 1) = (do
        let outcome ← around.driveHidden (fuel + 4)
          (.ofCall i.outermost (.closure id) [.integer a] given)
        return Stack.afterwards [] 1 outcome) := rfl
    rw [unfolded, called, pure_bind]
    rfl
  have peeks : Stack.perform (around.driveHidden (fuel + 4)) i.outermost ⟨h', [w]⟩ .peekKind =
      pure (.ok ValueKind.integer, ⟨h', [w]⟩) := by
    rw [← kind]
    rfl
  have pops : Stack.perform (around.driveHidden (fuel + 4)) i.outermost ⟨h', [w]⟩ .popInteger =
      pure (.ok n, ⟨h', []⟩) := by
    have read : Stack.readInteger w = .ok n := by rw [Stack.readInteger, number]
    exact congrArg (fun x => pure (x, (⟨h', []⟩ : Stack))) read
  have ended : (around.evaluate (around.driveHidden (fuel + 4)) i.outermost applied).run i.stack =
      pure (.ok (.number n), ⟨h', []⟩) := by
    refine (around.evaluate_op_bind (o := .duplicateTop) rfl _).trans ?_
    refine (around.evaluate_op_bind stores _).trans ?_
    refine (around.evaluate_op_bind calls _).trans ?_
    refine (around.evaluate_op_bind peeks _).trans ?_
    exact around.evaluate_op_bind pops _
  have kept : i.runHidden (fuel + 4) answer applied = (do
      let ended ←
        (around.evaluate (around.driveHidden (fuel + 4)) i.outermost applied).run i.stack
      if ended.2.heap.collector.marked.isEmpty then return ended.1 else failure) := rfl
  rw [kept, ended, pure_bind]
  simp only [unmarked]
  rfl

end Engine

namespace Gateway

/-- The answers to the calls of a script that a caller has run. -/
def callers (g : Gateway) (fuel : Nat) : Answers := g.answersAt fuel 0

/-- The evaluation of an argument for a saved script, and what it leaves. -/
def evaluated (g : Gateway) (fuel : Nat) (name : ByteArray) (argument : Parcel) :
    Work (Interpreter NestedCall) :=
  g.prepared fuel (g.callers fuel) name (given · argument)

theorem run_depthLimit (g : Gateway) (fuel : Nat) (script : ByteArray) (argument : Parcel) :
    g.run fuel g.depthLimit script argument = runWith fuel (g.callers fuel) script argument := by
  rw [callers, ← g.run_eq_runWith fuel (Nat.zero_le _), Nat.sub_zero]

/-- What was printed before a nested call does not matter for its answer. -/
theorem callers_same (g : Gateway) (fuel : Nat) (text text' : ByteArray) (call : NestedCall) :
    SameWork Prints Eq (g.callers fuel text call) (g.callers fuel text' call) :=
  (printing_same text text').bind fun _ _ _ => .refl _

theorem callers_only (g : Gateway) (fuel : Nat) (text : ByteArray) (call : NestedCall) :
    Only Reads (g.callers fuel text call).run := by
  refine answered_only ?_ text
  unfold callAt
  split
  · exact Only.bindExcept (loadScript_only .openRead g _) fun body =>
      run_only g fuel _ body call.argument
  · exact .done _

theorem runHidden_only (g : Gateway) (fuel : Nat) (i : Interpreter NestedCall)
    (p : Evaluation NestedCall α) :
    Only Reads (i.runHidden fuel (g.callers fuel) p).run := by
  have answers : ∀ text call, (Correspondence.only Reads).Rel (g.callers fuel text call) failure :=
    g.callers_only fuel
  exact i.runHidden_corresponds (Correspondence.only Reads) (fun _ => .done _) answers fuel p

variable {g : Gateway} {fuel : Nat} {w w₁ w₂ w' : σ} {name : ByteArray} {p : Parcel}
  {i : Interpreter NestedCall} {ended : Except EngineError Parcel}

/-- A run on what the evaluation of an argument leaves is the end of the run of the script. -/
theorem runSaved_comesTo
    (evaluates : ComesTo (I := platformInterface) answer (g.evaluated fuel name p).run w (.ok i) w₁)
    (ends : ComesTo (I := platformInterface) answer (i.runHidden fuel (g.callers fuel) applied)
      w₁ ended w') :
    ∃ w'', ComesTo (I := platformInterface) answer (g.runSaved fuel name p).run w
      (ended.mapError .ofEngine) w'' := by
  obtain ⟨body, t, loads, runs⟩ := exists_runWith_of_prepared evaluates
  have plain := i.runHidden_corresponds (Correspondence.completion (I := platformInterface) answer)
    Correspondence.completion_failure (fun text q _ _ _ comes => comes) fuel applied _ _ _ ends
  obtain ⟨⟨result, k⟩, t', second, kept⟩ := Program.comesTo_bind.1 plain
  dsimp only at kept
  split at kept
  case isFalse => cases kept
  case isTrue unmarked =>
  obtain ⟨rfl, rfl⟩ := Program.comesTo_pure.1 kept
  refine ⟨Platform.printed answer k.stack.heap.output w', Program.comesTo_bind_ok loads ?_⟩
  rw [run_depthLimit]
  exact runs applied second (execute_eq body p) (List.isEmpty_iff.1 unmarked)

theorem runRequest_saved (g : Gateway) (fuel : Nat) {x : RunSlots} (holds : g.argument x = .ok p) :
    g.runRequest fuel x true = g.runSaved fuel x.script p := by
  unfold runRequest
  rw [holds]
  rfl

/-- What is heard of a run that succeeds does not depend on the slots before it. -/
theorem output_concluded (g : Gateway) (x y : RunSlots) (ended : Except GatewayError Parcel) :
    Slots.output (g.concluded x ended) = Slots.output (g.concluded y ended) := by
  cases ended with
  | error e => rfl
  | ok result =>
    unfold concluded conclude
    cases h : result.toSlots g.capacity <;> simp only [h] <;> rfl

theorem evaluated_comesTo (g : Gateway) {body : ByteArray} {s : Stack}
    {circumstances : Circumstances}
    (loads : ComesTo (I := platformInterface) answer (g.loadScript name).run w (.ok body) w₁)
    (admits : (answer .admitInterpreter).run w₁ = (.ok circumstances, w₂))
    (comes : Comes (Q := NestedCall) (.outermost circumstances.callLimit) (given body p)
      ⟨equipped circumstances, []⟩ () s) :
    ∃ moves, ∀ fuel, moves ≤ fuel →
      ComesTo (I := platformInterface) answer (g.evaluated fuel name p).run w
        (.ok ⟨s, [⟨2, hostCall⟩]⟩) w₂ :=
  g.prepared_comesTo g.callers (given · p) loads admits comes

/-- A saved script whose argument can be evaluated comes to the end of the run
on what that leaves. -/
theorem dispatch_comesTo {x : RunSlots} (saved : x.script = name) (holds : g.argument x = .ok p)
    (evaluates : ComesTo (I := platformInterface) answer (g.evaluated fuel name p).run w (.ok i) w₁)
    (ends : ComesTo (I := platformInterface) answer (i.runHidden fuel (g.callers fuel) applied)
      w₁ ended w') :
    ∃ w'', ComesTo (I := platformInterface) answer (g.dispatch fuel 2 x.slots) w
      (g.concluded x (ended.mapError .ofEngine)) w'' := by
  obtain ⟨w'', run⟩ := runSaved_comesTo evaluates ends
  rw [← saved, ← g.runRequest_saved fuel holds] at run
  have dispatch : g.dispatch fuel 2 x.slots = g.carryOut fuel (runOf x true) :=
    g.dispatch_request fuel (.runSaved x)
  rw [dispatch]
  exact ⟨w'', Program.comesTo_map.2 ⟨_, run, rfl⟩⟩

namespace Preferring

def script : ByteArray := bytes (ascii "return x or arg")

def label : ByteArray := bytes (ascii "f")

def gateway : Gateway := { secret := ⟨bytes (List.replicate 32 0), size_bytes _⟩ }

/-- A host that holds the script under its label. -/
def host : Host := { process := { root := none, memory := ⟨[(Scripts.recordId "f", script)]⟩ } }

def consulted : Host :=
  { host with observation := host.observation.note (.openRead (Scripts.recordId "f")) }

def withPrinted (s : Host) (text : ByteArray) : Host :=
  { s with process := { s.process with printed := text } }

theorem loads (text : ByteArray) :
    ComesTo (I := platformInterface) Host.answer (gateway.loadScript label).run
    (withPrinted host text) (.ok script) (withPrinted consulted text) := by
  have found : (Host.answer (.storage (.openRead (Scripts.recordId "f")))).run
      (withPrinted host text) =
      (.ok (some script), withPrinted consulted text) := by
    have present : host.process.memory.find? (Scripts.recordId "f") = some script := by
      simp [host, Memory.find?]
    have answered : (Host.answer (.storage (.openRead (Scripts.recordId "f")))).run
        (withPrinted host text) =
        (.ok (host.process.memory.find? (Scripts.recordId "f")), withPrinted consulted text) := rfl
    rw [answered, present]
  have read :
    (Program.run (I := platformInterface) Host.answer (Scripts.load gateway.nameLimit label)).run
      (withPrinted host text) = (.ok ⟨"f", script⟩, withPrinted consulted text) := by
    have named : Scripts.checkName gateway.nameLimit label = .ok "f" := rfl
    unfold Scripts.load
    rw [named]
    refine (Program.run_ask_bind (I := platformInterface) found _).trans ?_
    rfl
  unfold Gateway.loadScript
  rw [ExceptT.run_bind]
  refine Program.comesTo_bind.2 ⟨.ok ⟨"f", script⟩, withPrinted consulted text, ?_,
    Program.comesTo_pure.2 ⟨rfl, rfl⟩⟩
  refine (Work.run_ofPlatform _ _ (withPrinted host text)).trans ?_
  rw [read]
  rfl

/-- The circumstances of the interpreter that the script gets. -/
def circumstances : Circumstances := .numbered 0

/-- The host while the script runs. -/
def running : Host := { consulted with interpreters := 1 }

theorem admits (text : ByteArray) :
    (Host.answer .admitInterpreter).run (withPrinted consulted text) =
    (.ok circumstances, withPrinted running text) := rfl

abbrev base : Heap := equipped circumstances

/-- How deep its scripts are called. -/
abbrev outer : Depth := .outermost circumstances.callLimit

def chunk : Function :=
  .mk 0 true [.ret [.or (DumpChunk.global "x" 0 1) (DumpChunk.global "arg" 0 1)]]

theorem read_script : Chunk.read script = .ok chunk := read_of_readsAs (by decide +kernel)

section Runs

variable {h : Heap} {t : Table} {cell : CellId} {environment : ByteArray} {args : List Value}

theorem enters (bound : h.cells[cell]? = some (.table Heap.globals))
    (stored : h.tables[Heap.globals]? = some t) (bare : t.metatable = none) :
    Closure.enter ⟨chunk, [cell], environment⟩ args h =
      .done (.ret [if (t.get (.ofAscii "x")).truthy then t.get (.ofAscii "x")
        else t.get (.ofAscii "arg")]) h := by
  have binds : h.Binds (Env.mk [cell] args environment).scope [.table Heap.globals] :=
    .cons bound .nil
  have chosen : evalExpr ⟨[cell], args, environment⟩
      (.or (DumpChunk.global "x" 0 1) (DumpChunk.global "arg" 0 1)) h =
      .done (if (t.get (.ofAscii "x")).truthy then t.get (.ofAscii "x")
        else t.get (.ofAscii "arg")) h := by
    have unfolded : evalExpr ⟨[cell], args, environment⟩
        (.or (DumpChunk.global "x" 0 1) (DumpChunk.global "arg" 0 1)) h =
        (evalExpr ⟨[cell], args, environment⟩ (DumpChunk.global "x" 0 1) h).bind fun x h =>
          (if x.truthy then pure x
            else evalExpr ⟨[cell], args, environment⟩ (DumpChunk.global "arg" 0 1) :
            Action Value) h := by
      rw [evalExpr]
      rfl
    rw [unfolded, DumpChunk.eval_global_plain "x" 0 1 binds rfl stored bare, Step.bind]
    split
    · rfl
    · exact DumpChunk.eval_global_plain "arg" 0 1 binds rfl stored bare
  rw [chunk, enter_variadic, execList, exec, evalList, evalMulti_one rfl]
  simp only [Action.bind_eq, chosen, Step.bind]
  rfl

theorem enters_on {x v w : Value} (plain : h.Plain Heap.globals)
    (bound : h.cells[cell]? = some (.table Heap.globals))
    (global : h.get Heap.globals (.ofAscii "x") = x) (chosen : (if x.truthy then x else v) = w) :
    Closure.enter ⟨chunk, [cell], environment⟩ args (h.set Heap.globals (.ofText argumentName) v) =
      .done (.ret [w]) (h.set Heap.globals (.ofText argumentName) v) := by
  have key : Value.ofText argumentName = .ofAscii "arg" := rfl
  have ⟨t, stored, bare⟩ := plain
  have later := Heap.tables_set stored (.ofText argumentName) v
  have kept : (t.set (.ofText argumentName) v).get (.ofAscii "x") = x := by
    rw [key, Table.get_set t rfl, if_neg (by decide), ← global, Heap.get_eq stored]
  have argument : (t.set (.ofText argumentName) v).get (.ofAscii "arg") = v := by
    rw [key, Table.get_set t rfl, if_pos rfl]
  rw [enters (h := h.set Heap.globals (.ofText argumentName) v) bound later
    ((Table.metatable_set t _ _).trans bare), kept, argument, chosen]

theorem prefers {Q : Type} {m : Type → Type} [Monad m] [LawfulMonad m] {id : ClosureId}
    {x : Value} {a n : Int64}
    (plain : h.Plain Heap.globals) (made : h.closures[id]? = some ⟨chunk, [cell], environment⟩)
    (bound : h.cells[cell]? = some (.table Heap.globals))
    (global : h.get Heap.globals (.ofAscii "x") = x)
    (chosen : (if x.truthy then x else .integer a) = .integer n)
    (unmarked : h.collector.marked = []) (functions : List (HostFunction Q))
    (answer : ByteArray → Q → OptionT m (Except String Parcel)) (fuel : Nat) :
    (⟨⟨h, [.integer a, .closure id]⟩, functions⟩ : Interpreter Q).runHidden
      (fuel + 4) answer applied =
      pure (.ok (.number n)) :=
  Interpreter.runHidden_applied plain made (enters_on plain bound global chosen)
    rfl rfl unmarked functions answer fuel

end Runs

/-- The heap with the script. -/
def loaded : Heap := base.loaded chunk scriptChunk

theorem plain_loaded : loaded.Plain Heap.globals :=
  (plain_equipped circumstances).loaded chunk scriptChunk

theorem unmarked_loaded : loaded.collector.marked = [] := by
  rw [loaded, Heap.collector_loaded, unmarked_equipped]

def one : Stmt := .ret [.literal (.number (.integer 1))]

def store : Stmt :=
  .assign [.entry (DumpChunk.outer "_ENV" 0) (DumpChunk.text "x") 1]
    [.literal (.number (.integer 5))]

def quiet : Function := .mk 0 true [one]

def meddling : Function := .mk 0 true [store, one]

theorem read_quiet : Chunk.read "return 1".toUTF8 = .ok quiet := read_of_readsAs (by decide +kernel)

theorem read_meddling : Chunk.read "x = 5 return 1".toUTF8 = .ok meddling :=
  read_of_readsAs (by decide +kernel)

section Code

variable {depth : Depth} {env : Env} {h : Heap} {t : Table}

theorem gives_one : Gives depth (execList env [one] h) (.ret [.integer 1]) h :=
  .stmts_stop (fun _ => Lua.Flow.noConfusion)
    (.stmt_ret (.list_one rfl (.of_eq (evalExpr_literal env h _))))

theorem gives_stored (binds : h.Binds env.scope [.table Heap.globals])
    (stored : h.tables[Heap.globals]? = some t) (bare : t.metatable = none) :
    Gives depth (execList env [store, one] h) (.ret [.integer 1])
      (h.set Heap.globals (.ofAscii "x") (.integer 5)) := by
  have stores : Gives depth (exec env store h) (.next env)
      (h.set Heap.globals (.ofAscii "x") (.integer 5)) :=
    gives_setting "x" 5 binds ⟨t, stored, bare⟩
  exact stores.stmts_next gives_one

end Code

theorem given_quiet : Comes (Q := NestedCall) outer (given script (.code "return 1")) ⟨base, []⟩ ()
    ⟨loaded.loaded quiet codeChunk, [.integer 1, .closure base.closures.size]⟩ :=
  given_code read_script read_quiet
    (returns_variadic (loaded.stored_loaded quiet codeChunk) (.of_ret gives_one) _)

theorem given_meddling :
    Comes (Q := NestedCall) outer (given script (.code "x = 5 return 1")) ⟨base, []⟩ ()
    ⟨(loaded.loaded meddling codeChunk).set Heap.globals (.ofAscii "x") (.integer 5),
      [.integer 1, .closure base.closures.size]⟩ := by
  obtain ⟨t, stored, bare⟩ := (plain_loaded.loaded meddling codeChunk)
  exact given_code read_script read_meddling
    (returns_variadic (loaded.stored_loaded meddling codeChunk)
    (.of_ret (gives_stored (.cons (loaded.bound_loaded meddling codeChunk) .nil) stored bare)) _)

end Preferring

/-- An argument counts by what its evaluation leaves.

Two arguments are given to a saved script, each in a call of its own from the same
state.  Both can be evaluated, and after that the interpreters hold the same, with
nothing marked for finalization, and reads cannot tell between the states of the
platform.  If the run on one of the interpreters comes to an end, and nothing
reveals on the way where an object is or what the collector does, then both calls
come to an end with the same result in the slots or the same failure. -/
theorem alike_arguments_run_alike (g : Gateway) (fuel : Nat) {x y : RunSlots} {q : Parcel}
    {j : Interpreter NestedCall} (saved : x.script = name) (saved' : y.script = name)
    (first : g.argument x = .ok p) (second : g.argument y = .ok q)
    (evaluates : ComesTo (I := platformInterface) answer (g.evaluated fuel name p).run w (.ok i) w₁)
    (evaluates' : ComesTo (I := platformInterface) answer
      (g.evaluated fuel name q).run w (.ok j) w₂)
    (alike : i.Alike j) (platforms : Platform.ReadsAlike answer w₁ w₂)
    (ends : ComesTo (I := platformInterface) answer (i.runHidden fuel (g.callers fuel) applied)
      w₁ ended w') :
    ∃ a b u v, ComesTo (I := platformInterface) answer (g.dispatch fuel 2 x.slots) w a u ∧
      ComesTo (I := platformInterface) answer (g.dispatch fuel 2 y.slots) w b v ∧
        Slots.output a = Slots.output b := by
  obtain ⟨functions, core, ρ, ρ', first_stack, second_stack⟩ := alike
  obtain ⟨related, indistinct, start⟩ := platforms
  let k : Interpreter NestedCall := ⟨core, i.functions⟩
  -- both interpreters are compared with the one whose objects they both have
  have back : SameWork Prints Eq (i.runHidden fuel (g.callers fuel) applied)
      (k.runHidden fuel (g.callers fuel) applied) :=
    (Interpreter.runHidden_same (i := k) first_stack rfl (g.callers_same fuel) applied).symm
  have forth : SameWork Prints Eq (k.runHidden fuel (g.callers fuel) applied)
      (j.runHidden fuel (g.callers fuel) applied) :=
    Interpreter.runHidden_same (i := k) second_stack functions (g.callers_same fuel) applied
  obtain ⟨_, middle⟩ := indistinct.comesTo back (g.runHidden_only fuel i applied) start ends
  obtain ⟨_, ends'⟩ := indistinct.shared.comesTo forth (g.runHidden_only fuel k applied)
    ⟨w₁, start, start⟩ middle
  obtain ⟨u, done⟩ := dispatch_comesTo saved first evaluates ends
  obtain ⟨v, done'⟩ := dispatch_comesTo saved' second evaluates' ends'
  exact ⟨_, _, u, v, done, done', g.output_concluded x y _⟩

namespace Preferring

/-- The calls with the number one, and with code for it. -/
def number : RunSlots := ⟨label, ⟨0, 1⟩, ⟨0, 0⟩, bytes []⟩

def code (text : String) : RunSlots := ⟨label, ⟨2, 0⟩, ⟨0, 0⟩, text.toUTF8⟩

/-- What scripts have printed cannot be told from reads. -/
theorem readsAlike (s : Host) : Platform.ReadsAlike Host.answer s s := by
  refine ⟨fun s t => ∃ text, t = { s with process := { s.process with printed := text } },
    ⟨?_, ?_⟩, _, rfl⟩
  · rintro op s _ read ⟨text, rfl⟩
    cases read with
    | openRead id =>
      obtain ⟨⟨root, memory, serial, made, printed, circumstances⟩, files, observation,
        interpreters, limit⟩ := s
      simp only [Host.answer, Host.perform, Process.answerStorage, StateT.run]
      cases observation.intercept (.openRead id) with
      | mk refused noted =>
        cases refused with
        | some x => exact ⟨_, _, _, rfl, rfl, text, rfl⟩
        | none => cases root <;> exact ⟨_, _, _, rfl, rfl, text, rfl⟩
    | admitInterpreter =>
      simp only [Host.answer, StateT.run]
      split <;> exact ⟨_, _, _, rfl, rfl, text, rfl⟩
    | print text' => exact ⟨(), _, _, rfl, rfl, _, rfl⟩
  · rintro text s _ ⟨other, rfl⟩
    exact ⟨⟨other, rfl⟩, ⟨_, rfl⟩⟩

/-- What is left of an evaluation that ends in this heap. -/
def leaving (h : Heap) : Interpreter NestedCall :=
  ⟨⟨h, [.integer 1, .closure base.closures.size]⟩, [⟨2, hostCall⟩]⟩

theorem alike_quiet : (leaving loaded).Alike (leaving (loaded.loaded quiet codeChunk)) := by
  have closed : loaded.Closed := (closed_equipped circumstances).loaded chunk scriptChunk
  have inhabited : 0 < loaded.cells.size :=
    (Array.getElem?_eq_some_iff.1 (base.bound_loaded chunk scriptChunk)).1.pos
  have hold : ∀ v ∈ [.integer 1, .closure base.closures.size], loaded.Holds v :=
    List.forall_mem_cons.2
      ⟨fun _ _ => rfl, List.forall_mem_cons.2 ⟨base.holds_loaded chunk scriptChunk, nofun⟩⟩
  rw [leaving, leaving, loaded.loaded_eq_joined]
  exact Interpreter.alike_joined closed inhabited hold unmarked_loaded _ _ _

theorem get_loaded : loaded.get Heap.globals (.ofAscii "x") = .nil := by
  rw [loaded, Heap.get_of_tables (base.tables_loaded chunk scriptChunk),
    global_equipped circumstances (by decide) (by decide)]
  decide +kernel

/-- The heap with the script and its argument. -/
def ready (v : Value) : Heap := loaded.set Heap.globals (.ofText argumentName) v

theorem unmarked_ready (v : Value) : (ready v).collector.marked = [] := by
  rw [ready, Heap.collector_set, unmarked_loaded]

theorem silent_ready (v : Value) : (ready v).output = bytes [] := by
  have kept : ∀ h : Heap,
      ((h.loaded chunk scriptChunk).set Heap.globals (.ofText argumentName) v).output = h.output :=
    fun _ => rfl
  rw [ready, loaded, kept, silent_equipped]

theorem comes_called {v : Value} (data : ∀ f, v ≠ .failure f) :
    Comes (Q := NestedCall) outer called ⟨loaded, [v, .closure base.closures.size]⟩ ()
      ⟨ready v, [v]⟩ := by
  have bound := base.bound_loaded chunk scriptChunk
  have entered : ((ready v).closure base.closures.size).enter [v] (ready v) =
      .done (.ret [v]) (ready v) := by
    rw [Heap.closure_eq (h := ready v) (base.stored_loaded chunk scriptChunk)]
    exact enters_on plain_loaded bound get_loaded rfl
  exact SealedLua.comes_called plain_loaded data (.of_closure rfl (.of_ret (.of_eq entered))) []

theorem comes_one :
    Comes (Q := NestedCall) outer (execute script (.number 1)) ⟨base, []⟩ (.number 1)
    ⟨ready (.integer 1), []⟩ := by
  rw [execute_eq, applied_eq]
  exact .bind (given_number read_script outer 1 base)
    (.bind (comes_called fun _ => Value.noConfusion)
    (.bind (.op_pure fun _ => rfl) (.bind (.op_pure fun _ => rfl) (.pure _ _))))

/-- Without the global, the script given the number one comes to it. -/
theorem leaving_loaded_comesTo (fuel : Nat) (answers : Answers) :
    ComesTo (I := platformInterface) Host.answer
      ((leaving loaded).runHidden (fuel + 4) answers applied) running
      (.ok (.number 1)) running := by
  rw [leaving, prefers plain_loaded (base.stored_loaded chunk scriptChunk)
    (base.bound_loaded chunk scriptChunk)
    get_loaded rfl unmarked_loaded]
  exact Program.comesTo_pure.2 ⟨rfl, rfl⟩

end Preferring

open Preferring

/-- The number one and code that comes to it, given to a script that prefers a global. -/
theorem number_and_code_run_alike : ∃ fuel i j w w',
    ComesTo (I := platformInterface) Host.answer (gateway.evaluated fuel label (.number 1)).run
      host (.ok i) w ∧
      ComesTo (I := platformInterface) Host.answer
        (gateway.evaluated fuel label (.code "return 1")).run host (.ok j) w' ∧
      ∃ a b u v, ComesTo (I := platformInterface) Host.answer
        (gateway.dispatch fuel 2 number.slots) host a u ∧
        ComesTo (I := platformInterface) Host.answer
          (gateway.dispatch fuel 2 (code "return 1").slots) host b v ∧
        Slots.output a = Slots.output b := by
  obtain ⟨m₁, evaluates⟩ :=
    gateway.evaluated_comesTo (loads _) (admits _) (given_number read_script outer 1 base)
  obtain ⟨m₂, evaluates'⟩ := gateway.evaluated_comesTo (loads _) (admits _) given_quiet
  let fuel := max m₁ m₂ + 4
  have first := evaluates fuel (by omega)
  have second := evaluates' fuel (by omega)
  exact ⟨fuel, _, _, _, _, first, second, alike_arguments_run_alike gateway fuel (x := number)
    (y := code "return 1") rfl rfl rfl rfl first second alike_quiet (readsAlike _)
    (leaving_loaded_comesTo _ _)⟩

/-- Two arguments that are the number one, of which one stores a global that the script prefers. -/
theorem stored_global_changes_run : ∃ fuel i j w w',
    ComesTo (I := platformInterface) Host.answer (gateway.evaluated fuel label (.number 1)).run
      host (.ok i) w ∧
      ComesTo (I := platformInterface) Host.answer
        (gateway.evaluated fuel label (.code "x = 5 return 1")).run host (.ok j) w' ∧
      i.stack.values.head? = some (.integer 1) ∧ j.stack.values.head? = some (.integer 1) ∧
      ∃ a b u v, ComesTo (I := platformInterface) Host.answer
        (gateway.dispatch fuel 2 number.slots) host a u ∧
        ComesTo (I := platformInterface) Host.answer
          (gateway.dispatch fuel 2 (code "x = 5 return 1").slots) host b v ∧
        Slots.output a = .ok (.value .inout ⟨0, 1⟩, .buffer .inout (bytes [])) ∧
        Slots.output b = .ok (.value .inout ⟨0, 5⟩, .buffer .inout (bytes [])) := by
  obtain ⟨m₁, evaluates⟩ :=
    gateway.evaluated_comesTo (loads _) (admits _) (given_number read_script outer 1 base)
  obtain ⟨m₂, evaluates'⟩ := gateway.evaluated_comesTo (loads _) (admits _) given_meddling
  let fuel := max m₁ m₂ + 4
  have first := evaluates fuel (by omega)
  have second := evaluates' fuel (by omega)
  have ends' : ComesTo (I := platformInterface) Host.answer
      ((leaving ((loaded.loaded meddling codeChunk).set Heap.globals (.ofAscii "x")
        (.integer 5))).runHidden fuel
        (gateway.callers fuel) applied) running (.ok (.number 5)) running := by
    have kept : Heap.Keeps none loaded (loaded.loaded meddling codeChunk) :=
      .loaded loaded meddling codeChunk
    have plain := plain_loaded.loaded meddling codeChunk
    have made := kept.closures _ _ (base.stored_loaded chunk scriptChunk)
    have bound := kept.cells _ _ (base.bound_loaded chunk scriptChunk)
    have unmarked : (loaded.loaded meddling codeChunk).collector.marked = [] := by
      rw [Heap.collector_loaded, unmarked_loaded]
    rw [leaving]
    generalize loaded.loaded meddling codeChunk = h at *
    have stored : (h.set Heap.globals (.ofAscii "x") (.integer 5)).get Heap.globals (.ofAscii "x") =
        .integer 5 := by
      obtain ⟨t, there, -⟩ := plain
      rw [Heap.get_eq (Heap.tables_set there _ _), Table.get_set t rfl, if_pos rfl]
    rw [prefers (plain.set _ _ _) made bound stored rfl unmarked]
    exact Program.comesTo_pure.2 ⟨rfl, rfl⟩
  obtain ⟨u, done⟩ := dispatch_comesTo (x := number) rfl rfl first (leaving_loaded_comesTo _ _)
  obtain ⟨v, done'⟩ := dispatch_comesTo (x := code "x = 5 return 1") rfl rfl second ends'
  exact ⟨fuel, _, _, _, _, first, second, rfl, rfl, _, _, u, v, done, done', rfl, rfl⟩

end Gateway
end SealedLua
