import SealedLua.Proofs.Confinement.Circumstances
import SealedLua.Proofs.Confinement.Unreached
import SealedLua.Proofs.Gateway.Copies
import SealedLua.Proofs.Gateway.HostFrames

/-!
# How scripts get their arguments

The function of a script is loaded before its argument is evaluated, and waits on
the stack meanwhile.  Code that the argument consists of cannot get at it, so when
the script starts it is as it was loaded, and what the argument came to is both its
only extra argument and its global.  The two are one value unless it is a failure,
which is copied each time.  Only a metatable of the globals could see to it that the
global is another.
-/

namespace SealedLua

open Lua Machine

namespace Interpreter

variable {Q : Type}

/-- The interpreter with a function of the host as a global. -/
def bound (i : Interpreter Q) (name : String) (f : HostFunction Q) : Interpreter Q :=
  ⟨⟨i.stack.heap.set Heap.globals (.ofText name) (.host i.functions.length), i.stack.values⟩,
    i.functions ++ [f]⟩

/-- A new interpreter in which functions of the host were bound, one after the other. -/
def fresh (circumstances : Circumstances) (bindings : List (String × HostFunction Q)) :
    Interpreter Q :=
  bindings.foldl (fun i b => i.bound b.1 b.2) (create circumstances)

/-- What can be relied on in a new interpreter. -/
structure Ready (i : Interpreter Q) : Prop where
  values : i.stack.values = []
  closed : i.stack.heap.Closed
  inhabited : 0 < i.stack.heap.cells.size
  plain : i.stack.heap.Plain Heap.globals
  unmarked : i.stack.heap.collector.marked = []

theorem Ready.bound {i : Interpreter Q} (ready : i.Ready) (name : String) (f : HostFunction Q) :
    (i.bound name f).Ready :=
  ⟨ready.values, ready.closed.set _ (fun _ _ => rfl) (fun _ _ => rfl), ready.inhabited,
    ready.plain.set _ _ _, ready.unmarked⟩

end Interpreter

variable {Q α β : Type} {m : Type → Type} [Monad m]

/-- A machine that a program waits for one result of leaves its first one, or `nil`. -/
theorem Stack.afterwards_finished (below results : List Value) (h : Heap) :
    Stack.afterwards below 1 (.finished results h) =
      (.ok (), ⟨h, results.headD .nil :: below⟩) := by
  cases results <;> simp [Stack.afterwards, adjust]

/-- The heap in which what a value is passed as is the global of an argument. -/
def Lua.Heap.withArgument (h : Heap) (v : Value) : Heap :=
  (h.pass v).2.set Heap.globals (.ofText argumentName) (h.pass v).1

namespace Interpreter

/-- The interpreter with the function of a chunk on top of its stack. -/
def loaded (i : Interpreter Q) (function : Function) (name : String) : Interpreter Q :=
  ⟨⟨i.stack.heap.loaded function name, .closure i.stack.heap.closures.size :: i.stack.values⟩,
    i.functions⟩

section Runs

variable [LawfulMonad m] (i : Interpreter Q) (fuel : Nat)
  (answer : ByteArray → Q → OptionT m (Except String Parcel))

theorem evaluate_op (o : StackOp) :
    i.evaluate fuel answer (Evaluation.op o) = (do
      let r ← i.stack.perform ((Surroundings.mk i.functions answer).drive fuel) i.outermost o
      return (r.1, ⟨r.2, i.functions⟩)) := by
  have performs :
    ((Surroundings.mk i.functions answer).evaluate
    ((Surroundings.mk i.functions answer).drive fuel) i.outermost
      (Evaluation.op o)).run i.stack = (do
        let r ← i.stack.perform ((Surroundings.mk i.functions answer).drive fuel) i.outermost o
        return (r.1, r.2)) := rfl
  refine (congrArg (· >>= _) performs).trans
    ((bind_assoc _ _ _).trans (bind_congr (m := OptionT m) fun r => ?_))
  exact pure_bind _ _

/-- An operation that has its result whatever machines come to. -/
theorem evaluate_op_eq {o : StackOp} {x : o.Answer} {s : Stack}
    (performs : i.stack.perform ((Surroundings.mk i.functions answer).drive fuel) i.outermost o =
      pure (x, s)) :
    i.evaluate fuel answer (Evaluation.op o) = pure (x, ⟨s, i.functions⟩) :=
  i.evaluate_eq (Surroundings.evaluate_op _ performs)

section Parts

variable (there : Heap.globals < i.stack.heap.tables.size)

include there

theorem evaluate_op_bind {o : StackOp} {x : o.Result} {s : Stack}
    (performs : i.stack.perform ((Surroundings.mk i.functions answer).drive fuel) i.outermost o =
      pure (.ok x, s))
    (f : o.Result → Evaluation Q β) :
    i.evaluate fuel answer (Evaluation.op o >>= f) =
      (Interpreter.mk s i.functions).evaluate fuel answer (f x) := by
  rw [i.evaluate_bind fuel answer there, i.evaluate_op_eq fuel answer performs, pure_bind]

section Chunks

variable {source : ByteArray} {name : String} (named : Stack.zeroByte? name = none)

include named

theorem evaluate_load {function : Function} (read : Chunk.read source = .ok function)
    (f : Unit → Evaluation Q β) :
    i.evaluate fuel answer (Evaluation.op (.load source name) >>= f) =
      (i.loaded function name).evaluate fuel answer (f ()) :=
  i.evaluate_op_bind fuel answer there (o := .load source name)
    (congrArg (pure (f := OptionT m)) (Stack.load_loaded read named i.stack.heap i.stack.values)) f

end Chunks
end Parts

/-- A function of a script below its arguments is called on what they are passed
as, for one result. -/
theorem evaluate_call (args : List Value) (h : Heap) (id : ClosureId) (below : List Value)
    (functions : List (HostFunction Q)) :
    (⟨⟨h, args.reverse ++ .closure id :: below⟩, functions⟩ : Interpreter Q).evaluate fuel answer
        (Evaluation.op (.call args.length 1)) = (do
      let outcome ← (Surroundings.mk functions answer).drive fuel
        (.ofCall (.outermost h.circumstances.callLimit) (.closure id)
          (h.passAll args).1 (h.passAll args).2)
      return ((Stack.afterwards below 1 outcome).1,
        ⟨(Stack.afterwards below 1 outcome).2, functions⟩)) := by
  have performed := Stack.perform_call ((Surroundings.mk functions answer).drive fuel)
    (.outermost h.circumstances.callLimit) args h id below
  refine (evaluate_op _ fuel answer (.call args.length 1)).trans
    ((congrArg (· >>= _) performed).trans ?_)
  refine (bind_assoc _ _ _).trans (bind_congr (m := OptionT m) fun outcome => ?_)
  exact pure_bind _ _

/-- A script that can be read is loaded; then its argument is evaluated, and it
is applied to what that left. -/
theorem evaluate_execute (there : Heap.globals < i.stack.heap.tables.size)
    {script : ByteArray} {function : Function}
    (read : Chunk.read script = .ok function) (argument : Parcel) :
    i.evaluate fuel answer (execute script argument) = (do
      let (decoded, j) ← (i.loaded function scriptChunk).evaluate fuel answer (decode argument)
      match decoded with
      | .error e => return (.error e, j)
      | .ok _ => j.evaluate fuel answer applied) := by
  refine (i.evaluate_load fuel answer there (by decide) read _).trans ?_
  refine ((i.loaded function scriptChunk).evaluate_bind fuel answer there (decode argument) fun _ =>
    applied).trans ?_
  refine bind_congr (m := OptionT m) fun ended => ?_
  obtain ⟨result, j⟩ := ended
  cases result with
  | error e => rfl
  | ok a => rfl

/-- The script is called on the value above it, which is its global too, and its
first result is encoded. -/
theorem evaluate_applied {h : Heap} (there : Heap.globals < h.tables.size)
    (bare : (h.table Heap.globals).metatable = none) (v : Value) (id : ClosureId)
    (functions : List (HostFunction Q)) :
    let given := (h.withArgument v).pass v
    (⟨⟨h, [v, .closure id]⟩, functions⟩ : Interpreter Q).evaluate fuel answer applied = (do
      match ← (Surroundings.mk functions answer).drive fuel
          (.ofCall (.outermost h.circumstances.callLimit) (.closure id) [given.1] given.2) with
      | .finished results h' =>
        (⟨⟨h', [results.headD .nil]⟩, functions⟩ : Interpreter Q).evaluate fuel answer encode
      | .raised e h' => return (.error (.ofRaised e), ⟨⟨h', []⟩, functions⟩)) := by
  intro given
  have circumstances : (h.withArgument v).circumstances = h.circumstances :=
    (Heap.Keeps.pass h v).circumstances
  have there_later : Heap.globals < (h.withArgument v).tables.size := by
    rw [Heap.withArgument, Heap.set, Array.size_modify]
    exact Nat.lt_of_lt_of_le there (Heap.Keeps.pass h v).size
  have stores := Stack.perform_setGlobal ((Surroundings.mk functions answer).drive fuel)
    (.outermost h.circumstances.callLimit) bare argumentName v [v, .closure id]
  refine (evaluate_op_bind _ fuel answer there (o := .duplicateTop) rfl _).trans ?_
  refine (evaluate_op_bind _ fuel answer there (o := .setGlobal argumentName) stores _).trans ?_
  refine (evaluate_bind _ fuel answer there_later (Evaluation.op (.call 1 1)) fun _ =>
    encode).trans ?_
  refine (congrArg (· >>= _)
    (evaluate_call fuel answer [v] (h.withArgument v) id [] functions)).trans ?_
  rw [circumstances]
  simp only [bind_assoc, pure_bind]
  refine bind_congr (m := OptionT m) fun outcome => ?_
  cases outcome with
  | finished results h' => rw [Stack.afterwards_finished]
  | raised e h' => rfl

end Runs

end Interpreter

theorem Lua.Confinement.Holds.loaded {C : Confinement} {h : Heap}
    (holds : C.Holds h) {source : ByteArray}
    {function : Function} (read : Chunk.read source = .ok function) (name : String) :
    C.free (.closure h.closures.size) ∧ C.Holds (h.loaded function name) := by
  obtain ⟨made, loaded⟩ :=
    holds.loadChunk source (Chunk.shownName name.toUTF8) (C.free_table Heap.globals)
  rw [Heap.loadChunk, read] at made loaded
  exact ⟨made _ rfl, loaded⟩

section Arguments

variable [LawfulMonad m] (i : Interpreter Q) (fuel : Nat)
  (answer : ByteArray → Q → OptionT m (Except String Parcel))

end Arguments

namespace Failing

open Gateway

/-- Code that comes to the failure of a nested call. -/
def code : String := "local _, e = pcall(internal_TA_call, 1, 1) return e"

/-- Two arguments that are the number one. -/
def one : Expr := .literal (.number (.integer 1))

def returned : Stmt := .ret [DumpChunk.own "e" 0]

def chunk : Function :=
  .mk 0 true [.declare 2 [.call (DumpChunk.global "pcall" 0 1)
    [DumpChunk.global hostCallName 0 1, one, one] 1], returned]

/-- What the code sees. -/
def env (h : Heap) : Env := ⟨[h.cells.size], [], Chunk.shownName codeChunk.toUTF8⟩

/-- Where the code calls `pcall`. -/
def site (h : Heap) : Site := callSite (env h) (DumpChunk.global "pcall" 0 1) 1

def waiting (h : Heap) : Frame :=
  .call (site h) fun values heap =>
    ((env h).declare (adjust 2 values) heap).bind fun env heap => execList env [returned] heap

section Runs

variable {h : Heap} {outer : Depth}

/-- The code calls the function of the host under the protection of `pcall`. -/
theorem reaches_host (inside : ((hostDepth outer).enter (site h)).Admits 0 3)
    (pcall : h.get Heap.globals (.ofAscii "pcall") = .builtin .pcall)
    (host : h.get Heap.globals (.ofAscii hostCallName) = .host 0) :
    let start := Machine.ofCall outer (.closure h.closures.size) [] (h.loaded chunk codeChunk)
    Reaches start
      ⟨.pcall :: waiting h :: start.frames, ((hostDepth outer).enter (site h)).enter Site.native,
        .invoke ⟨.host 0, [.integer 1, .integer 1], Site.native⟩ (h.loaded chunk codeChunk)⟩ := by
  intro start
  let loaded := h.loaded chunk codeChunk
  have binds : loaded.Binds (env h).scope [.table Heap.globals] :=
    .cons (h.bound_loaded chunk codeChunk) .nil
  have found : evalExpr (env h) (DumpChunk.global "pcall" 0 1) loaded =
      .done (.builtin .pcall) loaded :=
    DumpChunk.eval_global "pcall" 0 1 binds rfl pcall rfl
  have number : evalExpr (env h) one loaded = .done (.integer 1) loaded :=
    evalExpr_literal _ loaded _
  have given : evalList (env h) [DumpChunk.global hostCallName 0 1, one, one] loaded =
      .done [.host 0, .integer 1, .integer 1] loaded :=
    evalList_cons (DumpChunk.eval_global hostCallName 0 1 binds rfl host rfl)
      (evalList_cons number (evalList_one rfl number))
  have asks : execList (env h) chunk.body loaded = _ :=
    execList_declare_call found given 2 1 [returned]
  have starts : Reaches start ⟨_, hostDepth outer, .step (execList (env h) chunk.body loaded)⟩ :=
    reaches_body (h.stored_loaded chunk codeChunk) outer []
  rw [asks] at starts
  have enters : ((hostDepth outer).enter (site h)).Admits 0 0 := inside.mono le_rfl (by omega)
  have nested : (((hostDepth outer).enter (site h)).enter Site.native).Admits 0 2 :=
    (Depth.admits_enter_nested rfl).2 inside
  exact starts.trans ((Reaches.call enters).trans
    (enters_pcall _ (nested.mono le_rfl (by omega)) (.host 0) [.integer 1, .integer 1] _ loaded))

end Runs
end Failing

end SealedLua
