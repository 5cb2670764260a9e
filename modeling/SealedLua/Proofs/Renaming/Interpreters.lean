import SealedLua.Proofs.Engine.Parametric
import SealedLua.Proofs.Program
import SealedLua.Proofs.Renaming.Garbage
import SealedLua.Proofs.Renaming.Machines

/-!
# Interpreters on corresponding heaps

`driveHidden` runs a machine like `drive`, but stops without a result where
something would be revealed that need not be the same on corresponding heaps.
Stacks that correspond along a renaming then lead to the same effects and the same
answers, whatever program drives them and whatever is around them, since nothing
that crosses the boundary of an interpreter refers to its heap, unless it is
printed.
-/

namespace SealedLua

open Lua

namespace Surroundings

variable {Q : Type} {m : Type → Type} [Monad m]

/-- Runs a machine to its end, unless something is revealed before. -/
def driveHidden (s : Surroundings Q m) : Nat → Machine → OptionT m Outcome
  | 0, _ => failure
  | fuel + 1, machine =>
    if machine.reveals then failure
    else
      match machine.next with
      | .more machine => s.driveHidden fuel machine
      | .finished values heap => pure (.finished values heap)
      | .raised e heap => pure (.raised e heap)
      | .waits c =>
        match s.functions[c.host]? with
        | none => pure (.raised .nil c.heap)
        | some f => do
          let (ended, stack) ← s.evaluate (s.driveHidden fuel) c.depth f.body (frame f c)
          s.driveHidden fuel (resume c ended stack)

end Surroundings

namespace Lua.Renaming

variable (ρ : Renaming)

/-- A stack that holds what another one holds. -/
inductive SameStack : Stack → Stack → Prop
  | mk {g h : Heap} (heaps : ρ.SameHeap g h) (values : List Value) :
  SameStack ⟨g, values⟩ ⟨h, ρ.values values⟩

theorem SameStack.heaps {s t : Stack} (same : ρ.SameStack s t) : ρ.SameHeap s.heap t.heap := by
  cases same
  assumption

inductive SameOutcome : Outcome → Outcome → Prop
  | finished {g h : Heap} (vs : List Value) (heaps : ρ.SameHeap g h) :
      SameOutcome (.finished vs g) (.finished (ρ.values vs) h)
  | raised {g h : Heap} (e : Value) (heaps : ρ.SameHeap g h) :
    SameOutcome (.raised e g) (.raised (ρ.value e) h)

def SameAnswer {α : Type} (x y : α × Stack) : Prop := y.1 = x.1 ∧ ρ.SameStack x.2 y.2

variable {ρ} {I : Interface} {unnoticed : I.Op → Prop} {Q α : Type}

open Program (Same SameWork)

theorem ofRaised_value (e : Value) : EngineError.ofRaised (ρ.value e) = EngineError.ofRaised e := by
  cases e <;> rfl

theorem ofValue_value (v : Value) : ValueKind.ofValue (ρ.value v) = ValueKind.ofValue v := by
  cases v <;> rfl

theorem readInteger_value (v : Value) : Stack.readInteger (ρ.value v) = Stack.readInteger v := by
  rw [Stack.readInteger, Stack.readInteger, integer?_value]

theorem readText_value (v : Value) : Stack.readText (ρ.value v) = Stack.readText v := by
  cases v <;> rfl

theorem start (outer : Depth) {x y : Step Flow} (same : ρ.SameStep (Along ρ.flow) x y) :
    ρ.SameMachine (.start outer x) (.start outer y) := by
  refine ⟨.cons (.guard _ (some (.builtin .errorText)) fun ended g h s => ?_) .nil, rfl, .step same⟩
  cases ended with
  | ok vs => exact .done rfl s
  | error e => exact .raise e s

section Operations

variable {g h : Heap} (heaps : ρ.SameHeap g h) (below : List Value)

include heaps

theorem load (source : ByteArray) (chunk : String) :
    ρ.SameAnswer (Stack.load ⟨g, below⟩ source chunk)
      (Stack.load ⟨h, ρ.values below⟩ source chunk) := by
  have globals : ρ.value (.table Heap.globals) = .table Heap.globals :=
    congrArg Value.table (ρ.library Heap.globals (Nat.zero_le _))
  obtain ⟨loaded, heaps'⟩ :=
    heaps.loadChunk source (Chunk.shownName chunk.toUTF8) (.table Heap.globals)
  rw [globals] at loaded heaps'
  unfold Stack.load
  split
  · exact ⟨rfl, .mk heaps below⟩
  · dsimp only
    split
    · exact ⟨rfl, .mk heaps below⟩
    · revert loaded heaps'
      generalize g.loadChunk source _ _ = x
      generalize h.loadChunk source _ _ = y
      obtain ⟨result, g⟩ := x
      obtain ⟨result', h⟩ := y
      rintro rfl heaps'
      cases result with
      | error e => exact ⟨rfl, .mk heaps' below⟩
      | ok f => exact ⟨rfl, .mk heaps' (f :: below)⟩

theorem popAs (operation : String) (read : Value → Except EngineError α)
    (same : ∀ v, read (ρ.value v) = read v) :
    ρ.SameAnswer (Stack.popAs ⟨g, below⟩ operation read)
      (Stack.popAs ⟨h, ρ.values below⟩ operation read) := by
  cases below with
  | nil => exact ⟨rfl, .mk heaps []⟩
  | cons v rest => exact ⟨same v, .mk heaps rest⟩

theorem pushText (run run' : Machine → OptionT (Program I) Outcome)
    (outer : Depth) (text : String) :
    SameWork unnoticed ρ.SameAnswer (Stack.pushText run outer text ⟨g, below⟩)
      (Stack.pushText run' outer text ⟨h, ρ.values below⟩) := by
  have none : g.collectsNow = false := by simp [Heap.collectsNow, heaps.unmarked]
  have none' : h.collectsNow = false := by simp [Heap.collectsNow, heaps.unmarked']
  simp only [Stack.pushText, none, none', Bool.false_eq_true, if_false]
  exact .pure ⟨rfl, .mk heaps (.ofText text :: below)⟩

end Operations

section Running

variable {run run' : Machine → OptionT (Program I) Outcome}
  (hrun : ∀ m n, ρ.SameMachine m n → SameWork unnoticed ρ.SameOutcome (run m) (run' n))

theorem SameOutcome.afterwards {x y : Outcome} (same : ρ.SameOutcome x y)
    (below : List Value) (count : Nat) :
    ρ.SameAnswer (Stack.afterwards below count x) (Stack.afterwards (ρ.values below) count y) := by
  cases same with
  | finished vs heaps =>
    have stack := SameStack.mk heaps ((adjust count vs).reverse ++ below)
    simp only [List.map_append, List.map_reverse, ← adjust_values] at stack
    exact ⟨rfl, stack⟩
  | raised e heaps => exact ⟨congrArg Except.error (ofRaised_value e), .mk heaps below⟩

include hrun

section Operations

variable {g h : Heap} (heaps : ρ.SameHeap g h) (below : List Value) (outer : Depth)

include heaps

theorem callTop (args results : Nat) :
    SameWork unnoticed ρ.SameAnswer (Stack.call run outer args results ⟨g, below⟩)
      (Stack.call run' outer args results ⟨h, ρ.values below⟩) := by
  unfold Stack.call
  simp only [List.length_map, ← List.map_take, ← List.map_drop, ← List.map_reverse]
  split
  · exact .pure ⟨rfl, .mk heaps below⟩
  · obtain ⟨given, heaps'⟩ := heaps.passAll (below.take args).reverse
    simp only [given]
    cases below.drop args with
    | nil => exact .pure ⟨rfl, .mk heaps []⟩
    | cons f rest =>
      simp only [List.map_cons, isFunction_value]
      split
      · refine (hrun _ _ (start outer (.done rfl heaps'))).bind fun x y ended => ?_
        exact .pure (ended.afterwards rest results)
      · exact .pure ⟨rfl, .mk heaps rest⟩

theorem setGlobal (name : String) :
    SameWork unnoticed ρ.SameAnswer (Stack.setGlobal run outer name ⟨g, below⟩)
      (Stack.setGlobal run' outer name ⟨h, ρ.values below⟩) := by
  have library := ρ.library Heap.globals (Nat.zero_le _)
  have metatable : ∀ {g h : Heap}, ρ.SameHeap g h →
      (h.table Heap.globals).metatable.isNone = (g.table Heap.globals).metatable.isNone := by
    intro g h heaps
    have globals : ρ.SameTable (g.table Heap.globals) (h.table Heap.globals) :=
      heaps.library (Nat.zero_le _)
    rw [globals.metatable, Option.isNone_map]
  cases below with
  | nil => exact .pure ⟨rfl, .mk heaps []⟩
  | cons v rest =>
    obtain ⟨passed, heaps'⟩ := heaps.pass v
    simp only [Stack.setGlobal, List.map_cons, metatable heaps', passed]
    split
    · have stored := heaps'.set Heap.globals (.ofText name) (g.pass v).1
      rw [library] at stored
      exact .pure ⟨rfl, .mk stored rest⟩
    · have action := SameAction.setIndex (ρ := ρ) none (.table Heap.globals)
        (.ofText name) (g.pass v).1 none
      rw [value_table, library] at action
      refine (hrun _ _ (start outer ((action _ _ heaps').bind fun _ _ _ _ _ s =>
        .done rfl s))).bind fun x y ended => ?_
      exact .pure (ended.afterwards rest 0)

end Operations

theorem SameStack.perform {s t : Stack} (same : ρ.SameStack s t) (outer : Depth) (op : StackOp) :
    SameWork unnoticed ρ.SameAnswer (s.perform run outer op) (t.perform run' outer op) := by
  obtain ⟨heaps, below⟩ := same
  cases op with
  | load source chunk => exact .pure (load heaps below source chunk)
  | pushInteger n => exact .pure ⟨rfl, .mk heaps (.integer n :: below)⟩
  | pushText text => exact pushText heaps below run run' outer text
  | setGlobal name => exact setGlobal hrun heaps below outer name
  | call args results => exact callTop hrun heaps below outer args results
  | popInteger => exact .pure (popAs heaps below _ _ readInteger_value)
  | popText => exact .pure (popAs heaps below _ _ readText_value)
  | duplicateTop =>
    cases below with
    | nil => exact .pure ⟨rfl, .mk heaps []⟩
    | cons v rest => exact .pure ⟨rfl, .mk heaps (v :: v :: rest)⟩
  | swap =>
    match below with
    | [] => exact .pure ⟨rfl, .mk heaps []⟩
    | [v] => exact .pure ⟨rfl, .mk heaps [v]⟩
    | a :: b :: rest => exact .pure ⟨rfl, .mk heaps (b :: a :: rest)⟩
  | peekKind =>
    cases below with
    | nil => exact .pure ⟨rfl, .mk heaps []⟩
    | cons v rest => exact .pure ⟨congrArg Except.ok (ofValue_value v), .mk heaps (v :: rest)⟩
  | depth => exact .pure ⟨congrArg Except.ok (List.length_map ρ.value), .mk heaps below⟩

/-- A program on corresponding stacks does the same, if what is printed does not
matter for the answers to questions. -/
theorem SameStack.evaluate {s t : Stack} (same : ρ.SameStack s t)
    {around : Surroundings Q (Program I)}
    (hanswer : ∀ text text' q, SameWork unnoticed Eq (around.answer text q) (around.answer text' q))
    (outer : Depth) (p : Evaluation Q α) :
    SameWork unnoticed ρ.SameAnswer ((around.evaluate run outer p).run s)
      ((around.evaluate run' outer p).run t) := by
  unfold Surroundings.evaluate
  generalize p.run = program
  induction program generalizing s t with
  | done a => exact .pure ⟨rfl, same⟩
  | perform op k ih =>
    cases op with
    | stack op =>
      refine (same.perform hrun outer op).bind ?_
      rintro ⟨x, s⟩ ⟨_, t⟩ ⟨rfl, same⟩
      exact ih _ same
    | question q =>
      obtain ⟨heaps, below⟩ := same
      refine SameWork.bind
        (show SameWork unnoticed ρ.SameAnswer _ _ from (hanswer _ _ q).bind ?_) ?_
      · rintro x _ rfl
        exact .pure ⟨rfl, .mk heaps.flushed below⟩
      · rintro ⟨x, s⟩ ⟨_, t⟩ ⟨rfl, same⟩
        exact ih _ same

end Running

theorem SameHostCall.resume {c d : HostCall} (calls : ρ.SameHostCall c d)
    (ended : Except EngineError Unit) {s t : Stack} (same : ρ.SameStack s t) :
    ρ.SameMachine (Surroundings.resume c ended s) (Surroundings.resume d ended t) := by
  obtain @⟨g, h, heaps, left⟩ := same
  cases ended with
  | ok _ =>
    obtain ⟨results, heaps⟩ := heaps.passAll left.reverse
    rw [values, List.map_reverse] at results heaps
    exact ⟨calls.frames, calls.depth, .step (.done (congrArg Flow.ret results) heaps)⟩
  | error e =>
    obtain ⟨failure, heaps⟩ := heaps.newFailure e.asFailure
    have raised : ρ.SameStep (Along ρ.flow) _ _ := .raise (g.newFailure e.asFailure).1 heaps
    rw [← failure] at raised
    exact ⟨calls.frames, calls.depth, .step raised⟩

theorem SameHostCall.frame {c d : HostCall} (calls : ρ.SameHostCall c d) (f : HostFunction Q) :
    ρ.SameStack (Surroundings.frame f c) (Surroundings.frame f d) := by
  have stack := SameStack.mk calls.heaps (adjust f.arity c.args).reverse
  simp only [List.map_reverse, ← adjust_values, ← calls.args] at stack
  exact stack

/-- Machines that are about to do the same do the same to their end, by induction
on the fuel: a move leads to such machines again, and so does a function of the
host. -/
theorem SameMachine.driveHidden {around : Surroundings Q (Program I)}
    (hanswer : ∀ text text' q, SameWork unnoticed Eq (around.answer text q) (around.answer text' q))
    (fuel : Nat) {m n : Machine} (same : ρ.SameMachine m n) :
    SameWork unnoticed ρ.SameOutcome (around.driveHidden fuel m) (around.driveHidden fuel n) := by
  induction fuel generalizing m n with
  | zero => exact .failure
  | succ fuel ih =>
    rw [Surroundings.driveHidden, Surroundings.driveHidden, same.reveals]
    cases shown : m.reveals with
    | true => exact .failure
    | false =>
      have moved := same.next shown
      revert moved
      generalize m.next = x
      generalize n.next = y
      intro moved
      simp only [Bool.false_eq_true, if_false]
      cases moved with
      | more machines => exact ih machines
      | finished vs heaps => exact .pure (.finished vs heaps)
      | raised e heaps => exact .pure (.raised e heaps)
      | @waits c d calls =>
        simp only [calls.host, calls.depth]
        cases around.functions[c.host]? with
        | none => exact .pure (.raised .nil calls.heaps)
        | some f =>
          refine ((calls.frame f).evaluate (fun _ _ => ih) hanswer _ f.body).bind ?_
          rintro ⟨ended, s⟩ ⟨_, t⟩ ⟨rfl, same⟩
          exact ih (calls.resume _ same)

end Lua.Renaming

namespace Correspondence

variable {m n : Type → Type} [Monad m] [Monad n] (c : Correspondence m n) {Q : Type}

/-- A run that stops where it would reveal something corresponds to the run that
goes on, if having no result corresponds to everything. -/
theorem driveHidden (anything : ∀ {α : Type} (y : OptionT n α), c.Rel Alternative.failure y)
    {functions : List (HostFunction Q)} {answer : ByteArray → Q → OptionT m (Except String Parcel)}
    {answer' : ByteArray → Q → OptionT n (Except String Parcel)}
    (hanswer : ∀ text q, c.Rel (answer text q) (answer' text q)) (fuel : Nat) (machine : Machine) :
    c.Rel ((Surroundings.mk functions answer).driveHidden fuel machine)
      ((Surroundings.mk functions answer').drive fuel machine) := by
  induction fuel generalizing machine with
  | zero => exact anything _
  | succ fuel ih =>
    rw [Surroundings.driveHidden, Surroundings.drive]
    split
    · exact anything _
    · cases machine.next with
      | more machine => exact ih machine
      | finished values heap => exact c.pure _
      | raised e heap => exact c.pure _
      | waits call =>
        cases hfunction : functions[call.host]? with
        | none =>
          simp only [hfunction]
          exact c.pure _
        | some f =>
          simp only [hfunction]
          exact c.bind (c.evaluate hanswer ih _ _ _) fun ended => ih _

/-- To come, on a platform, to all that other work comes to. -/
def completion {I : Interface} {σ : Type} (answer : (op : I.Op) → StateM σ (I.Answer op)) :
    Correspondence (Program I) (Program I) where
  Rel x y := ∀ w a w', Program.ComesTo answer x w a w' → Program.ComesTo answer y w a w'
  pure _ := fun _ _ _ ends => ends
  failure := fun _ _ _ ends => ends
  bind first second := fun w b w' ends => by
    obtain ⟨a, t, ended, rest⟩ := Program.comesTo_bind.1 ends
    exact Program.comesTo_bind.2 ⟨a, t, first _ _ _ ended, second a _ _ _ rest⟩

theorem completion_failure {I : Interface} {σ α : Type}
    {answer : (op : I.Op) → StateM σ (I.Answer op)}
    (y : OptionT (Program I) α) : (completion answer).Rel Alternative.failure y :=
  fun _ _ _ ends => by cases ends

end Correspondence

namespace Interpreter

variable {Q α : Type} {m : Type → Type} [Monad m]

/-- Runs a program on the interpreter's stack, for its result, unless something is
revealed or left to finalize. -/
def runHidden (i : Interpreter Q) (fuel : Nat)
    (answer : ByteArray → Q → OptionT m (Except String Parcel))
    (p : Evaluation Q α) : OptionT m (Except EngineError α) := do
  let around : Surroundings Q m := ⟨i.functions, answer⟩
  let (result, stack) ← around.evaluate (around.driveHidden fuel) i.outermost p i.stack
  if stack.heap.collector.marked.isEmpty then return result else failure

theorem runHidden_corresponds {n : Type → Type} [Monad n] [LawfulMonad n] (c : Correspondence m n)
    (anything : ∀ {α : Type} (y : OptionT n α), c.Rel Alternative.failure y)
    {answer : ByteArray → Q → OptionT m (Except String Parcel)}
    {answer' : ByteArray → Q → OptionT n (Except String Parcel)}
    (hanswer : ∀ text q, c.Rel (answer text q) (answer' text q)) (i : Interpreter Q)
    (fuel : Nat) (p : Evaluation Q α) :
    c.Rel (i.runHidden fuel answer p) (do
      let (result, j) ← i.evaluate fuel answer' p
      if j.stack.heap.collector.marked.isEmpty then return result else failure) := by
  unfold runHidden Interpreter.evaluate
  rw [bind_assoc]
  refine c.bind (c.evaluate hanswer (c.driveHidden anything hanswer fuel) _ p i.stack)
    fun ended => ?_
  rw [pure_bind]
  dsimp only
  split
  · exact c.pure _
  · exact anything _

/-- Two interpreters that hold the same: each holds what a third one holds, and
perhaps objects besides that nothing refers to. -/
def Alike (i j : Interpreter Q) : Prop :=
  i.functions = j.functions ∧ ∃ (core : Stack) (ρ ρ' : Renaming), ρ.SameStack core i.stack ∧
    ρ'.SameStack core j.stack

theorem alike_joined {h : Heap} {values : List Value} (closed : h.Closed)
    (inhabited : 0 < h.cells.size) (hold : ∀ v ∈ values, h.Holds v)
    (unmarked : h.collector.marked = []) (functions : List (HostFunction Q)) (cells : Array Value)
    (closures : Array Closure) :
    Interpreter.Alike ⟨⟨h, values⟩, functions⟩ ⟨⟨h.joined cells closures, values⟩, functions⟩ := by
  have same : ∀ cells closures,
      (Renaming.beyond inhabited cells.size closures.size).SameStack ⟨h, values⟩
      ⟨h.joined cells closures, values⟩ := by
    intro cells closures
    have stack :=
      Renaming.SameStack.mk
        (Renaming.SameHeap.joined inhabited cells closures closed unmarked) values
    have fixed : (Renaming.beyond inhabited cells.size closures.size).values values = values :=
      (List.map_congr_left fun v mem => hold v mem _ (Renaming.beyond_spares inhabited _ _)).trans
        (List.map_id values)
    rwa [fixed] at stack
  have alone := same #[] #[]
  rw [h.joined_empty] at alone
  exact ⟨rfl, _, _, _, alone, same cells closures⟩

theorem runHidden_same {I : Interface} {unnoticed : I.Op → Prop}
    {i j : Interpreter Q} {ρ : Renaming}
    (corresponds : ρ.SameStack i.stack j.stack) (functions : i.functions = j.functions) {fuel : Nat}
    {answer : ByteArray → Q → OptionT (Program I) (Except String Parcel)}
    (hanswer : ∀ text text' q, Program.SameWork unnoticed Eq (answer text q) (answer text' q))
    (p : Evaluation Q α) :
    Program.SameWork unnoticed Eq (i.runHidden fuel answer p) (j.runHidden fuel answer p) := by
  have depth : j.outermost = i.outermost := by
    unfold outermost
    rw [corresponds.heaps.circumstances]
  unfold runHidden
  rw [depth, ← functions]
  refine (corresponds.evaluate (fun _ _ => Renaming.SameMachine.driveHidden hanswer fuel)
    hanswer _ p).bind ?_
  rintro ⟨x, s⟩ ⟨_, t⟩ ⟨rfl, same⟩
  have first : s.heap.collector.marked.isEmpty = true := by
    rw [same.heaps.unmarked, List.isEmpty_nil]
  have second : t.heap.collector.marked.isEmpty = true := by
    rw [same.heaps.unmarked', List.isEmpty_nil]
  simp only [first, second, if_true]
  exact .pure rfl

end Interpreter
end SealedLua
