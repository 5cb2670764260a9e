import SealedLua.Engine.Interpreter
import SealedLua.Proofs.Lua.Builtins
import SealedLua.Proofs.Lua.Raising

/-!
# What programs over a stack come to

`Comes` says that a program over a stack gets through, with its result and the
stack that it leaves, in all surroundings and with any fuel from some amount
on; `Halts` says that it fails.  A call comes to what the machine says of the
called function.
-/

namespace SealedLua

open Lua Machine

theorem drive_reaches {machine next : Machine} (reaches : Reaches machine next) :
    ∃ moves, ∀ {Q : Type} {m : Type → Type} [Monad m] (around : Surroundings Q m) (fuel : Nat),
      around.drive (fuel + moves) machine = around.drive fuel next := by
  induction reaches with
  | refl machine => exact ⟨0, fun _ _ => rfl⟩
  | move next _ ih =>
    obtain ⟨moves, drive⟩ := ih
    refine ⟨moves + 1, fun around fuel => ?_⟩
    rw [← Nat.add_assoc, Surroundings.drive, next]
    exact drive around fuel

theorem drive_of_reaches {machine last : Machine} {outcome : Outcome}
    (reaches : Reaches machine last)
    (ends : ∀ {Q : Type} {m : Type → Type} [Monad m] (around : Surroundings Q m) (fuel : Nat),
      around.drive (fuel + 1) last = pure outcome) :
    ∃ moves, ∀ {Q : Type} {m : Type → Type} [Monad m] (around : Surroundings Q m) (fuel : Nat),
      moves ≤ fuel →
      around.drive fuel machine = pure outcome := by
  obtain ⟨moves, drive⟩ := drive_reaches reaches
  refine ⟨moves + 1, fun around fuel enough => ?_⟩
  obtain ⟨rest, rfl⟩ : ∃ n, fuel = n + 1 + moves := ⟨fuel - moves - 1, by omega⟩
  rw [drive around]
  exact ends around rest

/-- The depth at which the host calls functions of scripts. -/
def hostDepth (outer : Depth) : Depth := outer.enter Site.native

theorem leaves_hostDepth {outer : Depth} {calls inner : Nat}
    (all : outer.calls + calls + 1 = outer.limit)
    (room : outer.nested + 1 + inner < Depth.nestedLimit) :
    (hostDepth outer).Leaves calls inner := ⟨all, room⟩

/-- Whatever the circumstances, some thousand calls fit into an interpreter. -/
theorem Interpreter.admits_outermost {Q : Type} (i : Interpreter Q) (calls inner : Nat)
    (few : calls < 3900) (shallow : inner + 1 < Depth.nestedLimit) :
    (hostDepth i.outermost).Admits calls inner := by
  have ample := i.stack.heap.circumstances.ample
  have limit : (hostDepth i.outermost).limit = i.stack.heap.circumstances.callLimit := rfl
  have calls_zero : (hostDepth i.outermost).calls = 0 := rfl
  have nested_one : (hostDepth i.outermost).nested = 1 := rfl
  exact ⟨by omega, by omega⟩

theorem drive_of_returns {outer : Depth} {id : ClosureId} {args values : List Value} {h h' : Heap}
    (returns : Returns (hostDepth outer) ⟨.closure id, args, Site.native⟩ h values h') :
    ∃ moves, ∀ {Q : Type} {m : Type → Type} [Monad m] (around : Surroundings Q m) (fuel : Nat),
      moves ≤ fuel →
      around.drive fuel (.ofCall outer (.closure id) args h) = pure (.finished values h') :=
  drive_of_reaches (.move rfl (returns [] _ Site.native _ rfl)) fun _ _ => rfl

theorem drive_of_gives {outer : Depth} {action : Action Unit} {h h' : Heap}
    (gives : Gives (hostDepth outer) (action h) () h') :
    ∃ moves, ∀ {Q : Type} {m : Type → Type} [Monad m] (around : Surroundings Q m) (fuel : Nat),
      moves ≤ fuel →
      around.drive fuel (.ofAction outer action h) = pure (.finished [] h') :=
  drive_of_reaches ((gives _ _).trans (.move rfl (.refl _))) fun _ _ => rfl

/-- A call of a function of a script that raises a text, which no metamethod
shows in another way. -/
theorem drive_of_throws {outer : Depth} {id : ClosureId} {args : List Value} {h h' : Heap}
    (throws : Throws (hostDepth outer) ⟨.closure id, args, Site.native⟩ h h')
    (silent : ∀ s, h'.metamethod (.string s) (eventKey "tostring") = .nil) :
    ∃ s moves, ∀ {Q : Type} {m : Type → Type} [Monad m] (around : Surroundings Q m) (fuel : Nat),
      moves ≤ fuel →
      around.drive fuel (.ofCall outer (.closure id) args h) = pure (.raised (.string s) h') := by
  let bottom : List Frame := (Machine.ofCall outer (.closure id) args h).frames
  have raises : RaisesAbove ⟨bottom, hostDepth outer,
      .invoke ⟨.closure id, args, Site.native⟩ h⟩ bottom h' :=
    throws [] _ Site.native _ rfl
  obtain ⟨s, above, depth, passes, reaches⟩ := raises
  have handled : handler? (above ++ bottom) 0 = some (.builtin .errorText, 0) :=
    handler?_passes passes 0
  have raised : raise (above ++ bottom) depth (.string s) h' =
      ⟨.handler :: (above ++ bottom), depth.enter Site.native,
        .invoke ⟨.builtin .errorText, [.string s], Site.native⟩ h'⟩ := by
    rw [raise, handled]
    rfl
  have shown : ∀ depth,
      Reaches ⟨.handler :: (above ++ bottom), depth,
      .invoke ⟨.builtin .errorText, [.string s], Site.native⟩ h'⟩
      ⟨above ++ bottom, depth.leave Site.native, .unwind (.string s) h'⟩ := by
    intro depth
    refine .move rfl (.move ?_ (.refl _))
    simp only [Machine.native, Builtin.run_errorText (silent s), Step.bind]
    rfl
  obtain ⟨depth', unwound⟩ :=
    unwinds passes bottom (.string s) h' ((depth.enter Site.native).leave Site.native)
  have ends : Reaches ⟨bottom, depth', .unwind (.string s) h'⟩ ⟨[], depth'.leave Site.native,
      .unwind (.string s) h'⟩ :=
    .move rfl (.move rfl (.refl _))
  have goesOn := ((shown _).trans unwound).trans ends
  refine ⟨s, drive_of_reaches (.move rfl (reaches.trans (.move ?_ goesOn))) fun _ _ => rfl⟩
  exact congrArg Progress.more raised

/-- The heap with the function of a chunk, which has the globals in scope. -/
def Lua.Heap.loaded (h : Heap) (function : Function) (name : String) : Heap :=
  ((h.newCell (.table Heap.globals)).2.newClosure ⟨function, [h.cells.size],
    Chunk.shownName name.toUTF8⟩).2

namespace Lua.Heap

variable (h : Heap) (function : Function) (name : String)

theorem stored_loaded : (h.loaded function name).closures[h.closures.size]? =
    some ⟨function, [h.cells.size], Chunk.shownName name.toUTF8⟩ := Array.getElem?_push_size

theorem bound_loaded : (h.loaded function name).cells[h.cells.size]? = some (.table globals) :=
  Array.getElem?_push_size

theorem tables_loaded : (h.loaded function name).tables = h.tables := rfl

theorem collector_loaded : (h.loaded function name).collector = h.collector := rfl

theorem Keeps.loaded : Keeps none h (h.loaded function name) :=
  (Keeps.newCell h _).trans (.newClosure _ _)

end Lua.Heap

theorem Stack.load_loaded {source : ByteArray} {name : String} {function : Function}
    (read : Chunk.read source = .ok function) (named : zeroByte? name = none)
    (h : Heap) (values : List Value) :
    (⟨h, values⟩ : Stack).load source name =
      (.ok (), ⟨h.loaded function name, .closure h.closures.size :: values⟩) := by
  have text : (source.data[0]? == some 27) = false := by
    by_contra binary
    rw [Bool.not_eq_false] at binary
    rw [Chunk.read, if_pos binary] at read
    cases read
  rw [Stack.load, named]
  simp only [text, Bool.false_eq_true, if_false, Heap.loadChunk, read]
  rfl

/-- A chunk that cannot be read leaves everything as it was. -/
theorem Stack.load_unreadable {source : ByteArray} {name : String} {e : ChunkError}
    (read : Chunk.read source = .error e) (named : zeroByte? name = none) (s : Stack) :
    s.load source name = (.error (.ofChunk (Chunk.shownName name.toUTF8) e), s) := by
  rw [Stack.load, named]
  dsimp only
  split
  · next binary =>
    rw [Chunk.read, if_pos binary] at read
    cases read
    rfl
  · simp only [Heap.loadChunk, read]

/-- The function of a chunk that can be read is new, and has the globals in scope. -/
theorem Stack.load_eq {source : ByteArray} {name : String} {function : Function}
    (read : Chunk.read source = .ok function)
    (named : zeroByte? name = none) (h : Heap) (values : List Value) :
    ∃ h' cell chunk, (⟨h, values⟩ : Stack).load source name =
      (.ok (), ⟨h', .closure h.closures.size :: values⟩) ∧
      Heap.Keeps none h h' ∧ h'.tables = h.tables ∧ h'.closures[h.closures.size]? =
        some ⟨function, [cell], chunk⟩ ∧
      h'.cells[cell]? = some (.table Heap.globals) :=
  ⟨h.loaded function name, h.cells.size, _, Stack.load_loaded read named h values,
    .loaded h function name, rfl, h.stored_loaded function name, h.bound_loaded function name⟩

section Performing

variable {m : Type → Type} [Monad m] (run : Machine → OptionT m Outcome) (outer : Depth) {h : Heap}

/-- A call of what is below its arguments; the failures among them are copied. -/
theorem Stack.perform_call_eq (h : Heap) (below : List Value) (f : Value)
    (args : List Value) (count : Nat) :
    Stack.perform run outer ⟨h, args.reverse ++ f :: below⟩ (.call args.length count) =
      if f.isFunction then (do return Stack.afterwards below count (← run
        (.ofCall outer f (h.passAll args).1 (h.passAll args).2)))
      else pure (.error (.wrongKind "a function"), ⟨h, below⟩) := by
  have enough : ¬(args.reverse ++ f :: below).length < args.length + 1 := by simp
  have given : ((args.reverse ++ f :: below).take args.length).reverse = args := by
    rw [List.take_left' List.length_reverse, List.reverse_reverse]
  have callee : (args.reverse ++ f :: below).drop args.length = f :: below :=
    List.drop_left' List.length_reverse
  rw [Stack.perform, Stack.call, if_neg enough]
  simp only [given, callee]
  rfl

/-- A call of a function of a script with all arguments on the stack. -/
theorem Stack.perform_call (args : List Value) (h : Heap) (id : ClosureId) (below : List Value) :
    Stack.perform run outer ⟨h, args.reverse ++ .closure id :: below⟩ (.call args.length 1) = (do
      let outcome ← run (.ofCall outer (.closure id) (h.passAll args).1 (h.passAll args).2)
      return Stack.afterwards below 1 outcome) :=
  (perform_call_eq run outer h below (.closure id) args 1).trans (if_pos rfl)

/-- While the globals have no metatable, a global is stored as an entry of theirs. -/
theorem Stack.perform_setGlobal (bare : (h.table Heap.globals).metatable = none)
    (name : String) (v : Value) (below : List Value) :
    Stack.perform run outer ⟨h, v :: below⟩ (.setGlobal name) =
      pure (.ok (), ⟨(h.pass v).2.set Heap.globals (.ofText name) (h.pass v).1, below⟩) := by
  have bare_later : ((h.pass v).2.table Heap.globals).metatable = none := by cases v <;> exact bare
  rw [Stack.perform, Stack.setGlobal]
  simp only [bare_later]
  rfl

end Performing

section Operations

variable {m : Type → Type} [Monad m] [LawfulMonad m] {Q α β : Type} (around : Surroundings Q m)
  {run : Machine → OptionT m Outcome} {outer : Depth}

/-- A program in two parts runs the second on what the first leaves, unless the first fails. -/
theorem Surroundings.evaluate_bind (run : Machine → OptionT m Outcome)
    (outer : Depth) (p : Evaluation Q α) (f : α → Evaluation Q β) (s : Stack) :
    (around.evaluate run outer (p >>= f)).run s = (do
      match ← (around.evaluate run outer p).run s with
      | (.error e, t) => return (.error e, t)
      | (.ok a, t) => (around.evaluate run outer (f a)).run t) := by
  unfold evaluate
  refine (congrArg (StateT.run · s) (Program.run_bind (I := stackInterface Q) _ p.run _)).trans ?_
  refine (StateT.run_bind _ _ _).trans ?_
  congr 1
  funext ended
  obtain ⟨result, t⟩ := ended
  cases result with
  | error e => rfl
  | ok a => rfl

variable {o : StackOp} {s t : Stack} {result : o.Answer}
  (performs : s.perform run outer o = pure (result, t))

include performs

theorem Surroundings.evaluate_op :
    (around.evaluate run outer (Evaluation.op (Q := Q) o)).run s = pure (result, t) := by
  have unfolded : (around.evaluate run outer (Evaluation.op (Q := Q) o)).run s =
      s.perform run outer o >>= fun y => pure (y.1, y.2) := rfl
  rw [unfolded, performs, pure_bind]

end Operations

theorem Surroundings.evaluate_op_bind {m : Type → Type} [Monad m] [LawfulMonad m] {Q β : Type}
    (around : Surroundings Q m)
    {run : Machine → OptionT m Outcome} {outer : Depth} {o : StackOp} {x : o.Result} {s t : Stack}
    (performs : s.perform run outer o = pure (.ok x, t)) (f : o.Result → Evaluation Q β) :
    (around.evaluate run outer (Evaluation.op o >>= f)).run s =
      (around.evaluate run outer (f x)).run t := by
  rw [around.evaluate_bind, around.evaluate_op performs, pure_bind]

variable {Q α β : Type} {outer : Depth} {p : Evaluation Q α} {f : α → Evaluation Q β}
  {s s' s'' : Stack} {a : α} {b : β}

/-- A program ends an interpreter's run with this result and this stack, with any fuel
from some amount on and whatever answers its questions. -/
def Interpreter.Ends (i : Interpreter Q) (p : Evaluation Q α) (result : Except EngineError α)
    (s : Stack) : Prop :=
  ∃ moves, ∀ {m : Type → Type} [Monad m] [LawfulMonad m]
    (answer : ByteArray → Q → OptionT m (Except String Parcel)) (fuel : Nat),
    moves ≤ fuel → i.evaluate fuel answer p = Pure.pure (result, { i with stack := s })

theorem Interpreter.Ends.unique {i : Interpreter Q} {result result' : Except EngineError α}
    (first : i.Ends p result s) (second : i.Ends p result' s') : result = result' ∧ s = s' := by
  obtain ⟨m₁, run₁⟩ := first
  obtain ⟨m₂, run₂⟩ := second
  have h₁ := run₁ (m := Id) (fun _ _ => failure) (max m₁ m₂) (by omega)
  have h₂ := run₂ (m := Id) (fun _ _ => failure) (max m₁ m₂) (by omega)
  have same : some (result, Interpreter.mk s i.functions) = some (result', ⟨s', i.functions⟩) :=
    congrArg OptionT.run (h₁.symm.trans h₂)
  cases same
  exact ⟨rfl, rfl⟩

theorem Interpreter.evaluate_eq {m : Type → Type} [Monad m] [LawfulMonad m] (i : Interpreter Q)
    {answer : ByteArray → Q → OptionT m (Except String Parcel)} {fuel : Nat}
    {result : Except EngineError α}
    (ended : (Surroundings.evaluate ⟨i.functions, answer⟩
      (Surroundings.drive ⟨i.functions, answer⟩ fuel) i.outermost p).run i.stack =
      pure (result, s)) : i.evaluate fuel answer p = pure (result, { i with stack := s }) := by
  rw [StateT.run] at ended
  rw [Interpreter.evaluate, ended, pure_bind]

/-- While the globals have no metatable, the global becomes the number of the function. -/
theorem Interpreter.bind_bare {m : Type → Type} [Monad m] [LawfulMonad m]
    (i : Interpreter Q) (fuel : Nat) (answer : Q → OptionT m (Except String Parcel))
    (bare : (i.stack.heap.table Heap.globals).metatable = none)
    (name : String) (f : HostFunction Q) :
    i.bind fuel answer name f = pure (.ok (),
      ⟨⟨i.stack.heap.set Heap.globals (.ofText name) (.host i.functions.length), i.stack.values⟩,
        i.functions ++ [f]⟩) :=
  evaluate_eq _ (Surroundings.evaluate_op _ (Stack.perform_setGlobal _ _ bare name _ _))

/-- A program gets through, with this result and this stack. -/
def Comes (outer : Depth) (p : Evaluation Q α) (s : Stack) (a : α) (s' : Stack) : Prop :=
  ∃ moves, ∀ {m : Type → Type} [Monad m] [LawfulMonad m] (around : Surroundings Q m) (fuel : Nat),
    moves ≤ fuel →
    (around.evaluate (around.drive fuel) outer p).run s = pure (.ok a, s')

namespace Comes

theorem pure (a : α) (s : Stack) : Comes outer (pure a : Evaluation Q α) s a s :=
  ⟨0, fun _ _ _ => rfl⟩

theorem bind (first : Comes outer p s a s') (second : Comes outer (f a) s' b s'') :
    Comes outer (p >>= f) s b s'' := by
  obtain ⟨m₁, run₁⟩ := first
  obtain ⟨m₂, run₂⟩ := second
  refine ⟨max m₁ m₂, fun around fuel enough => ?_⟩
  rw [around.evaluate_bind, run₁ around fuel (by omega), pure_bind]
  exact run₂ around fuel (by omega)

theorem op {o : StackOp} {x : o.Result}
    (performs : ∃ moves,
      ∀ {m : Type → Type} [Monad m] [LawfulMonad m] (around : Surroundings Q m) (fuel : Nat),
      moves ≤ fuel → s.perform (around.drive fuel) outer o = Pure.pure (.ok x, s')) :
    Comes (Q := Q) outer (Evaluation.op o) s x s' := by
  obtain ⟨moves, performs⟩ := performs
  exact ⟨moves, fun around fuel enough => around.evaluate_op (performs around fuel enough)⟩

theorem op_pure {o : StackOp} {x : o.Result}
    (performs : ∀ {m : Type → Type} [Monad m] (run : Machine → OptionT m Outcome),
      s.perform run outer o = Pure.pure (.ok x, s')) :
    Comes (Q := Q) outer (Evaluation.op o) s x s' :=
  .op ⟨0, fun around fuel _ => performs (around.drive fuel)⟩

theorem call {id : ClosureId} {args : List Value} {v : Value} {h h' : Heap} {below : List Value}
    (data : ∀ v ∈ args, ∀ f, v ≠ .failure f)
    (returns : Returns (hostDepth outer) ⟨.closure id, args, Site.native⟩ h [v] h') :
    Comes (Q := Q) outer (Evaluation.op (.call args.length 1))
      ⟨h, args.reverse ++ .closure id :: below⟩ ()
      ⟨h', v :: below⟩ := by
  obtain ⟨moves, drive⟩ := drive_of_returns returns
  refine .op ⟨moves, fun around fuel enough => ?_⟩
  rw [Stack.perform_call, h.passAll_eq data, drive around fuel enough, pure_bind]
  rfl

theorem load {source : ByteArray} {name : String} {h h' : Heap} {values values' : List Value}
    (loaded : (⟨h, values⟩ : Stack).load source name = (.ok (), ⟨h', values'⟩)) :
    Comes (Q := Q) outer (Evaluation.op (.load source name)) ⟨h, values⟩ () ⟨h', values'⟩ := by
  refine .op_pure fun run => ?_
  rw [Stack.perform, loaded]
  rfl

theorem pushText {h h' : Heap} {values : List Value} (t : String) (now : h.collectsNow = true)
    (gives : Gives (hostDepth outer) (Collector.collect (.ofText t :: values) h) () h') :
    Comes (Q := Q) outer (Evaluation.op (.pushText t)) ⟨h, values⟩ ()
      ⟨h', .ofText t :: values⟩ := by
  obtain ⟨moves, drive⟩ := drive_of_gives gives
  refine .op ⟨moves, fun around fuel enough => ?_⟩
  rw [Stack.perform, Stack.pushText, if_pos now]
  dsimp only [Stack.push]
  rw [drive around fuel enough, pure_bind]
  rfl

theorem run {i : Interpreter Q} (comes : Comes i.outermost p i.stack a s') :
    i.Ends p (.ok a) s' := by
  obtain ⟨moves, run⟩ := comes
  exact ⟨moves, fun answer fuel enough => i.evaluate_eq (run ⟨i.functions, answer⟩ fuel enough)⟩

theorem unique {b : α} {t : Stack} (first : Comes outer p s a s') (second : Comes outer p s b t) :
    a = b ∧ s' = t := by
  obtain ⟨m₁, run₁⟩ := first
  obtain ⟨m₂, run₂⟩ := second
  let around : Surroundings Q Id := ⟨[], fun _ _ => failure⟩
  have h₁ := run₁ around (max m₁ m₂) (by omega)
  have h₂ := run₂ around (max m₁ m₂) (by omega)
  have same : some (Except.ok (ε := EngineError) a, s') = some (.ok b, t) :=
    congrArg OptionT.run (h₁.symm.trans h₂)
  cases same
  exact ⟨rfl, rfl⟩

end Comes

def Halts (outer : Depth) (p : Evaluation Q α) (s : Stack) (e : EngineError) (s' : Stack) : Prop :=
  ∃ moves, ∀ {m : Type → Type} [Monad m] [LawfulMonad m] (around : Surroundings Q m) (fuel : Nat),
    moves ≤ fuel →
    (around.evaluate (around.drive fuel) outer p).run s = pure (.error e, s')

namespace Halts

variable {e : EngineError}

theorem first (halts : Halts outer p s e s') : Halts outer (p >>= f) s e s' := by
  obtain ⟨moves, run⟩ := halts
  refine ⟨moves, fun around fuel enough => ?_⟩
  rw [around.evaluate_bind, run around fuel enough, pure_bind]

theorem bind (comes : Comes outer p s a s') (halts : Halts outer (f a) s' e s'') :
    Halts outer (p >>= f) s e s'' := by
  obtain ⟨m₁, run₁⟩ := comes
  obtain ⟨m₂, run₂⟩ := halts
  refine ⟨max m₁ m₂, fun around fuel enough => ?_⟩
  rw [around.evaluate_bind, run₁ around fuel (by omega), pure_bind]
  exact run₂ around fuel (by omega)

theorem run {i : Interpreter Q} (halts : Halts i.outermost p i.stack e s') :
    i.Ends p (.error e) s' := by
  obtain ⟨moves, run⟩ := halts
  exact ⟨moves, fun answer fuel enough => i.evaluate_eq (run ⟨i.functions, answer⟩ fuel enough)⟩

theorem op {o : StackOp}
    (performs : ∃ moves,
      ∀ {m : Type → Type} [Monad m] [LawfulMonad m] (around : Surroundings Q m) (fuel : Nat),
      moves ≤ fuel → s.perform (around.drive fuel) outer o = Pure.pure (.error e, s')) :
    Halts (Q := Q) outer (Evaluation.op o) s e s' := by
  obtain ⟨moves, performs⟩ := performs
  exact ⟨moves, fun around fuel enough => around.evaluate_op (performs around fuel enough)⟩

theorem call (args below : List Value) {id : ClosureId} {h h' : Heap}
    (throws : Throws (hostDepth outer) ⟨.closure id, (h.passAll args).1, Site.native⟩
      (h.passAll args).2 h')
    (silent : ∀ s, h'.metamethod (.string s) (eventKey "tostring") = .nil) :
    ∃ s, Halts (Q := Q) outer (Evaluation.op (.call args.length 1))
      ⟨h, args.reverse ++ .closure id :: below⟩
      (.ofRaised (.string s)) ⟨h', below⟩ := by
  obtain ⟨s, moves, drive⟩ := drive_of_throws throws silent
  refine ⟨s, .op ⟨moves, fun around fuel enough => ?_⟩⟩
  have called := Stack.perform_call (around.drive fuel) outer args h id below
  rw [called, drive around fuel enough, pure_bind]
  rfl

end Halts
end SealedLua
