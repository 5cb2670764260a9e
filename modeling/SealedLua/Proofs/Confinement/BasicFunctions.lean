import SealedLua.Proofs.Confinement.Natives

/-!
# The basic functions under a confinement

What they give back they were given, found in the heap, got from a function that
they called, or made: a function that a chunk was read as is a new one, in whose
scope there is nothing but its environment.
-/

namespace SealedLua.Lua.Confinement

variable {C : Confinement} {α : Type} {P : α → Prop}

namespace SafeNative

theorem raiseAt {v : Value} (free : C.free v) (level : Int64) :
    C.SafeNative P (Base.raiseAt v level : Native α) := by
  unfold Base.raiseAt
  split
  · exact ite (fun _ => (place _).bind fun _ _ => raise (C.free_string _)) fun _ => raise free
  · exact raise free

theorem outcome {x : Native (Except Value (List Value))} (h : C.SafeNative C.SafeEnded x) :
    C.SafeNative C.Frees (do return Base.outcome (← x)) := by
  refine h.bind fun r ended => pure ?_
  cases r with
  | ok vs => exact frees_cons.2 ⟨C.free_boolean _, ended⟩
  | error e => exact frees_cons.2 ⟨C.free_boolean _, frees_cons.2 ⟨ended, frees_nil⟩⟩

theorem one {x : Native Value} (h : C.SafeNative C.free x) :
    C.SafeNative C.Frees (do return [← x]) :=
  h.bind fun v free => pure (by simp [free])

end SafeNative

namespace SafeFunction

open SafeNative hiding pure bind forM mapM call ite

theorem assert : C.SafeFunction Base.assert := by
  intro args h
  refine (anyArg 1 h).bind fun v _ => .ite (fun _ => .pure h) fun _ => ?_
  refine raiseAt ?_ 1
  cases there : Native.given args 2 with
  | none => exact C.free_ofAscii _
  | some w => exact free_of_given h 2 there

theorem error : C.SafeFunction Base.error := fun _ h => (integerArgOr 2 1).bind fun level _ =>
  raiseAt (free_arg h 1) level

theorem ofCollector {f : Collector → Value × Collector} (data : ∀ c, (f c).1.isFunction = false) :
    C.SafeNative C.free (Base.ofCollector f) :=
  lift (.modifyGet fun _ holds => ⟨C.data (data _), { holds with }⟩)

theorem performOption (first second third : Int) (option : Base.CollectorOption) :
    C.SafeNative C.free (option.perform first second third) := by
  cases option with
  | collect => exact (lift (.collect [])).bind fun _ _ => .pure (C.free_integer 0)
  | count => exact bindGet fun _ _ => ofCollector fun _ => rfl
  | step =>
    refine bindGet fun _ _ => .ite (fun _ => ?_) fun _ => ofCollector fun _ => rfl
    exact (lift (.collect [])).bind fun _ _ => .pure (C.free_boolean true)
  | generational =>
    refine (ofCollector fun _ => rfl).bind fun mode free => ?_
    exact guarded (lift (.collect [])) fun _ => .pure free
  | _ =>
    simp only [Base.CollectorOption.perform]
    exact ofCollector fun _ => rfl

theorem collectgarbage : C.SafeFunction Base.collectgarbage := by
  intro args h
  refine (stringArgOr 1 _).bind fun name _ => ?_
  split
  · next option _ =>
    have word : ∀ number, C.SafeNative (fun _ => True)
        (if number ≤ option.parameters then Base.wordArg args (number + 1) else Pure.pure 0) :=
          fun number =>
      .ite (fun _ => (integerArgOr _ 0).bind fun _ _ => .pure trivial) fun _ => .pure trivial
    refine (word 1).bind fun first _ => (word 2).bind fun second _ =>
      (word 3).bind fun third _ => ?_
    refine (lift (.gets (P := fun _ => True) fun _ _ => trivial)).bind fun finalizing _ =>
      .ite (fun _ => ?_) fun _ => ?_
    · exact .pure (by simp)
    · exact one (performOption first second third option)
  · exact badArgument _ _

theorem getmetatable : C.SafeFunction Base.getmetatable := by
  intro args h
  refine (anyArg 1 h).bind fun v _ => bindGet fun g holds => ?_
  split
  · exact .pure (by simp)
  · split
    · exact .pure (by simp)
    · refine .pure (frees_cons.2 ⟨?_, frees_nil⟩)
      split
      · exact C.free_table _
      · exact holds.metamethod _ _

theorem changeMetatable (id : TableId) (metatable : Option TableId) :
    C.SafeNative C.Frees (Base.changeMetatable id metatable) := by
  refine (lift (.metamethod (.table id) (eventKey "metatable"))).bind fun shown _ =>
    guarded (failText _) fun _ => ?_
  refine (lift (.modify fun g holds => ?_)).bind fun _ _ =>
    (lift (.modify fun g holds => ?_)).bind fun _ _ => .pure ?_
  · exact holds.modifyTable id fun _ safe => safe
  · exact holds.mark id metatable
  · simp

theorem setmetatable : C.SafeFunction Base.setmetatable := by
  intro args h
  refine (tableArg 1).bind fun id _ => ?_
  split
  · exact changeMetatable id none
  · exact changeMetatable id _
  · exact wrongType _ _

theorem ipairs : C.SafeFunction Base.ipairs := fun _ h =>
  (anyArg 1 h).bind fun v free => .pure (by simp [free, C.ipairsNext])

theorem ipairsNext : C.SafeFunction Base.ipairsNext := by
  intro args h
  refine (integerArg 2).bind fun n _ =>
    (lookup (free_arg h 1) (C.free_integer _)).bind fun v free => .pure ?_
  split
  · simp
  · simp [free]

theorem next : C.SafeFunction Base.next := by
  intro args h
  have found : ∀ id, C.SafeNative (fun x => ∀ k v, x = some (some (k, v)) → C.free k ∧ C.free v)
      (Action.gets (·.entryAfter? id (Native.arg args 2))) := fun id =>
    lift (.gets fun _ holds k v found => (holds.table id).entryAfter? found)
  refine (tableArg 1).bind fun id _ => (found id).bind fun x free => ?_
  split
  · exact raise (C.free_ofAscii _)
  · next k v =>
    obtain ⟨key, value⟩ := free k v rfl
    exact .pure (by simp [key, value])
  · exact .pure (by simp)

theorem pairs : C.SafeFunction Base.pairs := by
  intro args h
  refine (anyArg 1 h).bind fun v free =>
    (lift (.metamethod v (eventKey "pairs"))).bind fun f callee => ?_
  refine .ite (fun _ => .pure (by simp [free, C.next])) fun _ => ?_
  exact (SafeNative.call callee (by simp [free])).bind fun vs frees => .pure (frees_adjust frees 3)

theorem pcall : C.SafeFunction Base.pcall := fun _ h =>
  (anyArg 1 h).bind fun _ free => outcome (lift (.protect free (frees_drop h 1) _ (by simp)))

theorem xpcall : C.SafeFunction Base.xpcall := by
  intro args h
  refine guarded (wrongType 2 "function") fun _ =>
    outcome (lift (.protect (free_arg h 1) (frees_drop h 2) _ ?_))
  rintro f ⟨rfl⟩
  exact free_arg h 2

theorem printEach (before : ByteArray) {vs : List Value} (h : C.Frees vs) :
    C.SafeNative (fun _ => True) (Base.printEach before vs) := by
  induction vs generalizing before with
  | nil => exact .pure trivial
  | cons v vs ih =>
    have both := frees_cons.1 h
    exact (display both.1).bind fun _ _ =>
      (lift (.modify fun _ holds => holds.print _)).bind fun _ _ => ih _ both.2

theorem print : C.SafeFunction Base.print := fun _ h =>
  (printEach _ h).bind fun _ _ => (lift (.modify fun _ holds => holds.print _)).bind fun _ _ =>
    .pure frees_nil

theorem warn : C.SafeFunction Base.warn := by
  intro args h
  refine (stringArg 1).bind fun _ _ => (SafeNative.forM fun i _ => ?_).bind fun _ _ =>
    .pure frees_nil
  exact (stringArg (i + 1)).bind fun _ _ => .pure trivial

theorem rawequal : C.SafeFunction Base.rawequal := fun _ h =>
  (anyArg 1 h).bind fun _ _ => (anyArg 2 h).bind fun _ _ => .pure (by simp)

theorem rawlen : C.SafeFunction Base.rawlen := by
  intro args h
  refine bindGet fun g _ => ?_
  split
  · exact .pure (by simp)
  · exact .pure (by simp)
  · exact wrongType _ _

theorem rawget : C.SafeFunction Base.rawget := fun _ h =>
  (tableArg 1).bind fun _ _ => (anyArg 2 h).bind fun _ _ => bindGet fun _ holds =>
    .pure (by simp [holds.get])

theorem rawset : C.SafeFunction Base.rawset := by
  intro args h
  refine (tableArg 1).bind fun id _ => (anyArg 2 h).bind fun k key =>
    (anyArg 3 h).bind fun v value => ?_
  exact (lift (.store none id key value)).bind fun _ _ => .pure (by simp)

theorem select : C.SafeFunction Base.select := by
  intro args h
  refine .ite (fun _ => .pure (by simp)) fun _ => (integerArg 1).bind fun n _ => ?_
  exact .ite (fun _ => badArgumentText _ _) fun _ => .pure (frees_drop h _)

theorem tonumber : C.SafeFunction Base.tonumber := by
  have read : ∀ {α : Type} (x : Option α) (f : α → Value), (∀ a, C.free (f a)) →
      C.Frees [(x.map f).getD .nil] := by
    intro α x f free
    cases x <;> simp [free]
  intro args h
  refine .ite (fun _ => ?_) fun _ => (integerArg 2).bind fun base _ => ?_
  · split
    · exact .pure (by simp)
    · exact .pure (by simp)
    · exact .pure (read _ _ C.free_ofNumber)
    · exact (anyArg 1 h).bind fun _ _ => .pure (by simp)
  · split
    · exact .ite (fun _ => badArgumentText _ _) fun _ => .pure (read _ _ C.free_integer)
    · exact wrongType _ _

theorem tostring : C.SafeFunction Base.tostring := fun _ h =>
  (anyArg 1 h).bind fun _ free => (display free).bind fun _ _ => .pure (by simp)

theorem errorText : C.SafeFunction Base.errorText := by
  intro args h
  unfold Base.errorText
  split
  · exact .pure (by simp)
  · exact (display (free_arg h 1)).bind fun _ _ => .pure (by simp)

theorem type : C.SafeFunction Base.type := fun _ h => (anyArg 1 h).bind fun _ _ => .pure (by simp)

theorem gather {f : Value} (callee : C.free f) (n : Nat) (text : ByteArray) :
    C.SafeNative (fun x => ∀ e, x = .error e → C.free e) (Base.gather f n text) := by
  induction n generalizing text with
  | zero => exact .pure fun _ => nofun
  | succ n ih =>
    refine (lift (.protect callee frees_nil _ (by simp))).bind fun x ended => ?_
    split
    · exact .pure fun e same => by
        cases same
        exact ended
    · split
      · exact .pure fun _ => nofun
      · split
        · exact .pure fun e same => by
            cases same
            exact C.free_ofAscii _
        · exact .ite (fun _ => .pure fun _ => nofun) fun _ => ih _

theorem compile (source name mode : ByteArray) {environment : Option Value}
    (free : ∀ v ∈ environment, C.free v) :
    C.SafeNative C.Frees (Base.compile source name mode environment) := by
  have globals : C.free (environment.getD (.table Heap.globals)) := by
    cases environment with
    | none => exact C.free_table _
    | some v => exact free v rfl
  have made : C.SafeNative (fun x => ∀ f, x = .ok f → C.free f)
      (Action.modifyGet (·.loadChunk source (Chunk.shownName (Base.untilZero name))
        (environment.getD (.table Heap.globals)))) :=
    lift (.modifyGet fun _ holds => holds.loadChunk source _ globals)
  refine .ite (fun _ => .pure (by simp)) fun _ => made.bind fun x free => ?_
  split
  · exact .pure (by simp)
  · exact .pure (by simp [free])

theorem load : C.SafeFunction Base.load := by
  intro args h
  have environment : ∀ v ∈ Native.given args 4, C.free v := fun v there => free_of_given h 4 there
  refine (stringArgOr 3 _).bind fun mode _ => ?_
  split
  · exact (stringArgOr 2 _).bind fun name _ => compile _ _ _ environment
  · refine (stringArgOr 2 _).bind fun name _ => guarded (wrongType 1 "function") fun _ => ?_
    refine (gather (free_arg h 1) _ _).bind fun x free => ?_
    split
    · exact .pure (by simp [free])
    · exact compile _ _ _ environment

end SafeFunction
end SealedLua.Lua.Confinement
