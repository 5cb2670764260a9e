import SealedLua.Gateway.Dispatcher
import SealedLua.Proofs.Engine.StackDiscipline

/-!
# Calls and the frames of host functions

The host calls scripts with the values on its stack, and scripts call the host
with values of theirs; both ways the number of values that cross is declared.
A call on a stack passes its arguments in order and pushes as many results as it
asks for.  A function of the host starts on a stack of its own, its frame, on as many arguments
as it declares, and whatever it leaves there is returned; if it fails, an error
is raised where it was called.
-/

namespace SealedLua

open Lua Machine

variable {Q : Type} {m : Type → Type} [Monad m]

/-- How calls between the host and scripts exchange values. -/
structure Surroundings.Exchanges (around : Surroundings Q m) : Prop where
  /-- Values cross in order, and as they are; only a failure is copied. -/
  passes (h : Heap) (vs : List Value) : List.Forall₂ Value.PassesAs vs (h.passAll vs).1
  /-- A call takes the function and its arguments, whatever becomes of it.  It leaves as
  many results as it asks for, the first ones in order, or none when it fails. -/
  call (run : Machine → OptionT m Outcome) (outer : Depth) (h : Heap) (S : List Value)
    (f : Value) (args : List Value) (count : Nat) :
    Stack.perform run outer ⟨h, args.reverse ++ f :: S⟩ (.call args.length count) =
      if f.isFunction then do
        match ← run (.ofCall outer f (h.passAll args).1 (h.passAll args).2) with
        | .finished results h' =>
          return (.ok (),
            ⟨h', (results.take count ++ List.replicate (count - results.length)
            Value.nil).reverse ++ S⟩)
        | .raised e h' => return (.error (.ofRaised e), ⟨h', S⟩)
      else pure (.error (.wrongKind "a function"), ⟨h, S⟩)
  /-- Without enough values a call does nothing. -/
  short (run : Machine → OptionT m Outcome) (outer : Depth) (h : Heap)
    (values : List Value) (argc count : Nat) (few : values.length < argc + 1) :
    Stack.perform run outer ⟨h, values⟩ (.call argc count) =
      pure (.error (.underflow "call" (argc + 1) values.length), ⟨h, values⟩)
  /-- The machine of a call enters the function on these arguments, unless calls are nested
  too deep, and finishes with the results that the function returns. -/
  enters (outer : Depth) (h : Heap) (f : Value) (args : List Value)
    (room : (∃ id, f = .closure id) ∨ outer.calls < outer.limit ∧
      outer.nested + 2 < Depth.nestedLimit) :
    ∃ frames depth, ∀ fuel,
      around.drive (fuel + 1) (.ofCall outer f args h) =
        around.drive fuel ⟨frames, depth, .invoke ⟨f, args, Site.native⟩ h⟩ ∧
      ∀ results h', around.drive (fuel + 3) ⟨frames, depth, .step (.done (.ret results) h')⟩ =
        pure (.finished results h')
  /-- A function of the host starts on its arguments alone, as many as it declares.  What it
  leaves is returned in order, and a failure of it is an error at the place of the call. -/
  frame (id : HostId) (f : HostFunction Q) (bound : around.functions[id]? = some f)
    (frames : List Frame) (depth : Depth)
    (args : List Value) (site : Site) (h : Heap) (fuel : Nat) :
    around.drive (fuel + 1) ⟨frames, depth, .invoke ⟨.host id, args, site⟩ h⟩ = do
      match ← (around.evaluate (around.drive fuel) depth f.body).run
          ⟨h, (args.take f.arity ++ List.replicate (f.arity - args.length) Value.nil).reverse⟩ with
      | (.ok (), left) =>
        let (values, heap) := left.heap.passAll left.values.reverse
        around.drive fuel ⟨frames, depth, .step (.done (.ret values) heap)⟩
      | (.error e, left) =>
        let (failure, heap) := left.heap.newFailure e.asFailure
        around.drive fuel ⟨frames, depth, .step (.raise failure heap)⟩

/-- How scripts get hold of errors. -/
structure ErrorsCaught : Prop where
  /-- `pcall` calls its first argument on the others. -/
  enters (frames : List Frame) (depth : Depth)
    (room : (depth.enter Site.native).Admits 0 0) (f : Value)
    (args : List Value) (site : Site) (heap : Heap) :
    Reaches ⟨frames, depth, .invoke ⟨.builtin .pcall, f :: args, site⟩ heap⟩
      ⟨.pcall :: frames, depth.enter Site.native, .invoke ⟨f, args, Site.native⟩ heap⟩
  /-- It returns the results, after `true`. -/
  returns (frames : List Frame) (depth : Depth) (results : List Value) (heap : Heap) :
    Reaches ⟨.pcall :: frames, depth, .step (.done (.ret results) heap)⟩
      ⟨frames, depth.leave Site.native, .step (.done (.ret (.boolean true :: results)) heap)⟩
  /-- It returns an error of the function or of one that it has called, after `false`. -/
  catches (above : List Frame) (passes : ∀ frame ∈ above, frame.Passes)
    (frames : List Frame) (depth : Depth) (error : Value) (heap : Heap) :
    ∃ depth', Reaches ⟨above ++ .pcall :: frames, depth, .step (.raise error heap)⟩
      ⟨frames, depth', .step (.done (.ret [.boolean false, error]) heap)⟩

theorem errorsCaught : ErrorsCaught where
  enters frames _ room f args site heap := enters_pcall frames room f args site heap
  returns _ _ _ _ := .move rfl (.refl _)
  catches _ passes frames depth error heap := caught passes frames error heap depth

theorem Surroundings.exchanges (around : Surroundings Q m) : around.Exchanges where
  passes h vs := h.passesAs_passAll vs
  call run outer h S f args count := by
    rw [Stack.perform_call_eq]
    refine if_congr Iff.rfl (bind_congr (m := OptionT m) fun outcome => ?_) rfl
    cases outcome <;> rfl
  short run outer h values argc count few := by
    rw [Stack.perform, Stack.call, if_pos few]
    rfl
  enters outer h f args room := by
    by_cases closure : ∃ id, f = .closure id
    · obtain ⟨id, rfl⟩ := closure
      exact ⟨(Machine.ofCall outer (.closure id) args h).frames, hostDepth outer,
        fun fuel => ⟨rfl, fun _ _ => rfl⟩⟩
    · -- The host's call is made in place of a last one of a script, so another frame waits for it.
      let waiting := Frame.call Site.native fun vs h => .done (.ret vs) h
      let frames := (ofCall outer f args h).frames
      have shallow : (hostDepth outer).Admits 0 1 := room.resolve_left closure
      have inner : ((hostDepth outer).enter Site.native).Admits 0 0 := shallow.enter_nested rfl
      have entered : (ofCall outer f args h).next =
          .more (wait frames (hostDepth outer) waiting ⟨f, args, Site.native⟩ h) := by
        cases f with
        | closure id => exact absurd ⟨id, rfl⟩ closure
        | _ => rfl
      refine ⟨waiting :: frames, (hostDepth outer).enter Site.native,
        fun fuel => ⟨?_, fun _ _ => rfl⟩⟩
      rw [drive, entered, wait, inner.excess?]
  frame id f bound frames depth args site h fuel := by
    have waits : (⟨frames, depth, .invoke ⟨.host id, args, site⟩ h⟩ : Machine).next =
      .waits ⟨id, args, h, frames, depth⟩ := rfl
    rw [drive, waits]
    simp only [bound]
    refine bind_congr (m := OptionT m) fun ended => ?_
    obtain ⟨ended, left⟩ := ended
    cases ended <;> rfl

namespace Interpreter

variable [LawfulMonad m] {α : Type} (i : Interpreter Q) (fuel : Nat)

theorem functions_evaluate (answer : ByteArray → Q → OptionT m (Except String Parcel))
    (p : Evaluation Q α) :
    Always (fun r => r.2.functions = i.functions) (i.evaluate fuel answer p) :=
  (always_true _).map fun _ _ => rfl

theorem functions_bind (answer : Q → OptionT m (Except String Parcel))
    (name : String) (f : HostFunction Q) :
    Always (fun r => r.2.functions = i.functions ++ [f]) (i.bind fuel answer name f) :=
  functions_evaluate ⟨i.stack.push (.host i.functions.length), i.functions ++ [f]⟩
    fuel (fun _ => answer) _

end Interpreter

section HostCall

variable {before : List Value}

theorem leaves_ask (q : Q) : Leaves (Evaluation.ask q) before fun _ _ after => after = before := by
  intro history ended after performs walks
  obtain ⟨x, first, second, rfl, asked, rest⟩ := Program.performs_bind.1 performs
  obtain rfl := Program.performs_ask.1 asked
  obtain ⟨rfl, rfl⟩ := Program.performs_done.1 rest
  cases walks with
  | question q x later =>
    cases later
    rfl

/-- A call that succeeds leaves the value of its answer and nothing else. -/
theorem leaves_hostCall (v w : Value) :
    Leaves Gateway.hostCall [v, w] fun _ ended after => ended = .ok () → ∃ r, after = [r] := by
  refine (leaves_encode v [w]).bind (fun _ _ _ _ => nofun) ?_
  rintro _ argument _ rfl
  refine .op [w] rfl rfl (fun _ _ => nofun) fun name left zero => ?_
  obtain rfl := List.length_eq_zero_iff.1 zero
  refine (leaves_ask _).bind (fun _ _ _ _ => nofun) ?_
  rintro _ result _ rfl
  cases result with
  | error reason =>
    intro history ended after performs _ succeeds
    obtain ⟨-, rfl⟩ := Program.performs_done.1 performs
    cases succeeds
  | ok result =>
    intro history ended after performs walks succeeds
    have decoded := leaves_decode result [] _ _ _ performs walks
    rw [succeeds] at decoded
    exact decoded

end HostCall

/-- Calls exchange exactly the declared numbers of values, between the host and
scripts and between scripts and functions of the host, and scripts can catch
the failures of these.  A function of the host that is bound is called under the
number that becomes the value of its global, in this run and in all later ones.  The
function that runs saved scripts returns one value whenever it succeeds. -/
theorem values_exchanged [LawfulMonad m] (around : Surroundings Q m) :
    around.Exchanges ∧ ErrorsCaught ∧
    (∀ (i : Interpreter Q) (fuel : Nat),
      (∀ (answer : Q → OptionT m (Except String Parcel)) name f,
        Always (fun r => r.2.functions = i.functions ++ [f]) (i.bind fuel answer name f) ∧
        ((i.stack.heap.table Heap.globals).metatable = none →
          i.bind fuel answer name f = pure (.ok (),
          ⟨⟨i.stack.heap.set Heap.globals (.ofText name) (.host i.functions.length),
            i.stack.values⟩,
            i.functions ++ [f]⟩))) ∧
      ∀ (answer : ByteArray → Q → OptionT m (Except String Parcel)) (α : Type) (p : Evaluation Q α),
        Always (fun r => r.2.functions = i.functions) (i.evaluate fuel answer p)) ∧
    ∀ (around : Surroundings NestedCall m) (run : Machine → OptionT m Outcome) (outer : Depth)
      (h : Heap) (args : List Value),
      Always (fun r => r.1 = .ok () → ∃ v, r.2.values = [v])
        ((around.evaluate run outer Gateway.hostCall).run
          ⟨h, (args.take 2 ++ List.replicate (2 - args.length) Value.nil).reverse⟩) := by
  refine ⟨around.exchanges, errorsCaught, fun i fuel =>
    ⟨fun answer name f => ⟨?_, fun bare => ?_⟩, fun answer _ p => ?_⟩,
    fun around run outer h args => ?_⟩
  · exact i.functions_bind fuel answer name f
  · exact i.bind_bare fuel answer bare name f
  · exact i.functions_evaluate fuel answer p
  · obtain ⟨v, w, frame⟩ :=
      List.length_eq_two.1 ((List.length_reverse).trans (length_adjust 2 args))
    rw [adjust] at frame
    rw [frame]
    exact (leaves_hostCall v w).evaluate around run outer (s := ⟨h, [v, w]⟩)

/-- A function of the host with two arguments that swaps them. -/
def swapping : Surroundings Empty Id := ⟨[⟨2, Evaluation.op .swap⟩], fun _ _ => failure⟩

/-- Called with one argument, it returns `nil` and the argument; `pcall` of it is a call of it. -/
theorem values_exchanged_swapping :
    LawfulMonad Id ∧
    (([] : List Value).length < 1 + 1 ∧
      Stack.perform (swapping.drive 2) (.outermost 9) ⟨{}, []⟩ (.call 1 1) =
      pure (.error (.underflow "call" 2 0), ⟨{}, []⟩)) ∧
    (0 < 9 ∧ 0 + 2 < Depth.nestedLimit ∧ ∃ frames depth,
      swapping.drive 3 (.ofCall (.outermost 9) (.host 0) [.integer 7] {}) =
      swapping.drive 2 ⟨frames, depth, .invoke ⟨.host 0, [.integer 7], Site.native⟩ {}⟩) ∧
    swapping.drive 2 ⟨[], .outermost 9, .invoke ⟨.host 0, [.integer 7], Site.native⟩ {}⟩ =
      pure (.finished [.nil, .integer 7] {}) ∧
    Reaches ⟨[], .outermost 9, .invoke ⟨.builtin .pcall, [.host 0, .integer 7], Site.native⟩ {}⟩
      ⟨[.pcall], ⟨9, 0, 1⟩, .invoke ⟨.host 0, [.integer 7], Site.native⟩ {}⟩ ∧
    ((({} : Heap).table Heap.globals).metatable = none ∧
      (⟨⟨{}, []⟩, []⟩ : Interpreter Empty).bind 0 (swapping.answer (bytes [])) "f" ⟨0, pure ()⟩ =
        pure (.ok (),
          ⟨⟨({} : Heap).set Heap.globals (.ofText "f") (.host 0), []⟩, [⟨0, pure ()⟩]⟩)) := by
  obtain ⟨exchanges, errors, binds, -⟩ := values_exchanged swapping
  obtain ⟨frames, depth, enters⟩ := exchanges.enters (.outermost 9) {} (.host 0) [.integer 7]
    (.inr ⟨by decide, by decide⟩)
  exact ⟨inferInstance, ⟨by decide, exchanges.short _ (.outermost 9) {} [] 1 1 (by decide)⟩,
    ⟨by decide, by decide, frames, depth, (enters 2).1⟩,
    (exchanges.frame 0 _ rfl [] (.outermost 9) [.integer 7] Site.native {} 1).trans rfl,
    errors.enters [] (.outermost 9) ⟨by decide, by decide⟩ (.host 0) [.integer 7] Site.native {},
    rfl, ((binds ⟨⟨{}, []⟩, []⟩ 0).1 (swapping.answer (bytes [])) "f" ⟨0, pure ()⟩).2 rfl⟩

end SealedLua
