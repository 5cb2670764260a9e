import SealedLua.Lua.Machine
import Mathlib.Tactic.Common

/-!
# Errors that nothing catches

An error that finds no guard on the frames ends the machine with an error.  It
may be another error by then: on its way it closes values and calls the handler
of the guard that the host set up, and these run code of the script.  But that
code runs above a frame to which the machine comes back with an error, whatever
the code does, so the invariant is that the machine is on its way or above such a
frame (`Doomed`).
-/

namespace SealedLua.Lua

open Machine

/-- Frames that do not catch: a guard among them raises again what it is given. -/
inductive Uncaught : List Frame → Prop
  | nil : Uncaught []
  | call {site : Site} {k : List Value → Heap → Step Flow} {rest : List Frame}
      (below : Uncaught rest) :
      Uncaught (.call site k :: rest)
  | task {closing : Option (Value × Position)} {k : Flow → Heap → Step Flow} {rest : List Frame}
      (below : Uncaught rest) :
      Uncaught (.task closing k :: rest)
  | closing {error : Value} {rest : List Frame} (below : Uncaught rest) :
    Uncaught (.closing error :: rest)
  | handler {rest : List Frame} (below : Uncaught rest) : Uncaught (.handler :: rest)
  | guard {site : Site} {handler : Option Value} {k : Except Value (List Value) → Heap →
      Step Flow} {rest : List Frame}
      (passes : ∀ error heap, k (.error error) heap = .raise error heap) (below : Uncaught rest) :
      Uncaught (.guard site handler k :: rest)

/-- Frames to which the machine comes back with an error. -/
inductive Frame.EndsInError : Frame → Prop
  | closing (error : Value) : EndsInError (.closing error)
  | handler : EndsInError .handler

/-- Frames at the bottom of which an error that nothing catches goes on. -/
inductive Fated : List Frame → Prop
  | here {frame : Frame} {rest : List Frame} (ends : frame.EndsInError) (uncaught : Uncaught rest) :
  Fated (frame :: rest)
  | above {frame : Frame} {rest : List Frame} (below : Fated rest) : Fated (frame :: rest)

/-- The machine is on its way to an error that nothing catches. -/
inductive Doomed : Machine → Prop
  | unwinding {frames : List Frame} {depth : Depth} {error : Value} {heap : Heap}
    (uncaught : Uncaught frames) :
      Doomed ⟨frames, depth, .unwind error heap⟩
  | raising {frames : List Frame} {depth : Depth} {error : Value} {heap : Heap}
      (uncaught : Uncaught frames) :
      Doomed ⟨frames, depth, .step (.raise error heap)⟩
  | fated {frames : List Frame} {depth : Depth} {control : Control} (fated : Fated frames) :
      Doomed ⟨frames, depth, control⟩

/-- What may come of a move of a machine on its way to an error: never results. -/
def Progress.IsDoomed : Progress → Prop
  | .more machine => Doomed machine
  | .finished _ _ => False
  | .raised _ _ => True
  | .waits c => ∀ result heap, Doomed (c.resume result heap)

section Moves

variable {frames rest : List Frame} {depth : Depth} {heap : Heap} {site : Site} {error : Value}

theorem Fated.below_call {k : List Value → Heap → Step Flow} (h : Fated (.call site k :: rest)) :
    Fated rest := by
  cases h with
  | here ends _ => cases ends
  | above below => exact below

theorem Fated.below_guard {handler : Option Value}
    {k : Except Value (List Value) → Heap → Step Flow}
    (h : Fated (.guard site handler k :: rest)) : Fated rest := by
  cases h with
  | here ends _ => cases ends
  | above below => exact below

theorem Fated.below_task {closing : Option (Value × Position)} {k : Flow → Heap → Step Flow}
    (h : Fated (.task closing k :: rest)) : Fated rest := by
  cases h with
  | here ends _ => cases ends
  | above below => exact below

theorem Fated.after {frame : Frame} (h : Fated (frame :: rest)) :
    Doomed ⟨rest, depth, .unwind error heap⟩ := by
  cases h with
  | here _ uncaught => exact .unwinding uncaught
  | above below => exact .fated below

theorem Fated.wait (h : Fated frames) (frame : Frame) (request : Call) :
    Doomed (Machine.wait frames depth frame request heap) := by
  unfold Machine.wait
  dsimp only
  split
  · exact .fated h
  · exact .fated (.above h)

/-- Whatever runs above a fated frame ends above it, or comes back to it. -/
theorem Fated.deliver (h : Fated frames) (flow : Flow) :
    (Machine.deliver frames depth flow heap).IsDoomed := by
  unfold Machine.deliver
  split
  · exact .fated h
  · exact .fated h.below_task
  · exact h.below_task.wait _ _
  · split
    · exact .fated h
    · exact h.wait _ _
  · exact .fated h.below_call
  · exact .fated h.below_guard
  · exact h.after
  · exact h.after
  · cases h

theorem Fated.raise (h : Fated frames) : Doomed (Machine.raise frames depth error heap) := by
  unfold Machine.raise
  split
  · exact .fated h
  · split
    · exact .fated h
    · exact .fated (.above h)

theorem Fated.unwind (h : Fated frames) : (Machine.unwind frames depth error heap).IsDoomed := by
  unfold Machine.unwind
  split
  · cases h
  · exact .fated h.below_call
  · exact .fated h.below_guard
  · exact .fated h.below_task
  · exact h.below_task.wait _ _
  · exact h.after
  · exact h.after

theorem Fated.invoke (h : Fated frames) (request : Call) :
    (Machine.invoke frames depth request heap).IsDoomed := by
  unfold Machine.invoke
  split
  · exact .fated h
  · exact .fated h
  · exact .fated h
  · intro result after
    cases result with
    | ok values => exact .fated h
    | error e => exact .fated h
  · dsimp only
    split
    · exact .fated h
    · exact .fated h

theorem Uncaught.raise (h : Uncaught frames) : Doomed (Machine.raise frames depth error heap) := by
  unfold Machine.raise
  split
  · exact .unwinding h
  · split
    · exact .unwinding h
    · exact .fated (.here .handler h)

/-- An error on its way takes a frame off, and may close a value then. -/
theorem Uncaught.unwind (h : Uncaught frames) :
    (Machine.unwind frames depth error heap).IsDoomed := by
  cases h with
  | nil => trivial
  | call below => exact .unwinding below
  | guard passes below =>
    simp only [Machine.unwind, passes]
    exact .raising below
  | @task closing k rest below =>
    cases closing with
    | none => exact .unwinding below
    | some v =>
      simp only [Machine.unwind, Machine.close, Machine.wait]
      split
      · exact .raising below
      · exact .fated (.here (.closing _) below)
  | closing below => exact .unwinding below
  | handler below => exact .unwinding below

end Moves

theorem Doomed.next {machine : Machine} (h : Doomed machine) : machine.next.IsDoomed := by
  cases h with
  | unwinding uncaught => exact uncaught.unwind
  | raising uncaught => exact uncaught.raise
  | @fated frames depth control fated =>
    cases control with
    | step step =>
      cases step with
      | done flow heap => exact fated.deliver flow
      | raise error heap => exact fated.raise
      | call request heap k => exact fated.wait _ _
      | protect request handler heap k => exact fated.wait _ _
      | run task heap k => exact .fated (.above fated)
    | invoke request heap => exact fated.invoke request
    | unwind error heap => exact fated.unwind

end SealedLua.Lua
