import SealedLua.Lua.Value

/-!
# What scripts cannot decide

Some of what a script can see is not settled by the language: the seeds of
random numbers, addresses, the order in which a table is gone through, how much
memory is in use, how deep calls may nest, and what the collector of unused
objects has got round to.  An interpreter is given all of it when it is made.
-/

namespace SealedLua.Lua

/-- How the collector is set, and the objects whose finalizers it is to run. -/
structure Collector where
  running : Bool := true
  generational : Bool := false
  /-- The two parameters of a cycle, as quarters of what scripts set. -/
  pause : UInt8 := 50
  stepMultiplier : UInt8 := 25
  /-- The binary logarithm of the size of a step in bytes. -/
  stepSize : UInt8 := 13
  /-- Whether a step is due since the collector was started again. -/
  due : Bool := false
  /-- Whether a finalizer is running; the collector does nothing else then. -/
  finalizing : Bool := false
  /-- Whether the interpreter is coming to its end, when nothing is marked any more. -/
  closing : Bool := false
  /-- The tables that are marked for finalization, the last marked first. -/
  marked : List TableId := []
  /-- How often something was left to the circumstances. -/
  moment : Nat := 0
deriving Inhabited

theorem ample_calls : 3900 ≤ 190000 := by decide

structure Circumstances where
  /-- The two words from which the generator of random numbers starts, each
  time that a script does not give them. -/
  seed : Nat → UInt64 × UInt64 := fun _ => (0, 0)
  /-- Where in memory an object lies, by its number. -/
  address : Nat → Nat := fun n => 0x5500000000 + 16 * n
  /-- The rank of a string key in the order of a traversal; without it, keys
  come in the order in which they were stored. -/
  rank : Option (ByteArray → Nat) := none
  /-- How many kilobytes are in use at a moment. -/
  memory : Nat → Double := fun _ => .ofInt 32
  /-- How many calls of functions fit into the stack of the interpreter. -/
  callLimit : Nat := 190000
  /-- The stack has a million places, of which a call takes 256 at most. -/
  ample : 3900 ≤ callLimit := by exact SealedLua.Lua.ample_calls
  /-- Whether the collector has just ended a cycle when a text was made. -/
  collects : Collector → Bool := fun c => c.due && 40 ≤ c.stepSize
  /-- Whether a step that a script asks for ends a cycle. -/
  completes : Collector → Bool := fun _ => true
  /-- Whether a cycle finds a marked object unused, given whether something on
  the heap refers to it.  What only a running function holds is not looked at. -/
  finds : Nat → TableId → Bool → Bool := fun _ _ referred => !referred

namespace Circumstances

instance : Inhabited Circumstances := ⟨{}⟩

/-- Circumstances whose random words depend on a number. -/
def numbered (n : Nat) : Circumstances := { seed := fun k => (UInt64.ofNat n, UInt64.ofNat k) }

end Circumstances

end SealedLua.Lua
