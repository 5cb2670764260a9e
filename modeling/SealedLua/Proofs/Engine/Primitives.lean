import SealedLua.Proofs.Always
import SealedLua.Proofs.Engine.Finalizing
import SealedLua.Proofs.Engine.Kinds

/-!
# Numbers and texts in any state

A number or a text that is pushed and popped again is the same, and the stack is
as it was, whatever scripts have made of their globals, of the library or of
metatables.  Nothing on the way looks at the heap or runs a machine, but for the
making of a text, at which the collector may call finalizers.
-/

namespace SealedLua

open Lua

section Primitives

variable {Q : Type} {m : Type → Type} [Monad m]

variable [LawfulMonad m] (around : Surroundings Q m) (run : Machine → OptionT m Outcome)
  (outer : Depth) (s : Stack)

end Primitives

namespace Marking

/-- Code that marks a table with a finalizer that stores a global. -/
def code : String := "setmetatable({}, {__gc = function() x = 1 end}) return 1"

def returnOne : Stmt := .ret [.literal (.number (.integer 1))]

def chunk : Function := .mk 0 true [marking [setting "x" 1], returnOne]

/-- The heap that the code leaves. -/
def marked (h : Heap) : Heap := h.afterMarking chunk codeChunk [setting "x" 1]

section Runs

variable {h : Heap} {outer : Depth} (fresh : h.collector = {})

include fresh

end Runs
end Marking

end SealedLua
