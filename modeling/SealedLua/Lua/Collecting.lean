import SealedLua.Lua.Operations

/-!
# Finalizers

A table is marked for finalization when it gets a metatable with a finalizer.
When a cycle of the collector finds it unused, it loses its mark and the
finalizer that its metatable has by then is called.  What a finalizer raises is
dropped.  Memory is never given back.
-/

namespace SealedLua.Lua

namespace Heap

def refersTo (h : Heap) (id : TableId) : Bool :=
  h.cells.any (· == .table id) ||
    h.tables.any fun t => t.metatable == some id || t.slots.any fun (k, v) =>
      k == .table id || v == .table id

/-- The marked tables that a cycle finds unused, besides the values that are held. -/
def unused (h : Heap) (held : List Value) : List TableId :=
  h.collector.marked.filter fun id =>
    h.circumstances.finds h.collector.moment id (held.contains (.table id) || h.refersTo id)

/-- Whether the collector ends a cycle now, with marked tables to look at. -/
def collectsNow (h : Heap) : Bool :=
  let c := h.collector
  !c.marked.isEmpty && c.running && !c.finalizing && h.circumstances.collects c

def unmark (h : Heap) (id : TableId) : Heap :=
  h.withCollector fun c => { c with marked := c.marked.filter (· != id) }

/-- Marks a table that has got a metatable with a finalizer. -/
def mark (h : Heap) (id : TableId) (metatable : Option TableId) : Heap :=
  match metatable with
  | some m =>
    if h.collector.closing || h.collector.marked.contains id ||
        (h.get m (.string (eventKey "gc"))).isNil then h
    else h.withCollector fun c => { c with marked := id :: c.marked }
  | none => h

end Heap

namespace Collector

open SealedLua.Lua.Action

def finalize (id : TableId) : Action Unit := do
  modify (·.unmark id)
  let f ← gets (·.metamethod (.table id) (eventKey "gc"))
  if f.isNil then return ()
  else
    let _ ← protect f [.table id] Site.native none
    return ()

def finalizeAll : List TableId → Action Unit
  | [] => pure ()
  | id :: rest => do
    finalize id
    finalizeAll rest

def collect (held : List Value) : Action Unit := do
  let unused ← gets (·.unused held)
  modify (·.withCollector fun c =>
    { c with due := false, finalizing := true, moment := c.moment + 1 })
  finalizeAll unused
  modify (·.withCollector fun c => { c with finalizing := false })

/-- Calls the finalizers of all tables that are still marked, at the end of an interpreter. -/
def finish : Action Unit := do
  let marked ← gets (·.collector.marked)
  modify (·.withCollector fun c => { c with finalizing := true, closing := true })
  finalizeAll marked

end Collector
end SealedLua.Lua
