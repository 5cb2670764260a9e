import SealedLua.Storage.Object

/-!
# Observed storage

A layer over storage that notes every operation and lets some fail before they
reach the storage below.
-/

namespace SealedLua

/-- The names of the operations. -/
inductive StorageCall where
  | create | write | openRead | rename | delete
deriving DecidableEq, Repr

namespace StorageOp

def call : StorageOp → StorageCall
  | .create _ => .create
  | .write _ _ => .write
  | .openRead _ => .openRead
  | .rename _ _ => .rename
  | .delete _ => .delete

/-- The ids that an operation names. -/
def ids : StorageOp → List ObjectId
  | .create id | .write id _ | .openRead id | .delete id => [id]
  | .rename source target => [source, target]

def failed (e : StoreError) (op : StorageOp) : op.Answer := .error e

end StorageOp

structure Observation where
  /-- The operations since the last look, the last one first. -/
  noted : List StorageOp := []
  /-- All ids that were named. -/
  ids : List ObjectId := []
  faults : List (StorageCall × StoreError) := []

namespace Observation

def note (o : Observation) (op : StorageOp) : Observation :=
  { o with noted := op :: o.noted, ids := op.ids.filter (!o.ids.contains ·) ++ o.ids }

def fault? (o : Observation) (op : StorageOp) : Option StoreError := o.faults.lookup op.call

/-- Notes an operation, and answers it itself if it has to fail. -/
def intercept (o : Observation) (op : StorageOp) : Option op.Answer × Observation :=
  ((o.fault? op).map op.failed, o.note op)

end Observation
end SealedLua
