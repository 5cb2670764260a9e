import SealedLua.Storage.Object

/-!
# Storage in memory

A list of objects with different ids.
-/

namespace SealedLua

structure Memory where
  objects : List (ObjectId × ByteArray) := []

namespace Memory

def find? (s : Memory) (id : ObjectId) : Option ByteArray :=
  (s.objects.find? fun o => o.1 = id).map (·.2)

def erase (s : Memory) (id : ObjectId) : Memory := ⟨s.objects.filter fun o => o.1 ≠ id⟩

def insert (s : Memory) (id : ObjectId) (data : ByteArray) : Memory :=
  ⟨(id, data) :: (s.erase id).objects⟩

@[simp] theorem find?_insert_self (s : Memory) (id : ObjectId) (data : ByteArray) :
    (s.insert id data).find? id = some data := by
  simp [find?, insert]

def perform (s : Memory) : (op : StorageOp) → op.Answer × Memory
  | .create id => (.ok (), s.insert id (bytes []))
  | .write id data =>
    match s.find? id with
    | some old => (.ok (), s.insert id (old ++ data))
    | none => (.error (.missing id), s)
  | .openRead id => (.ok (s.find? id), s)
  | .rename source target =>
    match s.find? source with
    | some data => (.ok (), (s.erase source).insert target data)
    | none => (.error (.missing source), s)
  | .delete id => (.ok (), s.erase id)

end Memory
end SealedLua
