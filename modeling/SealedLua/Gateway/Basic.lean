import SealedLua.Crypto.Payload
import SealedLua.Engine.Parcel
import SealedLua.Storage.Scripts

/-!
# What a gateway is set up with

A gateway has one secret, under which scripts are sealed, and three bounds.
It is set up once and never changes.
-/

namespace SealedLua

/-- How deep scripts may nest their calls unless something else is agreed. -/
def usualDepthLimit : Nat := 8

structure Gateway where
  secret : MasterSecret
  /-- The most bytes of a text or of code in slots. -/
  capacity : Nat := Parcel.usualCapacity
  /-- How many calls of saved scripts may be under way within a run. -/
  depthLimit : Nat := usualDepthLimit
  /-- The most bytes of a script's name. -/
  nameLimit : Nat := Scripts.usualNameLimit

end SealedLua
