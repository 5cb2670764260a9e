import SealedLua.Proofs.Storage.Automata
import SealedLua.Proofs.Storage.Directory

/-!
# Ids that never collide

The id of a record is a word and a name; that of an object that is not finished yet
is another word, a serial number, a colon and a name.  Nothing tells how long a name
is, and names may hold digits, colons and the words themselves.  But the words differ
in their second letters, a numeral ends at the first byte that is no digit, and the
name is all that is left.  The file of an object is named by the digits of its id, so
no two objects share a file.
-/

namespace SealedLua

namespace Scripts

variable {serial serial' : UInt64} {name name' : String}

/-- The id of an unfinished object tells its serial number and its name. -/
theorem stagingId_injective (h : stagingId serial name = stagingId serial' name') :
    serial = serial' ∧ name = name' := by
  obtain rfl := serial_of_stagingId_eq h
  have hname : name.toUTF8 = name'.toUTF8 := (ByteArray.append_right_inj _).1 h
  exact ⟨rfl, Parcel.toUTF8_injective hname⟩

/-- Places for objects that are different for different scripts, and for different saves. -/
structure Separates {α : Type} (place : ObjectId → α) : Prop where
  records (name name' : String) : place (recordId name) = place (recordId name') ↔ name = name'
  unfinished (serial serial' : UInt64) (name name' : String) :
    place (stagingId serial name) = place (stagingId serial' name') ↔
      serial = serial' ∧ name = name'
  apart (serial : UInt64) (name name' : String) : place (stagingId serial name) ≠
    place (recordId name')

/-- Places that differ for different ids are different for different scripts. -/
theorem Separates.of_injective {α : Type} {place : ObjectId → α} (h : Function.Injective place) :
    Separates place where
  records name name' := by
    rw [h.eq_iff]
    exact ⟨recordId_injective, congrArg recordId⟩
  unfinished serial serial' name name' := by
    rw [h.eq_iff]
    refine ⟨stagingId_injective, ?_⟩
    rintro ⟨rfl, rfl⟩
    rfl
  apart serial name name' := h.ne (stagingId_ne_recordId serial name name')

end Scripts

theorem FilePath.join_injective (directory : String) :
    Function.Injective (FilePath.join directory) := by
  intro entry entry' h
  unfold FilePath.join at h
  split_ifs at h
  · exact h
  · exact (String.append_right_inj _).1 h
  · exact (String.append_right_inj _).1 h

theorem Directory.path_injective (root : String) : Function.Injective (Directory.path root) :=
  fun _ _ h => Hex.encode_injective (FilePath.join_injective root h)

/-- Objects never collide: neither their ids, nor the names of their files, nor the paths of these
below a root.

This is of all names and all serial numbers, whether a name could be taken for the end of another id
or not. -/
theorem Scripts.ids_never_collide :
    Separates (fun id => id) ∧ Separates Hex.encode ∧ ∀ root, Separates (Directory.path root) :=
  ⟨.of_injective Function.injective_id, .of_injective fun _ _ => Hex.encode_injective,
    fun root => .of_injective (Directory.path_injective root)⟩

end SealedLua
