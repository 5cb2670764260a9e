import SealedLua.Lua.Library.Layout
import SealedLua.Lua.Library.Utf8
import SealedLua.Proofs.Confinement.StringFunctions

/-!
# Formats, layouts and encodings under a confinement

All of it is about numbers and bytes.  Formatting calls the metamethod that
describes a value.
-/

namespace SealedLua.Lua.Confinement

variable {C : Confinement}

namespace SafeNative

theorem directive (flags : List UInt8) (precise : Bool) (modifiers : List UInt8)
    (letter : UInt8) (message : ByteArray) :
    C.SafeNative (fun _ => True)
      (match Format.readSpec flags precise modifiers letter with
      | some s => return s
      | none => Native.fail message) := by
  split
  · exact pure trivial
  · exact fail _

variable {args : List Value}

section

variable (h : C.Frees args)

include h

theorem convert (number : Nat) (modifiers : List UInt8) (letter : UInt8) :
    C.SafeNative (fun _ => True) (Format.convert args number modifiers letter) := by
  unfold Format.convert
  dsimp only
  split
  · exact (directive _ _ _ _ _).bind fun _ _ => (integerArg number).bind fun _ _ => pure trivial
  -- the letters of integers, then those of doubles
  iterate 6 exact (integerArg number).bind fun _ _ =>
    (directive _ _ _ _ _).bind fun _ _ => pure trivial
  iterate 2 exact (directive _ _ _ _ _).bind fun _ _ =>
    (doubleArg number).bind fun _ _ => pure trivial
  iterate 5 exact (doubleArg number).bind fun _ _ =>
    (directive _ _ _ _ _).bind fun _ _ => pure trivial
  · exact (directive _ _ _ _ _).bind fun _ _ => bindGet fun _ _ => pure trivial
  · refine guarded (failText _) fun _ => ?_
    split
    · exact pure trivial
    · exact badArgumentText _ _
  · refine (display (free_arg h number)).bind fun text _ => ite (fun _ => pure trivial) fun _ => ?_
    refine guarded (badArgumentText _ _) fun _ => (directive _ _ _ _ _).bind fun spec _ => ?_
    exact ite (fun _ => pure trivial) fun _ => pure trivial
  · exact fail _

theorem write (budget : Nat) (text : List UInt8) (number : Nat) (written : ByteArray) :
    C.SafeNative (fun _ => True) (Format.write args budget text number written) := by
  induction budget generalizing text number written with
  | zero =>
    unfold Format.write
    exact pure trivial
  | succ budget ih =>
    unfold Format.write
    split
    · exact pure trivial
    · exact pure trivial
    · next more =>
      cases more
      exact ih _ _ _
    · next more =>
      cases more
      refine guarded (badArgumentText _ _) fun _ => guarded (failText _) fun _ => ?_
      exact (convert h _ _ _).bind fun text _ => ih _ _ _
    · next more =>
      cases more
      exact ih _ _ _

end

theorem nextItem (mode : Layout.Mode) (offset : Nat) (format : List UInt8) :
    C.SafeNative (fun _ => True) (Layout.nextItem mode offset format) := by
  unfold Layout.nextItem
  split
  · exact pure trivial
  · next e _ =>
    cases e with
    | missingSize => exact failText _
    | unknownOption c => exact fail _
    | sizeOutOfRange n => exact failText _
    | nothingToAlign => exact badArgumentText _ _
    | oddAlignment => exact badArgumentText _ _

theorem packItem (mode : Layout.Mode) (item : Layout.Item) (position : Nat) :
    C.SafeNative (fun _ => True) (Layout.packItem mode item args position) := by
  cases item with
  | integer size signed =>
    refine (integerArg position).bind fun n _ => ite (fun _ => ?_) fun _ => ?_
    · exact guarded (badArgumentText _ _) fun _ => pure trivial
    · exact guarded (badArgumentText _ _) fun _ => pure trivial
  | single => exact (doubleArg position).bind fun _ _ => pure trivial
  | double => exact (doubleArg position).bind fun _ _ => pure trivial
  | fixed size =>
    exact (stringArg position).bind fun _ _ => guarded (badArgumentText _ _) fun _ => pure trivial
  | counted size =>
    exact (stringArg position).bind fun _ _ => guarded (badArgumentText _ _) fun _ => pure trivial
  | ended =>
    exact (stringArg position).bind fun _ _ => guarded (badArgumentText _ _) fun _ => pure trivial
  | padding => exact pure trivial
  | align => exact pure trivial
  | none => exact pure trivial

theorem packFrom (budget : Nat) (mode : Layout.Mode) (format : List UInt8)
    (position : Nat) (text : ByteArray) :
    C.SafeNative (fun _ => True) (Layout.packFrom args budget mode format position text) := by
  induction budget generalizing mode format position text with
  | zero => exact pure trivial
  | succ budget ih =>
    cases format with
    | nil => exact pure trivial
    | cons c format =>
      refine (nextItem mode _ _).bind fun next _ => (packItem _ _ position).bind fun packed _ => ?_
      exact ih _ _ _ _

theorem measureFrom (budget : Nat) (mode : Layout.Mode) (format : List UInt8) (size : Nat) :
    C.SafeNative (fun _ => True) (Layout.measureFrom budget mode format size) := by
  induction budget generalizing mode format size with
  | zero => exact pure trivial
  | succ budget ih =>
    cases format with
    | nil => exact pure trivial
    | cons c format =>
      refine (nextItem mode _ _).bind fun next _ => ?_
      dsimp only
      split
      · exact badArgumentText _ _
      · exact badArgumentText _ _
      · exact guarded (badArgumentText _ _) fun _ => ih _ _ _

theorem unpackItem (mode : Layout.Mode) (item : Layout.Item) (s : ByteArray) (offset : Nat) :
    C.SafeNative (fun r => ∀ v ∈ r.1, C.free v) (Layout.unpackItem mode item s offset) := by
  cases item with
  | integer size signed =>
    unfold Layout.unpackItem
    exact guarded (failText _) fun _ => pure (by simp)
  | counted size =>
    unfold Layout.unpackItem
    exact guarded (badArgumentText _ _) fun _ => pure (by simp)
  | ended =>
    unfold Layout.unpackItem
    exact guarded (badArgumentText _ _) fun _ => pure (by simp)
  | single | double | fixed _ | padding | align | none => exact pure (by simp)

theorem layoutUnpackFrom (s : ByteArray) (budget : Nat) (mode : Layout.Mode)
    (format : List UInt8) (offset : Nat) {values : List Value} (frees : C.Frees values) :
    C.SafeNative (fun r => C.Frees r.1) (Layout.unpackFrom s budget mode format offset values) := by
  induction budget generalizing mode format offset values with
  | zero => exact pure (frees_reverse frees)
  | succ budget ih =>
    cases format with
    | nil => exact pure (frees_reverse frees)
    | cons c format =>
      refine (nextItem mode _ _).bind fun next _ => guarded (badArgumentText _ _) fun _ => ?_
      refine (unpackItem _ _ s _).bind fun (value, offset) free => ih _ _ _ (frees_append ?_ frees)
      exact fun v mem => free v (Option.mem_toList.1 mem)

end SafeNative

namespace SafeFunction

open SafeNative hiding pure bind forM mapM call ite

theorem stringFormat : C.SafeFunction Format.format := fun _ h =>
  (stringArg 1).bind fun _ _ => (write h _ _ _ _).bind fun _ _ => .pure (by simp)

theorem formatArg (args : List Value) : C.SafeNative (fun _ => True) (Layout.formatArg args) :=
  (stringArg 1).bind fun _ _ => .pure trivial

theorem stringPack : C.SafeFunction Layout.pack := fun args _ =>
  (formatArg args).bind fun _ _ => (packFrom _ _ _ _ _).bind fun _ _ => .pure (by simp)

theorem stringPacksize : C.SafeFunction Layout.packsize := fun args _ =>
  (formatArg args).bind fun _ _ => (measureFrom _ _ _ _).bind fun _ _ => .pure (by simp)

theorem stringUnpack : C.SafeFunction Layout.unpack := by
  intro args h
  refine (formatArg args).bind fun format _ => (stringArg 2).bind fun s _ =>
    (integerArgOr 3 1).bind fun start _ => ?_
  refine guarded (badArgumentText _ _) fun _ =>
    (layoutUnpackFrom s _ _ _ _ frees_nil).bind fun unpacked frees => ?_
  exact .pure (frees_append frees (by simp))

theorem utf8Char : C.SafeFunction Utf8.char := by
  intro args h
  refine (SafeNative.mapM (P := fun _ => True) fun i _ => (integerArg (i + 1)).bind fun n _ =>
      ?_).bind fun _ _ =>
    .pure (by simp)
  exact .ite (fun _ => .pure trivial) fun _ => badArgumentText _ _

theorem utf8Codepoint : C.SafeFunction Utf8.codepoint := by
  intro args h
  refine (stringArg 1).bind fun s _ => (integerArgOr 2 1).bind fun first _ =>
    (integerArgOr 3 _).bind fun last _ => ?_
  refine guarded (badArgumentText _ _) fun _ => guarded (badArgumentText _ _) fun _ => ?_
  refine .ite (fun _ => .pure frees_nil) fun _ => ?_
  split
  · exact .pure (frees_map (fun _ => C.free_integer _) _)
  · exact failText _

theorem utf8Len : C.SafeFunction Utf8.len := by
  intro args h
  refine (stringArg 1).bind fun s _ => (integerArgOr 2 1).bind fun first _ =>
    (integerArgOr 3 (-1)).bind fun last _ => ?_
  refine guarded (badArgumentText _ _) fun _ => guarded (badArgumentText _ _) fun _ => ?_
  split
  · exact .pure (by simp)
  · exact .pure (by simp)

theorem utf8Offset : C.SafeFunction Utf8.offset := by
  intro args h
  refine (stringArg 1).bind fun s _ => (integerArg 2).bind fun n _ =>
    (integerArgOr 3 _).bind fun start _ => ?_
  refine guarded (badArgumentText _ _) fun _ => .ite (fun _ => .pure (by simp)) fun _ => ?_
  refine guarded (failText _) fun _ => .pure (frees_cons.2 ⟨?_, frees_nil⟩)
  split
  · exact C.free_integer _
  · exact C.free_nil

theorem utf8Codes : C.SafeFunction Utf8.codepoints := by
  intro args h
  refine (stringArg 1).bind fun s _ => guarded (badArgumentText _ _) fun _ => .pure ?_
  simp [C.codesNext]

theorem utf8CodesNext (lax : Bool) : C.SafeFunction (Utf8.codesNext lax) := by
  intro args h
  refine (stringArg 1).bind fun s _ => .ite (fun _ => .pure frees_nil) fun _ => ?_
  split
  · exact .ite (fun _ => failText _) fun _ => .pure (by simp)
  · exact failText _

end SafeFunction
end SealedLua.Lua.Confinement
