import SealedLua.Lua.Library.Layout
import SealedLua.Lua.Library.Utf8
import SealedLua.Proofs.Renaming.Natives

/-!
# Formats, layouts and encodings on corresponding heaps

All of it is about numbers and bytes.  Formatting does the same if no argument
is an object, whose place the text might show.
-/

namespace SealedLua.Lua.Renaming

variable {ρ : Renaming} {α : Type} {same : α → α → Prop}

namespace SameNative

theorem display {v : Value} (plain : v.isObject = false) :
    ρ.SameNative Eq (Native.display v) (Native.display (ρ.value v)) := by
  refine fun c g h s => s.display v c (fun _ => rfl) fun shown => ?_
  rw [Heap.showsPlace, plain] at shown
  cases shown

theorem literal?_value (v : Value) : Format.literal? (ρ.value v) = Format.literal? v := by
  cases v <;> rfl

theorem directive (flags : List UInt8) (precise : Bool) (modifiers : List UInt8)
    (letter : UInt8) (message : ByteArray) :
    ρ.SameNative Eq
      (match Format.readSpec flags precise modifiers letter with
      | some s => return s
      | none => Native.fail message)
      (match Format.readSpec flags precise modifiers letter with
      | some s => return s
      | none => Native.fail message) := by
  split
  · exact pure rfl
  · exact fail _

theorem convert (args : List Value) (number : Nat) (modifiers : List UInt8) (letter : UInt8)
    (plain : (Native.arg args number).isObject = false) :
    ρ.SameNative Eq (Format.convert args number modifiers letter)
      (Format.convert (ρ.values args) number modifiers letter) := by
  unfold Format.convert
  dsimp only
  rw [arg_values, literal?_value]
  split
  · exact (directive _ _ _ _ _).bindEq fun _ => (integerArg args number).bindEq fun _ => pure rfl
  -- the letters of integers, then those of doubles
  iterate 6 exact (integerArg args number).bindEq fun _ =>
    (directive _ _ _ _ _).bindEq fun _ => pure rfl
  iterate 2 exact (directive _ _ _ _ _).bindEq fun _ =>
    (doubleArg args number).bindEq fun _ => pure rfl
  iterate 5 exact (doubleArg args number).bindEq fun _ =>
    (directive _ _ _ _ _).bindEq fun _ => pure rfl
  · apply (directive _ _ _ _ _).bindEq
    intro spec
    generalize Native.arg args number = v at plain
    apply bindGet
    intro g h s
    have pointed := addressText_value s plain
    cases v with
    | table _ | closure _ | matcher _ => cases plain
    | nil | boolean _ | integer _ | double _ => exact pure rfl
    | string _ | builtin _ | host _ | failure _ =>
      exact pure (congrArg (fun t => bytes (spec.text t)) pointed.symm)
  · apply guarded (failText _)
    intro _
    split
    · exact pure rfl
    · exact badArgumentText _ _
  · apply (display plain).bindEq
    intro text
    apply ite
    · exact fun _ => pure rfl
    · intro _
      apply guarded (badArgumentText _ _)
      intro _
      apply (directive _ _ _ _ _).bindEq
      intro spec
      exact .ite (fun _ => pure rfl) fun _ => pure rfl
  · exact fail _

theorem write (args : List Value) (plain : ∀ number, (Native.arg args number).isObject = false)
    (budget : Nat) (text : List UInt8) (number : Nat) (written : ByteArray) :
    ρ.SameNative Eq (Format.write args budget text number written)
      (Format.write (ρ.values args) budget text number written) := by
  induction budget generalizing text number written with
  | zero =>
    unfold Format.write
    exact pure rfl
  | succ budget ih =>
    unfold Format.write
    rw [List.length_map]
    split
    · exact pure rfl
    · exact pure rfl
    · next more =>
      cases more
      exact ih _ _ _
    · next more =>
      cases more
      apply guarded (badArgumentText _ _)
      intro _
      apply guarded (failText _)
      intro _
      apply (convert args _ _ _ (plain _)).bindEq
      intro text
      exact ih _ _ _
    · next more =>
      cases more
      exact ih _ _ _

theorem nextItem (mode : Layout.Mode) (offset : Nat) (format : List UInt8) :
    ρ.SameNative Eq (Layout.nextItem mode offset format) (Layout.nextItem mode offset format) := by
  unfold Layout.nextItem
  split
  · exact pure rfl
  · next e _ =>
    cases e with
    | missingSize => exact failText _
    | unknownOption c => exact fail _
    | sizeOutOfRange n => exact failText _
    | nothingToAlign => exact badArgumentText _ _
    | oddAlignment => exact badArgumentText _ _

theorem packItem (mode : Layout.Mode) (item : Layout.Item) (args : List Value) (position : Nat) :
    ρ.SameNative Eq (Layout.packItem mode item args position)
      (Layout.packItem mode item (ρ.values args) position) := by
  cases item with
  | integer size signed =>
    apply (integerArg args position).bindEq
    intro n
    apply ite
    · exact fun _ => guarded (badArgumentText _ _) fun _ => pure rfl
    · exact fun _ => guarded (badArgumentText _ _) fun _ => pure rfl
  | single => exact (doubleArg args position).bindEq fun _ => pure rfl
  | double => exact (doubleArg args position).bindEq fun _ => pure rfl
  | fixed size =>
    exact (stringArg args position).bindEq fun _ => guarded (badArgumentText _ _) fun _ => pure rfl
  | counted size =>
    exact (stringArg args position).bindEq fun _ => guarded (badArgumentText _ _) fun _ => pure rfl
  | ended =>
    exact (stringArg args position).bindEq fun _ => guarded (badArgumentText _ _) fun _ => pure rfl
  | padding => exact pure rfl
  | align => exact pure rfl
  | none => exact pure rfl

theorem packFrom (args : List Value) (budget : Nat) (mode : Layout.Mode)
    (format : List UInt8) (position : Nat) (text : ByteArray) :
    ρ.SameNative Eq (Layout.packFrom args budget mode format position text)
      (Layout.packFrom (ρ.values args) budget mode format position text) := by
  induction budget generalizing mode format position text with
  | zero => exact pure rfl
  | succ budget ih =>
    cases format with
    | nil => exact pure rfl
    | cons c format =>
      apply (nextItem mode _ _).bindEq
      intro next
      apply (packItem _ _ args position).bindEq
      intro packed
      exact ih _ _ _ _

theorem measureFrom (budget : Nat) (mode : Layout.Mode) (format : List UInt8) (size : Nat) :
    ρ.SameNative Eq (Layout.measureFrom budget mode format size)
      (Layout.measureFrom budget mode format size) := by
  induction budget generalizing mode format size with
  | zero => exact pure rfl
  | succ budget ih =>
    cases format with
    | nil => exact pure rfl
    | cons c format =>
      apply (nextItem mode _ _).bindEq
      intro next
      dsimp only
      split
      · exact badArgumentText _ _
      · exact badArgumentText _ _
      · exact guarded (badArgumentText _ _) fun _ => ih _ _ _

theorem unpackItem (mode : Layout.Mode) (item : Layout.Item) (s : ByteArray) (offset : Nat) :
    ρ.SameNative (Along fun (v, after) => (v.map ρ.value, after))
      (Layout.unpackItem mode item s offset)
      (Layout.unpackItem mode item s offset) := by
  cases item with
  | integer size signed =>
    unfold Layout.unpackItem
    exact guarded (failText _) fun _ => pure rfl
  | counted size =>
    unfold Layout.unpackItem
    exact guarded (badArgumentText _ _) fun _ => pure rfl
  | ended =>
    unfold Layout.unpackItem
    exact guarded (badArgumentText _ _) fun _ => pure rfl
  | single | double | fixed _ | padding | align | none => exact pure rfl

theorem layoutUnpackFrom (s : ByteArray) (budget : Nat) (mode : Layout.Mode)
    (format : List UInt8) (offset : Nat) (values : List Value) :
    ρ.SameNative (Along fun (vs, after) => (ρ.values vs, after))
      (Layout.unpackFrom s budget mode format offset values)
      (Layout.unpackFrom s budget mode format offset (ρ.values values)) := by
  have ended : ∀ (offset : Nat) (values : List Value),
      ρ.SameNative (Along fun (vs, after) => (ρ.values vs, after))
      (Pure.pure (values.reverse, offset) : Native _)
      (Pure.pure ((ρ.values values).reverse, offset) : Native _) :=
    fun _ _ => pure (Prod.ext (List.map_reverse ..).symm rfl)
  induction budget generalizing mode format offset values with
  | zero => exact ended _ _
  | succ budget ih =>
    cases format with
    | nil => exact ended _ _
    | cons c format =>
      apply (nextItem mode _ _).bindEq
      intro next
      apply guarded (badArgumentText _ _)
      intro _
      apply (unpackItem _ _ s _).bindAlong
      intro (value, offset)
      have longer : (value.map ρ.value).toList ++ ρ.values values =
          ρ.values (value.toList ++ values) := by
        cases value <;> rfl
      dsimp only
      rw [longer]
      exact ih _ _ _ _

end SameNative

namespace SameFunction

open SameNative hiding pure bind forM mapM call

theorem stringFormat (args : List Value) (plain : args.any Value.isObject = false) :
    ρ.SameNative (Along ρ.values) (Format.format args) (Format.format (ρ.values args)) := by
  have plain : ∀ number, (Native.arg args number).isObject = false := by
    intro number
    rw [Native.arg, Native.given]
    cases found : args[number - 1]? with
    | none => rfl
    | some v => simpa using List.any_eq_false.1 plain v (List.mem_of_getElem? found)
  apply (stringArg args 1).bindEq
  intro text
  exact (write args plain _ _ _ _).bindEq fun _ => .pure rfl

theorem formatArg (args : List Value) :
    ρ.SameNative Eq (Layout.formatArg args) (Layout.formatArg (ρ.values args)) :=
  (stringArg args 1).bindEq fun _ => .pure rfl

theorem stringPack : ρ.SameFunction Layout.pack := fun args =>
  (formatArg args).bindEq fun _ => (packFrom args _ _ _ _ _).bindEq fun _ => .pure rfl

theorem stringPacksize : ρ.SameFunction Layout.packsize := fun args =>
  (formatArg args).bindEq fun _ => (measureFrom _ _ _ _).bindEq fun _ => .pure rfl

theorem stringUnpack : ρ.SameFunction Layout.unpack := by
  intro args
  apply (formatArg args).bindEq
  intro format
  apply (stringArg args 2).bindEq
  intro s
  apply (integerArgOr args 3 1).bindEq
  intro start
  apply guarded (badArgumentText _ _)
  intro _
  apply (layoutUnpackFrom s _ _ _ _ []).bindAlong
  intro unpacked
  obtain ⟨values, offset⟩ := unpacked
  exact .pure (by simp [Along])

theorem utf8Char : ρ.SameFunction Utf8.char := by
  intro args
  unfold Utf8.char
  rw [List.length_map]
  have code : ∀ i, ρ.SameNative Eq (do
      let n ← Native.integerArg args (i + 1)
      if n.toUInt64 ≤ 0x7FFFFFFF then return Utf8.encode n.toInt.toNat
      else Native.badArgumentText (i + 1) "value out of range") (do
      let n ← Native.integerArg (ρ.values args) (i + 1)
      if n.toUInt64 ≤ 0x7FFFFFFF then return Utf8.encode n.toInt.toNat
      else Native.badArgumentText (i + 1) "value out of range") :=
    fun i => (integerArg args (i + 1)).bindEq fun _ => .ite (fun _ => .pure rfl) fun _ =>
      badArgumentText _ _
  exact (SameNative.mapM code).bindEq fun _ => .pure rfl

theorem utf8Codepoint : ρ.SameFunction Utf8.codepoint := by
  intro args
  apply (stringArg args 1).bindEq
  intro s
  apply (integerArgOr args 2 1).bindEq
  intro first
  apply (integerArgOr args 3 _).bindEq
  intro last
  apply guarded (badArgumentText _ _)
  intro _
  apply guarded (badArgumentText _ _)
  intro _
  rw [arg_values, truthy_value]
  apply SameNative.ite
  · exact fun _ => .pure rfl
  · intro _
    split
    · exact .pure (ρ.values_integers _ _).symm
    · exact failText _

theorem utf8Len : ρ.SameFunction Utf8.len := by
  intro args
  apply (stringArg args 1).bindEq
  intro s
  apply (integerArgOr args 2 1).bindEq
  intro first
  apply (integerArgOr args 3 (-1)).bindEq
  intro last
  apply guarded (badArgumentText _ _)
  intro _
  apply guarded (badArgumentText _ _)
  intro _
  rw [arg_values, truthy_value]
  split
  · exact .pure rfl
  · exact .pure rfl

theorem utf8Offset : ρ.SameFunction Utf8.offset := by
  intro args
  apply (stringArg args 1).bindEq
  intro s
  apply (integerArg args 2).bindEq
  intro n
  apply (integerArgOr args 3 _).bindEq
  intro start
  apply guarded (badArgumentText _ _)
  intro _
  apply SameNative.ite
  · exact fun _ => .pure rfl
  · intro _
    apply guarded (failText _)
    intro _
    refine .pure ?_
    dsimp only
    split <;> rfl

theorem utf8Codes : ρ.SameFunction Utf8.codepoints := by
  intro args
  apply (stringArg args 1).bindEq
  intro s
  apply guarded (badArgumentText _ _)
  intro _
  rw [arg_values, truthy_value]
  exact .pure rfl

theorem utf8CodesNext (lax : Bool) : ρ.SameFunction (Utf8.codesNext lax) := by
  intro args
  apply (stringArg args 1).bindEq
  intro s
  dsimp only
  rw [arg_values, coercedInteger?_value]
  apply SameNative.ite
  · exact fun _ => .pure rfl
  · intro _
    split
    · exact .ite (fun _ => failText _) fun _ => .pure rfl
    · exact failText _

end SameFunction
end SealedLua.Lua.Renaming
