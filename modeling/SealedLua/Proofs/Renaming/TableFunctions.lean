import SealedLua.Lua.Library.Tables
import SealedLua.Proofs.Renaming.Natives

/-!
# The table functions on corresponding heaps

They see a table only through look-ups, stores and comparisons, which do the
same on corresponding heaps; so does everything that is put together from them,
sorting included.
-/

namespace SealedLua.Lua.Renaming

variable {ρ : Renaming}

namespace SameNative

theorem checkTable (args : List Value) (number : Nat) (use : Tables.Use) :
    ρ.SameNative (Along ρ.value) (Tables.checkTable args number use)
      (Tables.checkTable (ρ.values args) number use) := by
  unfold Tables.checkTable
  dsimp only
  rw [arg_values]
  refine (lift (.gets fun g h s => ?_)).bindEq fun fit => ?_
  · simp only [s.metamethod, s.metatableOf, isNil_value, Option.isSome_map]
    cases Native.arg args number <;> rfl
  · split
    · exact pure rfl
    · exact wrongType _ _ _

theorem size (t : Value) : ρ.SameNative Eq (Tables.size t) (Tables.size (ρ.value t)) := by
  apply (lift (.length none t none)).bindAlong
  intro n
  rw [coercedInteger?_value]
  split
  · exact pure rfl
  · exact failText _

theorem get (t : Value) (i : Int) :
    ρ.SameNative (Along ρ.value) (Tables.get t i) (Tables.get (ρ.value t) i) :=
  lookup t (.integer (Int64.ofInt i))

theorem put (t : Value) (i : Int) (v : Value) :
    ρ.SameNative Eq (Tables.put t i v) (Tables.put (ρ.value t) i (ρ.value v)) :=
  assign t (.integer (Int64.ofInt i)) v

theorem join (t : Value) (separator : ByteArray) (more : Nat) (i : Int) (text : ByteArray) :
    ρ.SameNative Eq (Tables.join t separator more i text)
      (Tables.join (ρ.value t) separator more i text) := by
  induction more generalizing i text with
  | zero =>
    unfold Tables.join
    apply (get t i).bindAlong
    intro v
    rw [text?_value, typeName_value]
    split
    · exact fail _
    · exact pure rfl
  | succ more ih =>
    unfold Tables.join
    apply (get t i).bindAlong
    intro v
    rw [text?_value, typeName_value]
    split
    · exact fail _
    · exact ih _ _

theorem shiftUp (t : Value) (n : Nat) (i : Int) :
    ρ.SameNative Eq (Tables.shiftUp t n i) (Tables.shiftUp (ρ.value t) n i) := by
  induction n generalizing i with
  | zero => exact pure rfl
  | succ n ih => exact (get t (i - 1)).bindAlong fun v => (put t i v).bindEq fun _ => ih (i - 1)

theorem shiftDown (t : Value) (n : Nat) (i : Int) :
    ρ.SameNative Eq (Tables.shiftDown t n i) (Tables.shiftDown (ρ.value t) n i) := by
  induction n generalizing i with
  | zero => exact pure rfl
  | succ n ih => exact (get t (i + 1)).bindAlong fun v => (put t i v).bindEq fun _ => ih (i + 1)

theorem copyUp (source target : Value) (n : Nat) (i j : Int) :
    ρ.SameNative Eq (Tables.copyUp source target n i j)
      (Tables.copyUp (ρ.value source) (ρ.value target) n i j) := by
  induction n generalizing i j with
  | zero => exact pure rfl
  | succ n ih => exact (get source i).bindAlong fun v =>
    (put target j v).bindEq fun _ => ih (i + 1) (j + 1)

theorem copyDown (source target : Value) (n : Nat) (i j : Int) :
    ρ.SameNative Eq (Tables.copyDown source target n i j)
      (Tables.copyDown (ρ.value source) (ρ.value target) n i j) := by
  induction n with
  | zero => exact pure rfl
  | succ n ih => exact (get source (i + n)).bindAlong fun v =>
    (put target (j + n) v).bindEq fun _ => ih

theorem unpackFrom (t : Value) (n : Nat) (i : Int) :
    ρ.SameNative (Along ρ.values) (Tables.unpackFrom t n i)
      (Tables.unpackFrom (ρ.value t) n i) := by
  induction n generalizing i with
  | zero => exact pure rfl
  | succ n ih => exact (get t i).bindAlong fun v => (ih (i + 1)).bindAlong fun vs => pure rfl

theorem before (order a b : Value) :
    ρ.SameNative Eq (Tables.before order a b)
      (Tables.before (ρ.value order) (ρ.value a) (ρ.value b)) := by
  unfold Tables.before
  rw [isNil_value]
  split
  · exact lift (.lessThan none a b)
  · apply (call₁ order [a, b]).bindAlong
    intro v
    rw [truthy_value]
    exact pure rfl

theorem put₂ (t : Value) (i j : Int) (a b : Value) :
    ρ.SameNative Eq (Tables.put₂ t i j a b) (Tables.put₂ (ρ.value t) i j (ρ.value a) (ρ.value b)) :=
  (put t i a).bindEq fun _ => put t j b

theorem scanUp (t order pivot : Value) (stop : Int) (budget : Nat) (i : Int) :
    ρ.SameNative (Along fun (i, v) => (i, ρ.value v)) (Tables.scanUp t order pivot stop budget i)
      (Tables.scanUp (ρ.value t) (ρ.value order) (ρ.value pivot) stop budget i) := by
  induction budget generalizing i with
  | zero => exact pure rfl
  | succ budget ih =>
    apply (get t (i + 1)).bindAlong
    intro v
    apply (before order v pivot).bindEq
    intro less
    apply SameNative.ite
    · exact fun _ => guarded (failText _) fun _ => ih (i + 1)
    · exact fun _ => pure rfl

theorem scanDown (t order pivot : Value) (start : Int) (budget : Nat) (j : Int) :
    ρ.SameNative (Along fun (j, v) => (j, ρ.value v)) (Tables.scanDown t order pivot start budget j)
      (Tables.scanDown (ρ.value t) (ρ.value order) (ρ.value pivot) start budget j) := by
  induction budget generalizing j with
  | zero => exact pure rfl
  | succ budget ih =>
    apply (get t (j - 1)).bindAlong
    intro v
    apply (before order pivot v).bindEq
    intro less
    apply SameNative.ite
    · exact fun _ => guarded (failText _) fun _ => ih (j - 1)
    · exact fun _ => pure rfl

theorem partition (t order pivot : Value) (up : Int) (budget : Nat) (i j : Int) :
    ρ.SameNative Eq (Tables.partition t order pivot up budget i j)
      (Tables.partition (ρ.value t) (ρ.value order) (ρ.value pivot) up budget i j) := by
  induction budget generalizing i j with
  | zero => exact pure rfl
  | succ budget ih =>
    apply (scanUp t order pivot _ _ i).bindAlong
    intro (i, a)
    apply (scanDown t order pivot _ _ j).bindAlong
    intro (j, b)
    apply SameNative.ite
    · exact fun _ => (put₂ t (up - 1) i a pivot).bindEq fun _ => pure rfl
    · exact fun _ => (put₂ t i j b a).bindEq fun _ => ih i j

theorem orderEnds (t order : Value) (lo up : Int) :
    ρ.SameNative Eq (Tables.orderEnds t order lo up)
      (Tables.orderEnds (ρ.value t) (ρ.value order) lo up) := by
  apply (get t lo).bindAlong
  intro a
  apply (get t up).bindAlong
  intro b
  apply (before order b a).bindEq
  intro less
  exact .ite (fun _ => put₂ t lo up b a) fun _ => pure rfl

theorem orderMiddle (t order : Value) (lo p up : Int) :
    ρ.SameNative Eq (Tables.orderMiddle t order lo p up)
      (Tables.orderMiddle (ρ.value t) (ρ.value order) lo p up) := by
  apply (get t p).bindAlong
  intro m
  apply (get t lo).bindAlong
  intro a
  apply (before order m a).bindEq
  intro less
  apply SameNative.ite
  · exact fun _ => put₂ t p lo a m
  · intro _
    apply (get t up).bindAlong
    intro b
    apply (before order b m).bindEq
    intro less
    exact .ite (fun _ => put₂ t p up b m) fun _ => pure rfl

theorem movePivot (t : Value) (p up : Int) :
    ρ.SameNative (Along ρ.value) (Tables.movePivot t p up) (Tables.movePivot (ρ.value t) p up) := by
  apply (get t p).bindAlong
  intro pivot
  apply (get t (up - 1)).bindAlong
  intro b
  exact (put₂ t p (up - 1) b pivot).bindEq fun _ => pure rfl

theorem part (t order : Value) (lo up : Int) :
    ρ.SameNative Eq (Tables.part t order lo up)
      (Tables.part (ρ.value t) (ρ.value order) lo up) := by
  apply (orderEnds t order lo up).bindEq
  intro _
  apply SameNative.ite
  · exact fun _ => pure rfl
  · intro _
    apply (orderMiddle t order lo _ up).bindEq
    intro _
    apply SameNative.ite
    · exact fun _ => pure rfl
    · intro _
      apply (movePivot t _ up).bindAlong
      intro pivot
      exact (partition t order pivot up _ lo (up - 1)).bindEq fun _ => pure rfl

theorem sortRange (t order : Value) (budget : Nat) (lo up : Int) :
    ρ.SameNative Eq (Tables.sortRange t order budget lo up)
      (Tables.sortRange (ρ.value t) (ρ.value order) budget lo up) := by
  induction budget generalizing lo up with
  | zero => exact pure rfl
  | succ budget ih =>
    apply SameNative.ite
    · intro _
      apply (part t order lo up).bindEq
      intro p
      cases p with
      | none => exact pure rfl
      | some p =>
        apply SameNative.ite
        · exact fun _ => (ih lo (p - 1)).bindEq fun _ => ih (p + 1) up
        · exact fun _ => (ih (p + 1) up).bindEq fun _ => ih lo (p - 1)
    · exact fun _ => pure rfl

end SameNative

namespace SameFunction

open SameNative hiding pure bind forM mapM call

theorem tableConcat : ρ.SameFunction Tables.concat := by
  intro args
  apply (checkTable args 1 _).bindAlong
  intro t
  apply (size t).bindEq
  intro last
  apply (stringArgOr args 2 _).bindEq
  intro separator
  apply (integerArgOr args 3 1).bindEq
  intro first
  apply (integerArgOr args 4 last).bindEq
  intro last
  apply SameNative.ite
  · exact fun _ => .pure rfl
  · exact fun _ => (join t separator _ _ _).bindEq fun _ => .pure rfl

theorem tableInsert : ρ.SameFunction Tables.insert := by
  intro args
  apply (checkTable args 1 _).bindAlong
  intro t
  apply (size t).bindEq
  intro n
  simp only [List.length_map, arg_values]
  split
  · exact (put t _ _).bindEq fun _ => .pure rfl
  · apply (integerArg args 2).bindEq
    intro position
    apply SameNative.ite
    · intro _
      apply (shiftUp t _ _).bindEq
      intro _
      exact (put t _ _).bindEq fun _ => .pure rfl
    · exact fun _ => badArgumentText _ _
  · exact failText _

theorem tableRemove : ρ.SameFunction Tables.remove := by
  intro args
  apply (checkTable args 1 _).bindAlong
  intro t
  apply (size t).bindEq
  intro n
  apply (integerArgOr args 2 n).bindEq
  intro position
  apply guarded (badArgumentText _ _)
  intro _
  apply (get t _).bindAlong
  intro v
  apply (shiftDown t _ _).bindEq
  intro _
  exact (put t _ .nil).bindEq fun _ => .pure rfl

theorem tableMove : ρ.SameFunction Tables.move := by
  intro args
  apply (integerArg args 2).bindEq
  intro first
  apply (integerArg args 3).bindEq
  intro last
  apply (integerArg args 4).bindEq
  intro place
  dsimp only
  rw [absent_values]
  apply (checkTable args 1 _).bindAlong
  intro source
  apply (checkTable args _ _).bindAlong
  intro target
  have copied : ∀ (apart : Bool) (n : Nat), ρ.SameNative (Along ρ.values)
      (if apart then do
        Tables.copyUp source target n first.toInt place.toInt
        return [target]
      else do
        Tables.copyDown source target n first.toInt place.toInt
        return [target])
      (if apart then do
        Tables.copyUp (ρ.value source) (ρ.value target) n first.toInt place.toInt
        return [ρ.value target]
      else do
        Tables.copyDown (ρ.value source) (ρ.value target) n first.toInt place.toInt
        return [ρ.value target]) := by
    intro apart n
    apply SameNative.ite
    · exact fun _ => (copyUp source target n _ _).bindEq fun _ => .pure rfl
    · exact fun _ => (copyDown source target n _ _).bindEq fun _ => .pure rfl
  apply SameNative.ite
  · intro _
    apply guarded (badArgumentText _ _)
    intro _
    apply guarded (badArgumentText _ _)
    intro _
    apply SameNative.ite
    · exact fun _ => (SameNative.pure (Eq.refl true)).bindEq fun _ => copied _ _
    · intro _
      apply SameNative.ite
      · exact fun _ => (SameNative.pure (Eq.refl false)).bindEq fun _ => copied _ _
      · intro _
        have different :
        ρ.SameNative Eq (do return !(← (equal none source target : Action Bool)) : Native Bool)
            (do return !(← (equal none (ρ.value source) (ρ.value target) : Action
              Bool)) : Native Bool) :=
          (lift (.equal none source target)).bindEq fun _ => .pure rfl
        exact different.bindEq fun _ => copied _ _
  · exact fun _ => .pure rfl

theorem filledTable (args : List Value) (n : Nat) {t u : Table} (same : ρ.SameTable t u) :
    ρ.SameTable (args.foldl (fun (t, n) v => (t.set (.ofNat n) v, n + 1)) (t, n)).1
      ((ρ.values args).foldl (fun (t, n) v => (t.set (.ofNat n) v, n + 1)) (u, n)).1 := by
  induction args generalizing n t u with
  | nil => exact same
  | cons v args ih => exact ih (n + 1) (same.set (.ofNat n) v)

theorem tablePack : ρ.SameFunction Tables.pack := by
  intro args
  unfold Tables.pack
  rw [List.length_map]
  have made :=
    ((filledTable (ρ := ρ) args 1 (.resized .empty args.length 1)).set (.ofAscii "n")
      (.integer (Int64.ofNat args.length)))
  exact (lift (.newTable made)).bindAlong fun _ => .pure rfl

theorem tableUnpack : ρ.SameFunction Tables.unpack := by
  intro args
  apply (integerArgOr args 2 1).bindEq
  intro first
  have unpacked : ∀ last : Int64, ρ.SameNative (Along ρ.values)
      (if last < first then return []
      else
        let n := last.toInt - first.toInt + 1
        if n ≥ Tables.unpackLimit then Native.failText "too many results to unpack"
        else Tables.unpackFrom (Native.arg args 1) n.toNat first.toInt)
      (if last < first then return []
      else
        let n := last.toInt - first.toInt + 1
        if n ≥ Tables.unpackLimit then Native.failText "too many results to unpack"
        else Tables.unpackFrom (ρ.value (Native.arg args 1)) n.toNat first.toInt) := by
    intro last
    apply SameNative.ite
    · exact fun _ => .pure rfl
    · exact fun _ => .ite (fun _ => failText _) fun _ => unpackFrom _ _ _
  simp only [absent_values, arg_values]
  apply SameNative.ite
  · exact fun _ => (size _).bindEq unpacked
  · exact fun _ => (integerArg args 3).bindEq unpacked

theorem tableSort : ρ.SameFunction Tables.sort := by
  intro args
  apply (checkTable args 1 _).bindAlong
  intro t
  apply (size t).bindEq
  intro n
  simp only [absent_values, arg_values, isFunction_value]
  apply SameNative.ite
  · intro _
    apply guarded (badArgumentText _ _)
    intro _
    apply guarded (wrongType args 2 "function")
    intro _
    exact (sortRange t _ _ _ _).bindEq fun _ => .pure rfl
  · exact fun _ => .pure rfl

end SameFunction
end SealedLua.Lua.Renaming
