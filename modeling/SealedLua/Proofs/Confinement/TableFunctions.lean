import SealedLua.Lua.Library.Tables
import SealedLua.Proofs.Confinement.BasicFunctions

/-!
# The table functions under a confinement

They take values out of one place of a table and put them into another, and hand
them to an order or a metamethod that came out of the arguments or the heap.
-/

namespace SealedLua.Lua.Confinement

variable {C : Confinement}

namespace SafeNative

theorem checkTable {args : List Value} (h : C.Frees args) (number : Nat) (use : Tables.Use) :
    C.SafeNative C.free (Tables.checkTable args number use) := by
  refine (lift (.gets (P := fun _ => True) fun _ _ => trivial)).bind fun fit _ => ?_
  exact ite (fun _ => pure (free_arg h number)) fun _ => wrongType _ _

section Entries

variable {t : Value} (ht : C.free t)

include ht

theorem size : C.SafeNative (fun _ => True) (Tables.size t) := by
  refine (lift (.length none none ht)).bind fun n _ => ?_
  split
  · exact pure trivial
  · exact failText _

theorem get (i : Int) : C.SafeNative C.free (Tables.get t i) := lookup ht (C.free_integer _)

theorem put (i : Int) {v : Value} (hv : C.free v) :
    C.SafeNative (fun _ => True) (Tables.put t i v) :=
  assign ht (C.free_integer _) hv

theorem join (separator : ByteArray) (more : Nat) (i : Int) (text : ByteArray) :
    C.SafeNative (fun _ => True) (Tables.join t separator more i text) := by
  induction more generalizing i text with
  | zero =>
    unfold Tables.join
    refine (get ht i).bind fun v _ => ?_
    split
    · exact fail _
    · exact pure trivial
  | succ more ih =>
    unfold Tables.join
    refine (get ht i).bind fun v _ => ?_
    split
    · exact fail _
    · exact ih _ _

theorem shiftUp (n : Nat) (i : Int) : C.SafeNative (fun _ => True) (Tables.shiftUp t n i) := by
  induction n generalizing i with
  | zero => exact pure trivial
  | succ n ih => exact (get ht (i - 1)).bind fun v hv => (put ht i hv).bind fun _ _ => ih (i - 1)

theorem shiftDown (n : Nat) (i : Int) : C.SafeNative (fun _ => True) (Tables.shiftDown t n i) := by
  induction n generalizing i with
  | zero => exact pure trivial
  | succ n ih => exact (get ht (i + 1)).bind fun v hv => (put ht i hv).bind fun _ _ => ih (i + 1)

theorem unpackFrom (n : Nat) (i : Int) : C.SafeNative C.Frees (Tables.unpackFrom t n i) := by
  induction n generalizing i with
  | zero => exact pure frees_nil
  | succ n ih => exact (get ht i).bind fun v hv =>
    (ih (i + 1)).bind fun vs hvs => pure (frees_cons.2 ⟨hv, hvs⟩)

end Entries

section Copies

variable {source target : Value} (hs : C.free source) (ht : C.free target)

include hs ht

theorem copyUp (n : Nat) (i j : Int) :
    C.SafeNative (fun _ => True) (Tables.copyUp source target n i j) := by
  induction n generalizing i j with
  | zero => exact pure trivial
  | succ n ih => exact (get hs i).bind fun v hv => (put ht j hv).bind fun _ _ => ih (i + 1) (j + 1)

theorem copyDown (n : Nat) (i j : Int) :
    C.SafeNative (fun _ => True) (Tables.copyDown source target n i j) := by
  induction n with
  | zero => exact pure trivial
  | succ n ih => exact (get hs (i + n)).bind fun v hv => (put ht (j + n) hv).bind fun _ _ => ih

end Copies

section Sorting

variable {t order : Value} (ht : C.free t) (ho : C.free order)

theorem put₂ {a b : Value} (ht : C.free t) (i j : Int) (ha : C.free a) (hb : C.free b) :
    C.SafeNative (fun _ => True) (Tables.put₂ t i j a b) :=
  (put ht i ha).bind fun _ _ => put ht j hb

theorem movePivot (ht : C.free t) (p up : Int) : C.SafeNative C.free (Tables.movePivot t p up) :=
  (get ht p).bind fun _ hp => (get ht (up - 1)).bind fun _ hb =>
    (put₂ ht p (up - 1) hb hp).bind fun _ _ => pure hp

include ho

theorem before {a b : Value} (ha : C.free a) (hb : C.free b) :
    C.SafeNative (fun _ => True) (Tables.before order a b) :=
  ite (fun _ => lift (.lessThan none ha hb)) fun _ =>
    (call₁ ho (by simp [ha, hb])).bind fun _ _ => pure trivial

include ht

theorem scanUp {pivot : Value} (hp : C.free pivot) (stop : Int) (budget : Nat) (i : Int) :
    C.SafeNative (fun r => C.free r.2) (Tables.scanUp t order pivot stop budget i) := by
  induction budget generalizing i with
  | zero => exact pure C.free_nil
  | succ budget ih =>
    refine (get ht (i + 1)).bind fun v hv => (before ho hv hp).bind fun less _ =>
      ite (fun _ => ?_) fun _ => pure hv
    exact guarded (failText _) fun _ => ih (i + 1)

theorem scanDown {pivot : Value} (hp : C.free pivot) (start : Int) (budget : Nat) (j : Int) :
    C.SafeNative (fun r => C.free r.2) (Tables.scanDown t order pivot start budget j) := by
  induction budget generalizing j with
  | zero => exact pure C.free_nil
  | succ budget ih =>
    refine (get ht (j - 1)).bind fun v hv => (before ho hp hv).bind fun less _ =>
      ite (fun _ => ?_) fun _ => pure hv
    exact guarded (failText _) fun _ => ih (j - 1)

theorem partition {pivot : Value} (hp : C.free pivot) (up : Int) (budget : Nat) (i j : Int) :
    C.SafeNative (fun _ => True) (Tables.partition t order pivot up budget i j) := by
  induction budget generalizing i j with
  | zero => exact pure trivial
  | succ budget ih =>
    refine (scanUp ht ho hp _ _ i).bind fun (i, a) ha =>
      (scanDown ht ho hp _ _ j).bind fun (j, b) hb => ?_
    exact ite (fun _ => (put₂ ht (up - 1) i ha hp).bind fun _ _ => pure trivial) fun _ =>
      (put₂ ht i j hb ha).bind fun _ _ => ih i j

theorem orderEnds (lo up : Int) :
    C.SafeNative (fun _ => True) (Tables.orderEnds t order lo up) := by
  refine (get ht lo).bind fun a ha => (get ht up).bind fun b hb =>
    (before ho hb ha).bind fun less _ => ?_
  exact ite (fun _ => put₂ ht lo up hb ha) fun _ => pure trivial

theorem orderMiddle (lo p up : Int) :
    C.SafeNative (fun _ => True) (Tables.orderMiddle t order lo p up) := by
  refine (get ht p).bind fun m hm => (get ht lo).bind fun a ha =>
    (before ho hm ha).bind fun less _ => ?_
  refine ite (fun _ => put₂ ht p lo ha hm) fun _ => (get ht up).bind fun b hb =>
    (before ho hb hm).bind fun less _ => ?_
  exact ite (fun _ => put₂ ht p up hb hm) fun _ => pure trivial

theorem part (lo up : Int) : C.SafeNative (fun _ => True) (Tables.part t order lo up) := by
  refine (orderEnds ht ho lo up).bind fun _ _ => ite (fun _ => pure trivial) fun _ => ?_
  refine (orderMiddle ht ho lo _ up).bind fun _ _ => ite (fun _ => pure trivial) fun _ => ?_
  refine (movePivot ht _ up).bind fun pivot hp => ?_
  exact (partition ht ho hp up _ lo (up - 1)).bind fun _ _ => pure trivial

theorem sortRange (budget : Nat) (lo up : Int) :
    C.SafeNative (fun _ => True) (Tables.sortRange t order budget lo up) := by
  induction budget generalizing lo up with
  | zero => exact pure trivial
  | succ budget ih =>
    refine ite (fun _ => (part ht ho lo up).bind fun p _ => ?_) fun _ => pure trivial
    cases p with
    | none => exact pure trivial
    | some p =>
      exact ite (fun _ => (ih lo (p - 1)).bind fun _ _ => ih (p + 1) up) fun _ =>
        (ih (p + 1) up).bind fun _ _ => ih lo (p - 1)

end Sorting

end SafeNative

namespace SafeFunction

open SafeNative hiding pure bind forM mapM call ite

theorem tableConcat : C.SafeFunction Tables.concat := by
  intro args h
  refine (checkTable h 1 _).bind fun t ht => (size ht).bind fun last _ =>
    (stringArgOr 2 _).bind fun separator _ => ?_
  refine (integerArgOr 3 1).bind fun first _ => (integerArgOr 4 last).bind fun last _ => ?_
  exact .ite (fun _ => .pure (by simp)) fun _ => (join ht separator _ _ _).bind fun _ _ =>
    .pure (by simp)

theorem tableInsert : C.SafeFunction Tables.insert := by
  intro args h
  refine (checkTable h 1 _).bind fun t ht => (size ht).bind fun n _ => ?_
  dsimp only
  split
  · exact (put ht _ (free_arg h 2)).bind fun _ _ => .pure frees_nil
  · refine (integerArg 2).bind fun position _ => .ite (fun _ => ?_) fun _ => badArgumentText _ _
    exact (shiftUp ht _ _).bind fun _ _ => (put ht _ (free_arg h 3)).bind fun _ _ => .pure frees_nil
  · exact failText _

theorem tableRemove : C.SafeFunction Tables.remove := by
  intro args h
  refine (checkTable h 1 _).bind fun t ht => (size ht).bind fun n _ =>
    (integerArgOr 2 n).bind fun position _ => ?_
  refine guarded (badArgumentText _ _) fun _ => (get ht _).bind fun v hv =>
    (shiftDown ht _ _).bind fun _ _ => ?_
  exact (put ht _ C.free_nil).bind fun _ _ => .pure (by simp [hv])

theorem tableMove : C.SafeFunction Tables.move := by
  intro args h
  refine (integerArg 2).bind fun first _ => (integerArg 3).bind fun last _ =>
    (integerArg 4).bind fun place _ => ?_
  refine (checkTable h 1 _).bind fun source hs => (checkTable h _ _).bind fun target ht => ?_
  have given : C.Frees [target] := by simp [ht]
  have copied : ∀ (apart : Bool) (n : Nat), C.SafeNative C.Frees
      (if apart then do
        Tables.copyUp source target n first.toInt place.toInt
        return [target]
      else do
        Tables.copyDown source target n first.toInt place.toInt
        return [target]) := fun apart n =>
    .ite (fun _ => (copyUp hs ht n _ _).bind fun _ _ => .pure given) fun _ =>
      (copyDown hs ht n _ _).bind fun _ _ => .pure given
  refine .ite (fun _ => guarded (badArgumentText _ _) fun _ =>
    guarded (badArgumentText _ _) fun _ => ?_)
    fun _ => .pure given
  refine .ite (fun _ => copied true _) fun _ => .ite (fun _ => copied false _) fun _ => ?_
  have compared : C.SafeNative (fun _ => True)
      (do return !(← (equal none source target : Action Bool))) :=
    (lift (.equal none hs ht)).bind fun _ _ => .pure trivial
  exact compared.bind fun apart _ => copied apart _

theorem filledTable {args : List Value} (h : C.Frees args) (n : Nat) {t : Table}
    (safe : C.SafeTable t) :
    C.SafeTable (args.foldl (fun (t, n) v => (t.set (.ofNat n) v, n + 1)) (t, n)).1 := by
  induction args generalizing n t with
  | nil => exact safe
  | cons v args ih =>
    have both := frees_cons.1 h
    exact ih both.2 (n + 1) (safe.set (C.free_ofNat n) both.1)

theorem tablePack : C.SafeFunction Tables.pack := by
  intro args h
  have filled := filledTable h 1 (SafeTable.empty.resized args.length 1)
  have made := filled.set (C.free_ofAscii "n") (C.free_integer (Int64.ofNat args.length))
  exact one (lift (.newTable made))

theorem tableUnpack : C.SafeFunction Tables.unpack := by
  intro args h
  refine (integerArgOr 2 1).bind fun first _ => ?_
  have unpacked : ∀ last : Int64, C.SafeNative C.Frees
      (if last < first then return []
      else
        let n := last.toInt - first.toInt + 1
        if n ≥ Tables.unpackLimit then Native.failText "too many results to unpack"
        else Tables.unpackFrom (Native.arg args 1) n.toNat first.toInt) := fun last =>
    .ite (fun _ => .pure frees_nil) fun _ => .ite (fun _ => failText _) fun _ =>
      unpackFrom (free_arg h 1) _ _
  exact .ite (fun _ => (size (free_arg h 1)).bind fun last _ => unpacked last) fun _ =>
    (integerArg 3).bind fun last _ => unpacked last

theorem tableSort : C.SafeFunction Tables.sort := by
  intro args h
  refine (checkTable h 1 _).bind fun t ht => (size ht).bind fun n _ => .ite (fun _ => ?_) fun _ =>
    .pure frees_nil
  refine guarded (badArgumentText _ _) fun _ => guarded (wrongType 2 "function") fun _ => ?_
  exact (sortRange ht (free_arg h 2) _ _ _).bind fun _ _ => .pure frees_nil

end SafeFunction
end SealedLua.Lua.Confinement
