import SealedLua.Proofs.Confinement.Steps

/-!
# Operators under a confinement

An operator gives a value that scripts may hold if its operands are such values:
it makes a number or a string, reads an entry, or calls a metamethod, which was an
entry of a table.
-/

namespace SealedLua.Lua.Confinement

variable {C : Confinement} {α : Type} {P : α → Prop}

/-- What arithmetic on proper operands gives is a number, which scripts may hold. -/
theorem free_of_arith? {op : ArithOp} {a b v : Value} (h : Value.arith? op a b = some (.ok v)) :
    C.free v := by
  obtain ⟨n, rfl⟩ | ⟨x, rfl⟩ := Value.integer_or_double_of_arith? h
  · exact C.free_integer n
  · exact C.free_double x

namespace SafeAction

theorem typeError (here : Option Position) (operation : String) (v : Value)
    (naming : Option Naming) :
    C.SafeAction P (typeError here operation v naming) := bindGet fun _ _ => fail _ _

theorem orderError (here : Option Position) (a b : Value) : C.SafeAction P (orderError here a b) :=
  bindGet fun _ _ => fail _ _

theorem binaryMetamethod (event : String) (a b : Value) :
    C.SafeAction C.free (binaryMetamethod event a b) := by
  refine (metamethod a (eventKey event)).bind fun f free => ?_
  split
  · exact metamethod b (eventKey event)
  · exact pure free

section Operands

variable (here : Option Position) {a b : Value} (na nb : Option Naming)
  (ha : C.free a) (hb : C.free b)

include ha

theorem negate : C.SafeAction C.free (negate here a na) := by
  have other : C.SafeAction C.free (do
      let f ← Lua.binaryMetamethod "unm" a a
      if f.isNil then Lua.typeError here "perform arithmetic on" a na
      else Action.call₁ f [a, a] (metamethodSite here "unm")) := by
    refine (binaryMetamethod "unm" a a).bind fun f free => ?_
    split
    · exact typeError _ _ _ _
    · exact call₁ free (by simp [ha]) _
  cases a with
  | integer n => exact pure (C.free_integer _)
  | double x => exact pure (C.free_double _)
  | _ => exact other

theorem complement : C.SafeAction C.free (complement here a na) := by
  unfold Lua.complement
  split
  · exact pure (C.free_integer _)
  · refine (binaryMetamethod "bnot" a a).bind fun f free => ?_
    split
    · exact call₁ free (by simp [ha]) _
    · split
      · exact fail _ _
      · exact typeError _ _ _ _

theorem length : C.SafeAction C.free (length here a na) := by
  refine (metamethod a (eventKey "len")).bind fun f free => ?_
  cases a with
  | string s => exact pure (C.free_integer _)
  | table id =>
    dsimp only
    split
    · exact gets fun _ _ => C.free_integer _
    · exact call₁ free (by simp) _
  | _ =>
    dsimp only
    split
    · exact typeError _ _ _ _
    · exact call₁ free (by simp [ha]) _

include hb

theorem arith (op : ArithOp) : C.SafeAction C.free (arith here op a b na nb) := by
  unfold Lua.arith
  split
  · next found => exact pure (free_of_arith? found)
  · exact fail _ _
  · refine (binaryMetamethod op.event a b).bind fun f free => ?_
    split
    · exact call₁ free (by simp [ha, hb]) _
    · split
      · split
        · exact fail _ _
        · exact typeError _ _ _ _
      · exact typeError _ _ _ _

theorem concat : C.SafeAction C.free (concat here a b na nb) := by
  unfold Lua.concat
  split
  · exact pure (C.free_string _)
  · refine (binaryMetamethod "concat" a b).bind fun f free => ?_
    split
    · split
      · exact typeError _ _ _ _
      · exact typeError _ _ _ _
    · exact call₁ free (by simp [ha, hb]) _

theorem equal : C.SafeAction (fun _ => True) (equal here a b) := by
  unfold Lua.equal
  split
  · exact pure trivial
  · split
    · refine (binaryMetamethod "eq" _ _).bind fun f free => ?_
      split
      · exact pure trivial
      · exact (call₁ free (by simp) _).bind fun _ _ => pure trivial
    · exact pure trivial

theorem lessThan : C.SafeAction (fun _ => True) (lessThan here a b) := by
  unfold Lua.lessThan
  split
  · exact pure trivial
  · exact pure trivial
  · refine (binaryMetamethod "lt" _ _).bind fun f free => ?_
    split
    · exact orderError _ _ _
    · exact (call₁ free (by simp [ha, hb]) _).bind fun _ _ => pure trivial

theorem lessEqual : C.SafeAction (fun _ => True) (lessEqual here a b) := by
  unfold Lua.lessEqual
  split
  · exact pure trivial
  · exact pure trivial
  · refine (binaryMetamethod "le" _ _).bind fun f free => ?_
    split
    · exact (call₁ free (by simp [ha, hb]) _).bind fun _ _ => pure trivial
    · refine (binaryMetamethod "lt" _ _).bind fun g free => ?_
      split
      · exact orderError _ _ _
      · exact (call₁ free (by simp [ha, hb]) _).bind fun _ _ => pure trivial

theorem compare (op : CompareOp) : C.SafeAction (fun _ => True) (compare here op a b) := by
  cases op with
  | eq => exact equal here ha hb
  | ne => exact (equal here ha hb).bind fun _ _ => pure trivial
  | lt => exact lessThan here ha hb
  | le => exact lessEqual here ha hb
  | gt => exact lessThan here hb ha
  | ge => exact lessEqual here hb ha

end Operands

/-- The entry that an index of an object reads before it asks a metatable. -/
theorem ownEntry (object key : Value) : C.SafeAction C.free (Action.gets fun h => match object with
    | .table id => h.get id key
    | _ => .nil) := by
  refine gets fun h holds => ?_
  split
  · exact holds.get _ _
  · exact C.free_nil

theorem indexChain (here : Option Position) (rounds : Nat) {object key : Value}
    (naming : Option Naming) (ho : C.free object) (hk : C.free key) :
    C.SafeAction C.free (indexChain here rounds object key naming) := by
  induction rounds generalizing object naming with
  | zero => exact fail _ _
  | succ rounds ih =>
    refine (ownEntry object key).bind fun v free => ?_
    split
    · exact pure free
    · refine (metamethod object (eventKey "index")).bind fun f free => ?_
      split
      · cases object with
        | table id => exact pure C.free_nil
        | _ => exact typeError _ _ _ _
      · split
        · exact call₁ free (by simp [ho, hk]) _
        · exact ih none free

theorem index (here : Option Position) {object key : Value} (naming : Option Naming)
    (ho : C.free object) (hk : C.free key) : C.SafeAction C.free (index here object key naming) :=
  indexChain here chainLimit naming ho hk

theorem store (here : Option Position) (id : TableId) {key value : Value}
    (hk : C.free key) (hv : C.free value) :
    C.SafeAction (fun _ => True) (store here id key value) := by
  have stored : C.SafeAction (fun _ => True) (Action.modify (·.set id key value)) :=
    modify fun _ holds => holds.set id hk hv
  cases key with
  | nil => exact fail _ _
  | double x =>
    simp only [Lua.store]
    split
    · exact fail _ _
    · exact stored
  | _ => exact stored

theorem setIndexChain (here : Option Position) (rounds : Nat) {object key value : Value}
    (naming : Option Naming) (ho : C.free object) (hk : C.free key) (hv : C.free value) :
    C.SafeAction (fun _ => True) (setIndexChain here rounds object key value naming) := by
  induction rounds generalizing object naming with
  | zero => exact fail _ _
  | succ rounds ih =>
    refine (metamethod object (eventKey "newindex")).bind fun f free => ?_
    refine bind (P := fun _ => True) (gets fun _ _ => trivial) fun present _ => ?_
    split
    · cases object with
      | table id => exact store here id hk hv
      | _ => exact typeError _ _ _ _
    · split
      · exact (call free (by simp [ho, hk, hv]) _).bind fun _ _ => pure trivial
      · exact ih none free

theorem setIndex (here : Option Position) {object key value : Value} (naming : Option Naming)
    (ho : C.free object) (hk : C.free key) (hv : C.free value) :
    C.SafeAction (fun _ => True) (setIndex here object key value naming) :=
  setIndexChain here chainLimit naming ho hk hv

end SafeAction
end SealedLua.Lua.Confinement
