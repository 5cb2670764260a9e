import SealedLua.Proofs.Renaming.Steps

/-!
# Operators on corresponding heaps

The operators do the same on corresponding heaps, whatever metamethods they ask.
-/

namespace SealedLua.Lua.Renaming

variable {ρ : Renaming} {α : Type} {same : α → α → Prop}

open Lua (binaryMetamethod metamethodSite eventKey)

namespace SameAction

theorem typeError (here : Option Position) (operation : String) (v : Value)
    (naming : Option Naming) :
    ρ.SameAction same (typeError here operation v naming)
      (Lua.typeError here operation (ρ.value v) naming) := by
  apply bindGet
  intro g h s
  rw [s.typeName]
  exact fail _ _

theorem binaryMetamethod (event : String) (a b : Value) :
    ρ.SameAction (Along ρ.value) (Lua.binaryMetamethod event a b)
      (Lua.binaryMetamethod event (ρ.value a) (ρ.value b)) := by
  apply (metamethod a (eventKey event)).bindAlong
  intro f
  rw [isNil_value]
  split
  · exact metamethod b (eventKey event)
  · exact pure rfl

end SameAction

@[simp] theorem arith?_value (op : ArithOp) (a b : Value) :
    Value.arith? op (ρ.value a) (ρ.value b) = Value.arith? op a b := by
  cases a <;> cases b <;> rfl

/-- What arithmetic on proper operands gives is a number, which a renaming keeps. -/
theorem value_of_arith? {op : ArithOp} {a b v : Value} (h : Value.arith? op a b = some (.ok v)) :
    ρ.value v = v := by
  obtain ⟨n, rfl⟩ | ⟨x, rfl⟩ := Value.integer_or_double_of_arith? h
  · rfl
  · rfl

theorem culprit_value (a b : Value) (na nb : Option Naming) :
    culprit (ρ.value a) (ρ.value b) na nb =
      (ρ.value (culprit a b na nb).1, (culprit a b na nb).2) := by
  unfold culprit
  rw [number?_value]
  split <;> rfl

namespace SameAction

theorem arith (here : Option Position) (op : ArithOp) (a b : Value) (na nb : Option Naming) :
    ρ.SameAction (Along ρ.value) (Lua.arith here op a b na nb)
      (Lua.arith here op (ρ.value a) (ρ.value b) na nb) := by
  unfold Lua.arith
  rw [arith?_value]
  split
  · next v found => exact pure (value_of_arith? found).symm
  · exact fail _ _
  · apply (binaryMetamethod op.event a b).bindAlong
    intro f
    simp only [isNil_value, number?_value, integer?_value, culprit_value]
    split
    · exact call₁ f [a, b] _
    · split
      · split
        · exact fail _ _
        · exact typeError _ _ _ _
      · exact typeError _ _ _ _

theorem negate (here : Option Position) (v : Value) (naming : Option Naming) :
    ρ.SameAction (Along ρ.value) (Lua.negate here v naming)
      (Lua.negate here (ρ.value v) naming) := by
  have other : ρ.SameAction (Along ρ.value) (do
      let f ← Lua.binaryMetamethod "unm" v v
      if f.isNil then Lua.typeError here "perform arithmetic on" v naming
      else Action.call₁ f [v, v] (metamethodSite here "unm")) (do
      let f ← Lua.binaryMetamethod "unm" (ρ.value v) (ρ.value v)
      if f.isNil then Lua.typeError here "perform arithmetic on" (ρ.value v) naming
      else Action.call₁ f [ρ.value v, ρ.value v] (metamethodSite here "unm")) := by
    apply (binaryMetamethod "unm" v v).bindAlong
    intro f
    rw [isNil_value]
    split
    · exact typeError _ _ _ _
    · exact call₁ f [v, v] _
  cases v with
  | integer n => exact pure rfl
  | double x => exact pure rfl
  | _ => exact other

theorem complement (here : Option Position) (v : Value) (naming : Option Naming) :
    ρ.SameAction (Along ρ.value) (Lua.complement here v naming)
      (Lua.complement here (ρ.value v) naming) := by
  unfold Lua.complement
  rw [integer?_value]
  split
  · exact pure rfl
  · apply (binaryMetamethod "bnot" v v).bindAlong
    intro f
    simp only [isNil_value, number?_value]
    split
    · exact call₁ f [v, v] _
    · split
      · exact fail _ _
      · exact typeError _ _ _ _

theorem length (here : Option Position) (v : Value) (naming : Option Naming) :
    ρ.SameAction (Along ρ.value) (Lua.length here v naming)
      (Lua.length here (ρ.value v) naming) := by
  have other : ∀ f, ρ.SameAction (Along ρ.value)
      (if f.isNil then Lua.typeError here "get length of" v naming
        else Action.call₁ f [v, v] (metamethodSite here "len"))
      (if (ρ.value f).isNil then Lua.typeError here "get length of" (ρ.value v) naming
        else Action.call₁ (ρ.value f) [ρ.value v, ρ.value v] (metamethodSite here "len")) := by
    intro f
    rw [isNil_value]
    split
    · exact typeError _ _ _ _
    · exact call₁ f [v, v] _
  apply (metamethod v (eventKey "len")).bindAlong
  intro f
  cases v with
  | string s => exact pure rfl
  | table id =>
    simp only [value_table, isNil_value]
    split
    · apply gets
      intro g h s
      rw [(s.table id).length]
      rfl
    · exact call₁ f [.table id, .table id] _
  | _ => exact other f

theorem concat (here : Option Position) (a b : Value) (na nb : Option Naming) :
    ρ.SameAction (Along ρ.value) (Lua.concat here a b na nb)
      (Lua.concat here (ρ.value a) (ρ.value b) na nb) := by
  unfold Lua.concat
  simp only [text?_value]
  split
  · exact pure rfl
  · apply (binaryMetamethod "concat" a b).bindAlong
    intro f
    rw [isNil_value]
    split
    · split
      · exact typeError _ _ _ _
      · exact typeError _ _ _ _
    · exact call₁ f [a, b] _

theorem equal (here : Option Position) (a b : Value) :
    ρ.SameAction Eq (Lua.equal here a b) (Lua.equal here (ρ.value a) (ρ.value b)) := by
  unfold Lua.equal
  rw [rawEq_value]
  split
  · exact pure rfl
  · cases a with
    | table id =>
      cases b with
      | table id' =>
        apply (binaryMetamethod "eq" (.table id) (.table id')).bindAlong
        intro f
        rw [isNil_value]
        split
        · exact pure rfl
        · apply (call₁ f [.table id, .table id'] _).bindAlong
          intro v
          rw [truthy_value]
          exact pure rfl
      | _ => exact pure rfl
    | _ => exact pure rfl

theorem orderError (here : Option Position) (a b : Value) :
    ρ.SameAction same (orderError here a b) (Lua.orderError here (ρ.value a) (ρ.value b)) := by
  apply bindGet
  intro g h s
  simp only [s.typeName]
  exact fail _ _

theorem lessThan (here : Option Position) (a b : Value) :
    ρ.SameAction Eq (Lua.lessThan here a b) (Lua.lessThan here (ρ.value a) (ρ.value b)) := by
  unfold Lua.lessThan
  rw [number?_value, number?_value]
  split
  · next m n hm hn =>
    simp only [hm, hn]
    exact pure rfl
  · exact pure rfl
  · rename_i a b _ _ _ _ notStrings notNumbers
    split
    · next hm hn => exact (notNumbers _ _ hm hn).elim
    · next hs ht _ => exact (notStrings _ _ (value_eq_string hs) (value_eq_string ht)).elim
    · apply (binaryMetamethod "lt" a b).bindAlong
      intro f
      rw [isNil_value]
      split
      · exact orderError _ _ _
      · apply (call₁ f [a, b] _).bindAlong
        intro v
        rw [truthy_value]
        exact pure rfl

theorem lessEqual (here : Option Position) (a b : Value) :
    ρ.SameAction Eq (Lua.lessEqual here a b) (Lua.lessEqual here (ρ.value a) (ρ.value b)) := by
  unfold Lua.lessEqual
  rw [number?_value, number?_value]
  split
  · next m n hm hn =>
    simp only [hm, hn]
    exact pure rfl
  · exact pure rfl
  · rename_i a b _ _ _ _ notStrings notNumbers
    split
    · next hm hn => exact (notNumbers _ _ hm hn).elim
    · next hs ht _ => exact (notStrings _ _ (value_eq_string hs) (value_eq_string ht)).elim
    · apply (binaryMetamethod "le" a b).bindAlong
      intro f
      rw [isNil_value]
      split
      · apply (call₁ f [a, b] _).bindAlong
        intro v
        rw [truthy_value]
        exact pure rfl
      · apply (binaryMetamethod "lt" b a).bindAlong
        intro g
        rw [isNil_value]
        split
        · exact orderError _ _ _
        · apply (call₁ g [b, a] _).bindAlong
          intro v
          rw [truthy_value]
          exact pure rfl

theorem compare (here : Option Position) (op : CompareOp) (a b : Value) :
    ρ.SameAction Eq (Lua.compare here op a b) (Lua.compare here op (ρ.value a) (ρ.value b)) := by
  cases op with
  | eq => exact equal here a b
  | ne => exact (equal here a b).bindEq fun _ => pure rfl
  | lt => exact lessThan here a b
  | le => exact lessEqual here a b
  | gt => exact lessThan here b a
  | ge => exact lessEqual here b a

/-- The entry that an index of an object reads before it asks a metatable. -/
theorem ownEntry (object key : Value) :
    ρ.SameAction (Along ρ.value) (Action.gets fun h => match object with
        | .table id => h.get id key
        | _ => .nil)
      (Action.gets fun h => match ρ.value object with
        | .table id => h.get id (ρ.value key)
        | _ => .nil) := by
  apply gets
  intro g h s
  cases object with
  | table id => exact s.get id key
  | _ => rfl

theorem indexChain (here : Option Position) (rounds : Nat) (object key : Value)
    (naming : Option Naming) :
    ρ.SameAction (Along ρ.value) (Lua.indexChain here rounds object key naming)
      (Lua.indexChain here rounds (ρ.value object) (ρ.value key) naming) := by
  induction rounds generalizing object naming with
  | zero => exact fail _ _
  | succ rounds ih =>
    apply (ownEntry object key).bindAlong
    intro v
    rw [isNil_value]
    split
    · exact pure rfl
    · apply (metamethod object (eventKey "index")).bindAlong
      intro f
      simp only [isNil_value, isFunction_value]
      split
      · cases object with
        | table id => exact pure rfl
        | _ => exact typeError _ _ _ _
      · split
        · exact call₁ f [object, key] _
        · exact ih f none

theorem index (here : Option Position) (object key : Value) (naming : Option Naming) :
    ρ.SameAction (Along ρ.value) (Lua.index here object key naming)
      (Lua.index here (ρ.value object) (ρ.value key) naming) :=
  indexChain here chainLimit object key naming

theorem store (here : Option Position) (id : TableId) (key value : Value) :
    ρ.SameAction Eq (Lua.store here id key value)
      (Lua.store here (ρ.table id) (ρ.value key) (ρ.value value)) := by
  have stored : ρ.SameAction Eq (Action.modify (·.set id key value))
      (Action.modify (·.set (ρ.table id) (ρ.value key) (ρ.value value))) :=
        modify fun _ _ s => s.set id key value
  cases key with
  | nil => exact fail _ _
  | double x =>
    simp only [value_double, Lua.store]
    split
    · exact fail _ _
    · exact stored
  | _ => exact stored

theorem ownPresence (object key : Value) :
    ρ.SameAction Eq (Action.gets fun h => match object with
        | .table id => !(h.get id key).isNil
        | _ => false)
      (Action.gets fun h => match ρ.value object with
        | .table id => !(h.get id (ρ.value key)).isNil
        | _ => false) := by
  apply gets
  intro g h s
  cases object with
  | table id => simp only [value_table, s.get, isNil_value]
  | _ => rfl

theorem setIndexChain (here : Option Position) (rounds : Nat) (object key value : Value)
    (naming : Option Naming) :
    ρ.SameAction Eq (Lua.setIndexChain here rounds object key value naming)
      (Lua.setIndexChain here rounds (ρ.value object) (ρ.value key) (ρ.value value) naming) := by
  induction rounds generalizing object naming with
  | zero => exact fail _ _
  | succ rounds ih =>
    apply (metamethod object (eventKey "newindex")).bindAlong
    intro f
    apply (ownPresence object key).bindEq
    intro present
    simp only [isNil_value, isFunction_value]
    split
    · cases object with
      | table id => exact store here id key value
      | _ => exact typeError _ _ _ _
    · split
      · exact (call f [object, key, value] _).bindAlong fun _ => pure rfl
      · exact ih f none

theorem setIndex (here : Option Position) (object key value : Value) (naming : Option Naming) :
    ρ.SameAction Eq (Lua.setIndex here object key value naming)
      (Lua.setIndex here (ρ.value object) (ρ.value key) (ρ.value value) naming) :=
  setIndexChain here chainLimit object key value naming

end SameAction
end SealedLua.Lua.Renaming
