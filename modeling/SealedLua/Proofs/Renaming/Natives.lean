import SealedLua.Proofs.Renaming.Operations

/-!
# Built-in functions on corresponding heaps

A built-in function sees its arguments and its call.  On corresponding heaps it
reads the same numbers and texts off corresponding arguments and fails in the
same words.  Only the text of an object that no metamethod describes may differ,
since it shows where the object is.
-/

namespace SealedLua.Lua

namespace Value

/-- Whether a value has a place on the heap, which its text shows unless a
metamethod describes it. -/
def isObject : Value → Bool
  | .table _ | .closure _ | .matcher _ => true
  | _ => false

end Value

/-- Whether the text of a value shows its place on the heap. -/
def Heap.showsPlace (h : Heap) (v : Value) : Bool :=
  v.isObject && (h.metamethod v (eventKey "tostring")).isNil

/-- Whether a metatable says what becomes of a table that nothing refers to, or
which of its entries are lost with their keys or values. -/
def Heap.concernsCollector (h : Heap) : Value → Bool
  | .table m => !(h.get m (.string (eventKey "gc"))).isNil ||
    !(h.get m (.string (eventKey "mode"))).isNil
  | _ => false

theorem Heap.concernsCollector_setMetatable (h : Heap) (id : TableId)
    (metatable : Option TableId) (v : Value) :
    (h.setMetatable id metatable).concernsCollector v = h.concernsCollector v := by
  have kept : ∀ m key, (h.setMetatable id metatable).get m key = h.get m key := by
    intro m key
    simp only [Heap.get, Heap.table, setMetatable, Array.getElem?_modify]
    split
    · cases h.tables[m]? <;> rfl
    · rfl
  cases v with
  | table m => simp only [concernsCollector, kept]
  | _ => rfl

theorem Heap.mark_of_inert {h : Heap} {metatable : Option TableId}
    (inert : ∀ m ∈ metatable, h.concernsCollector (.table m) = false) (id : TableId) :
    h.mark id metatable = h := by
  cases metatable with
  | none => rfl
  | some m =>
    have lacking := inert m rfl
    simp only [concernsCollector, Bool.or_eq_false_iff, Bool.not_eq_false'] at lacking
    rw [mark, if_pos (by simp [lacking.1])]

namespace Renaming

variable (ρ : Renaming) {α β : Type}

def context (c : CallContext) : CallContext := { c with function := ρ.value c.function }

/-- Two built-in functions that do the same on all corresponding heaps. -/
def SameNative (same : α → α → Prop) (x y : Native α) : Prop :=
  ∀ c, ρ.SameAction same (x c) (y (ρ.context c))

/-- A built-in function that does the same with corresponding arguments on all
corresponding heaps. -/
def SameFunction (f : List Value → Native (List Value)) : Prop :=
  ∀ args, ρ.SameNative (Along ρ.values) (f args) (f (ρ.values args))

variable {ρ} {same : α → α → Prop} {same' : β → β → Prop}

section Arguments

open Native

variable (args : List Value) (number : Nat)

theorem given_values : given (ρ.values args) number = (given args number).map ρ.value :=
  List.getElem?_map ..

@[simp] theorem arg_values : arg (ρ.values args) number = ρ.value (arg args number) := by
  rw [arg, arg, given_values]
  cases given args number <;> rfl

@[simp] theorem absent_values : absent (ρ.values args) number = absent args number := by
  rw [absent, absent, arg_values, isNil_value]

end Arguments

@[simp] theorem isObject_value (v : Value) : (ρ.value v).isObject = v.isObject := by cases v <;> rfl

namespace SameHeap

variable {g h : Heap} (s : ρ.SameHeap g h)

include s

theorem showsPlace (v : Value) : h.showsPlace (ρ.value v) = g.showsPlace v := by
  rw [Heap.showsPlace, Heap.showsPlace, isObject_value, s.metamethod, isNil_value]

theorem concernsCollector (v : Value) :
    h.concernsCollector (ρ.value v) = g.concernsCollector v := by
  cases v with
  | table m =>
    have field : ∀ event, h.get (ρ.table m) (.string event) =
        ρ.value (g.get m (.string event)) := fun event =>
      s.get m (.string event)
    simp only [Heap.concernsCollector, value_table, field, isNil_value]
  | _ => rfl

theorem setMetatable (id : TableId) {metatable : Option TableId}
    (inert : ∀ m ∈ metatable, g.concernsCollector (.table m) = false) :
    ρ.SameHeap ((g.setMetatable id metatable).mark id metatable)
      ((h.setMetatable (ρ.table id) (metatable.map ρ.table)).mark (ρ.table id)
        (metatable.map ρ.table)) := by
  have inert' : ∀ m ∈ metatable.map ρ.table, h.concernsCollector (.table m) = false := by
    intro n mem
    obtain ⟨m, there, rfl⟩ := Option.map_eq_some_iff.1 mem
    exact (s.concernsCollector (.table m)).trans (inert m there)
  rw [Heap.mark_of_inert fun m mem =>
    (g.concernsCollector_setMetatable id metatable _).trans (inert m mem),
    Heap.mark_of_inert fun m mem => (h.concernsCollector_setMetatable _ _ _).trans (inert' m mem)]
  exact s.modifyTable id fun t u same => ⟨same.items, same.entries, same.room, rfl⟩

theorem libraryName? (function : Value) : Native.libraryName? h (ρ.value function) =
    Native.libraryName? g function := by
  have fixed : ∀ p ∈ Native.libraries, p.2 ≤ Heap.stringMetatable := by decide
  unfold Native.libraryName?
  generalize Native.libraries = libraries at fixed
  induction libraries with
  | nil => rfl
  | cons p libraries ih =>
    obtain ⟨library, id⟩ := p
    rw [List.findSome?_cons, List.findSome?_cons, ih fun q member => fixed q (.tail _ member)]
    dsimp only
    rw [(s.library (fixed _ (.head _))).entries, Array.findSome?_map]
    congr 2
    funext found
    obtain ⟨k, v⟩ := found
    cases k with
    | string name => simp only [Function.comp_apply, entry, value_string, beq_value]
    | _ => rfl

end SameHeap

namespace SameNative

theorem pure {a b : α} (h : same a b) : ρ.SameNative same (Pure.pure a) (Pure.pure b) :=
  fun _ => .pure h

theorem bind {x y : Native α} {f f' : α → Native β} (hx : ρ.SameNative same x y)
    (hf : ∀ a b, same a b → ρ.SameNative same' (f a) (f' b)) :
    ρ.SameNative same' (x >>= f) (y >>= f') :=
  fun c => (hx c).bind fun a b h => hf a b h c

theorem bindAlong {x y : Native α} {r : α → α} {f f' : α → Native β}
    (hx : ρ.SameNative (Along r) x y)
    (hf : ∀ a, ρ.SameNative same' (f a) (f' (r a))) : ρ.SameNative same' (x >>= f) (y >>= f') :=
  fun c => (hx c).bindAlong fun a => hf a c

theorem bindEq {x y : Native α} {f f' : α → Native β} (hx : ρ.SameNative Eq x y)
    (hf : ∀ a, ρ.SameNative same' (f a) (f' a)) : ρ.SameNative same' (x >>= f) (y >>= f') :=
  fun c => (hx c).bindEq fun a => hf a c

theorem thenAny {x y : Native α} {f f' : α → Native β} (hx : ρ.SameNative (fun _ _ => False) x y) :
    ρ.SameNative same' (x >>= f) (y >>= f') := hx.bind nofun

theorem bindGet {f f' : Heap → Native β}
    (hf : ∀ g h, ρ.SameHeap g h → ρ.SameNative same' (f g) (f' h)) :
    ρ.SameNative same' ((Action.get : Native Heap) >>= f) ((Action.get : Native Heap) >>= f') :=
  fun c g h s => hf g h s c g h s

theorem bindRead {f f' : CallContext → Native β}
    (hf : ∀ c, ρ.SameNative same' (f c) (f' (ρ.context c))) :
    ρ.SameNative same' ((read : Native CallContext) >>= f) ((read : Native CallContext) >>= f') :=
  fun c g h s => hf c c g h s

theorem lift {x y : Action α} (h : ρ.SameAction same x y) :
    ρ.SameNative same (x : Native α) (y : Native α) := fun _ => h

/-- What comes after something is read off the heap, from the heap on. -/
theorem afterGets {γ : Type} {r r' : Heap → γ} {f f' : γ → Native β}
    {c c' : CallContext} {g h : Heap} (rest : ρ.SameStep same' (f (r g) c g) (f' (r' h) c' h)) :
    ρ.SameStep same' (((Action.gets r : Native γ) >>= f) c g)
      (((Action.gets r' : Native γ) >>= f') c' h) := rest

theorem ite {p : Prop} {d d' : Decidable p} {x x' y y' : Native α}
    (yes : p → ρ.SameNative same x x') (no : ¬p → ρ.SameNative same y y') :
    ρ.SameNative same (@ite _ p d x y) (@ite _ p d' x' y') := by
  by_cases h : p
  · rw [if_pos h, if_pos h]
    exact yes h
  · rw [if_neg h, if_neg h]
    exact no h

theorem iteBind {p : Prop} [Decidable p] {x x' y y' : Native α} {k k' : α → Native β}
    (yes : ρ.SameNative Eq x x')
    (no : ρ.SameNative Eq y y') (rest : ∀ a, ρ.SameNative same' (k a) (k' a)) :
    ρ.SameNative same' (if p then x >>= k else y >>= k) (if p then x' >>= k' else y' >>= k') :=
  ite (fun _ => yes.bindEq rest) fun _ => no.bindEq rest

theorem map {x y : Native α} (f : α → β) (h : ρ.SameNative Eq x y) :
    ρ.SameNative Eq (f <$> x) (f <$> y) := by
  rw [map_eq_pure_bind, map_eq_pure_bind]
  exact h.bindEq fun _ => pure rfl

theorem guarded {p : Prop} [Decidable p] {x y : Native Unit} {k k' : Unit → Native β}
    (hx : ρ.SameNative Eq x y) (hk : ∀ u, ρ.SameNative same' (k u) (k' u)) :
    ρ.SameNative same' (if p then x >>= k else k ()) (if p then y >>= k' else k' ()) := by
  split
  · exact hx.bindEq hk
  · exact hk ()

theorem forM {l : List β} {f f' : β → Native Unit} (each : ∀ b, ρ.SameNative Eq (f b) (f' b)) :
    ρ.SameNative Eq (l.forM f) (l.forM f') := by
  induction l with
  | nil => exact pure rfl
  | cons b l ih => exact (each b).bindEq fun _ => ih

theorem mapM {l : List β} {f f' : β → Native α} (each : ∀ b, ρ.SameNative Eq (f b) (f' b)) :
    ρ.SameNative Eq (l.mapM f) (l.mapM f') := by
  induction l with
  | nil => exact pure rfl
  | cons b l ih =>
    rw [List.mapM_cons, List.mapM_cons]
    exact (each b).bindEq fun _ => ih.bindEq fun _ => pure rfl

theorem raise (e : Value) :
    ρ.SameNative same (Action.raise e : Native α) (Action.raise (ρ.value e) : Native α) :=
  lift (.raise e)

theorem place (level : Nat) : ρ.SameNative Eq (Native.place level) (Native.place level) :=
  fun _ => .pure rfl

theorem fail (message : ByteArray) :
    ρ.SameNative same (Native.fail message) (Native.fail message) :=
  (place 1).bindEq fun p => raise (.string (p ++ message))

theorem failText (message : String) :
    ρ.SameNative same (Native.failText message) (Native.failText message) := fail _

theorem badArgument (number : Nat) (reason : ByteArray) :
    ρ.SameNative same (Native.badArgument number reason) (Native.badArgument number reason) := by
  apply bindRead
  intro c
  apply bindGet
  intro g h s
  dsimp only [context]
  rw [s.libraryName?]
  match c.naming with
  | some ⟨.method, name⟩ =>
    dsimp only
    split
    · exact fail _
    · exact fail _
  | some ⟨.«local», _⟩ | some ⟨.upvalue, _⟩ | some ⟨.global, _⟩ | some
    ⟨.field, _⟩ | some ⟨.constant, _⟩
  | some ⟨.metamethod, _⟩ | some ⟨.iterator, _⟩ | none => exact fail _

theorem badArgumentText (number : Nat) (reason : String) :
    ρ.SameNative same (Native.badArgumentText number reason)
      (Native.badArgumentText number reason) := badArgument _ _

section Arguments

variable (args : List Value) (number : Nat)

theorem wrongType (expected : String) :
    ρ.SameNative same (Native.wrongType args number expected)
      (Native.wrongType (ρ.values args) number expected) := by
  apply bindGet
  intro g h s
  have shown : Native.argumentType h (Native.given (ρ.values args) number) =
      Native.argumentType g (Native.given args number) := by
    rw [given_values]
    cases Native.given args number with
    | none => rfl
    | some v => exact s.typeName v
  rw [shown]
  exact badArgument _ _

theorem anyArg :
    ρ.SameNative (Along ρ.value) (Native.anyArg args number)
      (Native.anyArg (ρ.values args) number) := by
  unfold Native.anyArg
  rw [given_values]
  cases Native.given args number with
  | none => exact badArgumentText _ _
  | some v => exact pure rfl

theorem tableArg :
    ρ.SameNative (Along ρ.table) (Native.tableArg args number)
      (Native.tableArg (ρ.values args) number) := by
  have other : ρ.SameNative (Along ρ.table) (Native.wrongType args number "table")
      (Native.wrongType (ρ.values args) number "table") := wrongType _ _ _
  unfold Native.tableArg
  rw [given_values]
  cases Native.given args number with
  | none => exact other
  | some v =>
    cases v with
    | table id => exact pure rfl
    | _ => exact other

theorem integerArg :
    ρ.SameNative Eq (Native.integerArg args number) (Native.integerArg (ρ.values args) number) := by
  simp only [Native.integerArg, arg_values, coercedInteger?_value, coerced?_value]
  split
  · exact pure rfl
  · split
    · exact badArgumentText _ _
    · exact wrongType _ _ _

theorem integerArgOr (default : Int64) :
    ρ.SameNative Eq (Native.integerArgOr args number default)
      (Native.integerArgOr (ρ.values args) number default) := by
  unfold Native.integerArgOr
  rw [absent_values]
  split
  · exact pure rfl
  · exact integerArg _ _

theorem numberArg :
    ρ.SameNative Eq (Native.numberArg args number) (Native.numberArg (ρ.values args) number) := by
  simp only [Native.numberArg, arg_values, coerced?_value]
  split
  · exact pure rfl
  · exact wrongType _ _ _

theorem doubleArg :
    ρ.SameNative Eq (Native.doubleArg args number) (Native.doubleArg (ρ.values args) number) := by
  apply (numberArg args number).bindEq
  intro n
  cases n <;> exact pure rfl

theorem doubleArgOr (default : Double) :
    ρ.SameNative Eq (Native.doubleArgOr args number default)
      (Native.doubleArgOr (ρ.values args) number default) := by
  unfold Native.doubleArgOr
  rw [absent_values]
  split
  · exact pure rfl
  · exact doubleArg _ _

theorem stringArg :
    ρ.SameNative Eq (Native.stringArg args number) (Native.stringArg (ρ.values args) number) := by
  simp only [Native.stringArg, arg_values, text?_value]
  split
  · exact pure rfl
  · exact wrongType _ _ _

theorem stringArgOr (default : ByteArray) :
    ρ.SameNative Eq (Native.stringArgOr args number default)
      (Native.stringArgOr (ρ.values args) number default) := by
  unfold Native.stringArgOr
  rw [absent_values]
  split
  · exact pure rfl
  · exact stringArg _ _

end Arguments

theorem call (f : Value) (args : List Value) :
    ρ.SameNative (Along ρ.values) (Native.call f args) (Native.call (ρ.value f) (ρ.values args)) :=
  lift (.call f args _)

theorem call₁ (f : Value) (args : List Value) :
    ρ.SameNative (Along ρ.value) (Native.call₁ f args) (Native.call₁ (ρ.value f) (ρ.values args)) :=
  lift (.call₁ f args _)

theorem lookup (object key : Value) :
    ρ.SameNative (Along ρ.value) (Native.lookup object key)
      (Native.lookup (ρ.value object) (ρ.value key)) :=
  lift (.index none object key none)

theorem assign (object key value : Value) :
    ρ.SameNative Eq (Native.assign object key value)
      (Native.assign (ρ.value object) (ρ.value key) (ρ.value value)) :=
  lift (.setIndex none object key value none)

end SameNative

theorem addressText_value {g h : Heap} (s : ρ.SameHeap g h) {v : Value}
    (fixed : v.isObject = false) :
    Native.addressText h (ρ.value v) = Native.addressText g v := by
  rw [Native.addressText, Native.addressText, s.circumstances]
  cases v with
  | table _ | closure _ | matcher _ => cases fixed
  | _ => rfl

/-- The text of a value is the same, except for an object that no metamethod describes. -/
theorem SameHeap.display {same : ByteArray → ByteArray → Prop} {g h : Heap}
    (s : ρ.SameHeap g h) (v : Value)
    (c : CallContext) (text : ∀ b, same b b) (shown : g.showsPlace v = true → ∀ a b, same a b) :
    ρ.SameStep same (Native.display v c g) (Native.display (ρ.value v) (ρ.context c) h) := by
  apply SameNative.afterGets
  rw [s.metamethod]
  generalize found : g.metamethod v (eventKey "tostring") = f
  suffices rest : ρ.SameNative same _ _ from rest c g h s
  rw [isNil_value]
  split
  · apply (SameNative.call₁ f [v]).bindAlong
    intro r
    rw [text?_value]
    split
    · exact .pure (text _)
    · exact .failText _
  · next undescribed =>
    have shown : v.isObject = true → ∀ a b, same a b := by
      intro object
      apply shown
      simpa [Heap.showsPlace, found, object] using undescribed
    have placed : ∀ {t t' : ByteArray}, same t t' →
        ρ.SameNative same (Pure.pure t : Native ByteArray) (Pure.pure t' : Native ByteArray) :=
          .pure
    have described : ∀ {f f' : Heap → Native ByteArray},
        (∀ g h, ρ.SameHeap g h → ρ.SameNative same (f g) (f' h)) →
        ρ.SameNative same ((Action.get : Native Heap) >>= f) ((Action.get : Native Heap) >>= f') :=
          .bindGet
    cases v with
    | table _ | closure _ | matcher _ => exact described fun _ _ _ => placed (shown rfl _ _)
    | builtin _ | host _ =>
      refine described fun g h s => ?_
      rw [addressText_value s rfl, s.typeName]
      exact placed (text _)
    | nil | boolean _ | integer _ | double _ | string _ | failure _ => exact placed (text _)

end Renaming
end SealedLua.Lua
