import SealedLua.Proofs.Renaming.Natives

/-!
# The basic functions on corresponding heaps

All of them do the same on corresponding heaps but `tostring`, which may show
where an object is.
-/

namespace SealedLua.Lua.Renaming

variable {ρ : Renaming} {α : Type} {same : α → α → Prop}

namespace SameNative

theorem raiseAt (v : Value) (level : Int64) :
    ρ.SameNative same (Base.raiseAt v level) (Base.raiseAt (ρ.value v) level) := by
  cases v with
  | string s =>
    simp only [Base.raiseAt, value_string]
    split
    · exact (place _).bindEq fun p => raise (.string (p ++ s))
    · exact raise (.string s)
  | _ => exact raise _

theorem adjusted {x y : Native (List Value)} (count : Nat) (h : ρ.SameNative (Along ρ.values) x y) :
    ρ.SameNative (Along ρ.values) (do return adjust count (← x)) (do return adjust count (← y)) :=
  h.bindAlong fun vs => pure (ρ.adjust_values count vs)

theorem protect (f : Value) (args : List Value) (handler : Option Value) :
    ρ.SameNative (Along ρ.values)
      (do return Base.outcome (← (Action.protect f args Site.native handler : Native _)))
      (do return Base.outcome (← (Action.protect (ρ.value f) (ρ.values args) Site.native
        (handler.map ρ.value) : Native _))) := by
  apply (lift (.protect f args _ handler)).bindAlong
  intro x
  cases x <;> exact pure rfl

end SameNative

namespace SameFunction

open SameNative hiding pure bind forM mapM call

theorem assert : ρ.SameFunction Base.assert := by
  intro args
  apply (anyArg args 1).bindAlong
  intro v
  rw [truthy_value, given_values]
  split
  · exact .pure rfl
  · cases Native.given args 2 with
    | none => exact raiseAt (.ofAscii "assertion failed!") 1
    | some w => exact raiseAt w 1

theorem error : ρ.SameFunction Base.error := by
  intro args
  apply (integerArgOr args 2 1).bindEq
  intro level
  rw [arg_values]
  exact raiseAt _ level

theorem shownMetatable {g h : Heap} (s : ρ.SameHeap g h) (v : Value) :
    ρ.SameNative (Along ρ.values) (match g.metatableOf v with
      | none => return [.nil]
      | some id =>
        let shown := Base.protectedField g v
        return [if shown.isNil then .table id else shown]) (match h.metatableOf (ρ.value v) with
      | none => return [.nil]
      | some id =>
        let shown := Base.protectedField h (ρ.value v)
        return [if shown.isNil then .table id else shown]) := by
  have field : Base.protectedField h (ρ.value v) = ρ.value (Base.protectedField g v) :=
    s.metamethod v _
  simp only [field, s.metatableOf, isNil_value]
  cases g.metatableOf v with
  | none => exact .pure rfl
  | some id =>
    apply SameNative.pure
    cases (Base.protectedField g v).isNil <;> rfl

theorem getmetatable : ρ.SameFunction Base.getmetatable := by
  intro args
  apply (anyArg args 1).bindAlong
  intro v
  apply bindGet
  intro g h s
  have shown := shownMetatable s v
  cases v with
  | failure e => exact .pure rfl
  | _ => exact shown

theorem changeMetatable (id : TableId) (metatable : Option TableId) (c : CallContext)
    {g h : Heap} (s : ρ.SameHeap g h)
    (inert : ∀ m ∈ metatable, g.concernsCollector (.table m) = false) :
    ρ.SameStep (Along ρ.values) (Base.changeMetatable id metatable c g)
      (Base.changeMetatable (ρ.table id) (metatable.map ρ.table) (ρ.context c) h) := by
  have field : Base.protectedField h (.table (ρ.table id)) =
      ρ.value (Base.protectedField g (.table id)) :=
    s.metamethod (.table id) _
  unfold Base.changeMetatable
  apply SameNative.afterGets
  rw [field, isNil_value]
  split
  · exact (SameNative.failText _).thenAny c g h s
  · exact .done rfl (s.setMetatable id inert)

theorem setmetatable (args : List Value) (c : CallContext) {g h : Heap} (s : ρ.SameHeap g h)
    (inert : g.concernsCollector (Native.arg args 2) = false) :
    ρ.SameStep (Along ρ.values) (Base.setmetatable args c g)
      (Base.setmetatable (ρ.values args) (ρ.context c) h) := by
  have refused : ∀ k k' : TableId → Native (List Value), ρ.SameNative (Along ρ.values)
      (Native.wrongType args 1 "table" >>= k) (Native.wrongType (ρ.values args) 1 "table" >>= k') :=
        fun _ _ =>
    (wrongType args 1 "table").thenAny
  have improper : ρ.SameNative (Along ρ.values) (Native.wrongType args 2 "nil or table")
      (Native.wrongType (ρ.values args) 2 "nil or table") := wrongType _ _ _
  unfold Base.setmetatable Native.tableArg
  rw [given_values, given_values]
  cases Native.given args 1 with
  | none => exact refused _ _ c g h s
  | some v =>
    cases v with
    | table id =>
      cases found : Native.given args 2 with
      | none => exact improper c g h s
      | some w =>
        rw [Native.arg, found] at inert
        cases w with
        | nil => exact changeMetatable id none c s fun _ same => absurd same (Option.not_mem_none _)
        | table m => exact changeMetatable id (some m) c s fun _ same =>
          Option.some.inj same ▸ inert
        | _ => exact improper c g h s
    | _ => exact refused _ _ c g h s

theorem ipairs : ρ.SameFunction Base.ipairs :=
  fun args => (anyArg args 1).bindAlong fun _ => .pure rfl

theorem ipairsNext : ρ.SameFunction Base.ipairsNext := by
  intro args
  apply (integerArg args 2).bindEq
  intro n
  rw [arg_values]
  apply (lookup _ (.integer (n + 1))).bindAlong
  intro v
  rw [isNil_value]
  split
  · exact .pure rfl
  · exact .pure rfl

theorem next : ρ.SameFunction Base.next := by
  intro args
  apply (tableArg args 1).bindAlong
  intro id
  have found : ρ.SameNative (Along (·.map (·.map ρ.entry)))
      (Action.gets (·.entryAfter? id (Native.arg args 2)) : Native _)
      (Action.gets (·.entryAfter? (ρ.table id) (ρ.value (Native.arg args 2))) : Native _) :=
    lift (.gets fun g h s => by
      change h.entryAfter? _ _ = _
      rw [Heap.entryAfter?, s.circumstances]
      exact (s.table id).entryAfter? _ _)
  rw [arg_values]
  apply found.bindAlong
  intro x
  match x with
  | none => exact raise (.ofAscii "invalid key to 'next'")
  | some none => exact .pure rfl
  | some (some (k, v)) => exact .pure rfl

theorem pairs : ρ.SameFunction Base.pairs := by
  intro args
  apply (anyArg args 1).bindAlong
  intro v
  apply (lift (.metamethod v (eventKey "pairs"))).bindAlong
  intro f
  rw [isNil_value]
  split
  · exact .pure rfl
  · exact adjusted 3 (SameNative.call f [v])

theorem pcall : ρ.SameFunction Base.pcall := by
  intro args
  apply (anyArg args 1).bindAlong
  intro f
  rw [← List.map_drop]
  exact protect f _ none

theorem xpcall : ρ.SameFunction Base.xpcall := by
  intro args
  unfold Base.xpcall
  dsimp only
  rw [arg_values, arg_values, isFunction_value, ← List.map_drop]
  exact guarded (wrongType args 2 "function") fun _ => protect _ _ (some _)

/-- What is printed need not be the same, since nothing reads it. -/
theorem printed (b b' : ByteArray) :
    ρ.SameNative Eq (Action.modify (·.print b) : Native Unit)
      (Action.modify (·.print b') : Native Unit) :=
  lift (.modify fun _ _ s => ⟨s.cells, s.tables, s.closures, s.matchers, s.failures, s.random,
    s.seeds, s.circumstances,
    s.unmarked, s.unmarked'⟩)

theorem printEach (before : ByteArray) (vs : List Value) :
    ρ.SameNative Eq (Base.printEach before vs) (Base.printEach before (ρ.values vs)) := by
  induction vs generalizing before with
  | nil => exact .pure rfl
  | cons v rest ih =>
    have any : ρ.SameNative (fun _ _ => True) (Native.display v) (Native.display (ρ.value v)) :=
      fun c g h s => s.display v c (fun _ => trivial) fun _ _ _ => trivial
    exact any.bind fun a b _ => (printed _ _).bindEq fun _ => ih _

theorem print : ρ.SameFunction Base.print := by
  intro args
  apply (printEach _ args).bindEq
  intro _
  exact (printed _ _).bindEq fun _ => .pure rfl

theorem warn : ρ.SameFunction Base.warn := by
  intro args
  apply (stringArg args 1).bindEq
  intro _
  rw [List.length_map]
  have texts : ∀ i, ρ.SameNative Eq (do
      let _ ← Native.stringArg args (i + 1)) (do
      let _ ← Native.stringArg (ρ.values args) (i + 1)) := fun i =>
        (stringArg args (i + 1)).bindEq fun _ => .pure rfl
  exact (SameNative.forM texts).bindEq fun _ => .pure rfl

theorem rawequal : ρ.SameFunction Base.rawequal := by
  intro args
  apply (anyArg args 1).bindAlong
  intro a
  apply (anyArg args 2).bindAlong
  intro b
  rw [rawEq_value]
  exact .pure rfl

theorem rawlen : ρ.SameFunction Base.rawlen := by
  intro args
  apply bindGet
  intro g h s
  have other : ρ.SameNative (Along ρ.values) (Native.wrongType args 1 "table or string")
      (Native.wrongType (ρ.values args) 1 "table or string") := wrongType _ _ _
  rw [given_values]
  cases Native.given args 1 with
  | none => exact other
  | some v =>
    cases v with
    | table id =>
      simp only [Option.map, value_table, (s.table id).length]
      exact .pure rfl
    | string s => exact .pure rfl
    | _ => exact other

theorem rawget : ρ.SameFunction Base.rawget := by
  intro args
  apply (tableArg args 1).bindAlong
  intro id
  apply (anyArg args 2).bindAlong
  intro k
  apply bindGet
  intro g h s
  rw [s.get]
  exact .pure rfl

theorem rawset : ρ.SameFunction Base.rawset := by
  intro args
  apply (tableArg args 1).bindAlong
  intro id
  apply (anyArg args 2).bindAlong
  intro k
  apply (anyArg args 3).bindAlong
  intro v
  exact (lift (.store none id k v)).bindEq fun _ => .pure rfl

theorem select : ρ.SameFunction Base.select := by
  intro args
  have chosen : ∀ i : Int, ρ.SameNative (Along ρ.values)
      (if i < 1 then Native.badArgumentText 1 "index out of range" else return args.drop i.toNat)
      (if i < 1 then Native.badArgumentText 1 "index out of range"
        else return ρ.values (args.drop i.toNat)) := by
    intro i
    split
    · exact badArgumentText _ _
    · exact .pure rfl
  unfold Base.select
  simp only [arg_values, ← List.map_drop, List.length_map]
  cases Native.arg args 1 with
  | string s =>
    exact .ite (fun _ => .pure rfl) fun _ => (integerArg args 1).bindEq fun _ => chosen _
  | _ => exact (integerArg args 1).bindEq fun _ => chosen _

theorem tonumber : ρ.SameFunction Base.tonumber := by
  intro args
  unfold Base.tonumber
  rw [absent_values]
  split
  · rw [arg_values]
    cases Native.arg args 1 with
    | string s =>
      apply SameNative.pure
      cases Number.read? (codes s) with
      | none => rfl
      | some n => exact congrArg (fun v => [v]) (ρ.value_ofNumber n).symm
    | integer n => exact .pure rfl
    | double x => exact .pure rfl
    | _ => exact (anyArg args 1).bindAlong fun _ => .pure rfl
  · apply (integerArg args 2).bindEq
    intro base
    have other : ρ.SameNative (Along ρ.values) (Native.wrongType args 1 "string")
        (Native.wrongType (ρ.values args) 1 "string") := wrongType _ _ _
    rw [given_values]
    cases Native.given args 1 with
    | none => exact other
    | some v =>
      cases v with
      | string s =>
        dsimp only [Option.map, value_string]
        split
        · exact badArgumentText _ _
        · apply SameNative.pure
          cases Base.readInBase base.toInt.toNat (codes s) <;> rfl
      | _ => exact other

theorem type : ρ.SameFunction Base.type := by
  intro args
  apply (anyArg args 1).bindAlong
  intro v
  rw [typeName_value]
  exact .pure rfl

/-- A piece of a chunk that a reader function returned, and those after it. -/
theorem gathered {x y : ByteArray → Native (Except Value ByteArray)} (v : Value) (text : ByteArray)
    (more : ∀ text, ρ.SameNative (Along (Except.mapError ρ.value)) (x text) (y text)) :
    ρ.SameNative (Along (Except.mapError ρ.value))
      (match v.text? with
      | none => return .error (.ofAscii "reader function must return a string")
      | some piece => if piece.size = 0 then return .ok text else x (text ++ piece))
      (match v.text? with
      | none => return .error (.ofAscii "reader function must return a string")
      | some piece => if piece.size = 0 then return .ok text else y (text ++ piece)) := by
  split
  · exact .pure rfl
  · split
    · exact .pure rfl
    · exact more _

theorem gather (f : Value) (n : Nat) (text : ByteArray) :
    ρ.SameNative (Along (Except.mapError ρ.value)) (Base.gather f n text)
      (Base.gather (ρ.value f) n text) := by
  induction n generalizing text with
  | zero => exact .pure rfl
  | succ n ih =>
    apply (lift (.protect f [] _ none)).bindAlong
    intro x
    cases x with
    | error e => exact .pure rfl
    | ok vs =>
      dsimp only [caught]
      rw [headD_values]
      generalize vs.headD .nil = v
      have piece := gathered v text ih
      cases v with
      | nil => exact .pure rfl
      | _ => exact piece

theorem compile (source name mode : ByteArray) (environment : Option Value) :
    ρ.SameNative (Along ρ.values) (Base.compile source name mode environment)
      (Base.compile source name mode (environment.map ρ.value)) := by
  have globals : (environment.map ρ.value).getD (.table Heap.globals) =
      ρ.value (environment.getD (.table Heap.globals)) := by
    cases environment with
    | none => exact congrArg Value.table (ρ.library Heap.globals (by decide)).symm
    | some v => rfl
  unfold Base.compile
  dsimp only
  rw [globals]
  apply SameNative.ite
  · exact fun _ => .pure rfl
  · intro _
    have made : ρ.SameNative (Along fun x => x.map ρ.value)
        (Action.modifyGet (·.loadChunk source (Chunk.shownName (Base.untilZero name))
          (environment.getD (.table Heap.globals))) : Native _)
        (Action.modifyGet (·.loadChunk source (Chunk.shownName (Base.untilZero name))
          (ρ.value (environment.getD (.table Heap.globals)))) : Native _) :=
      lift (.modifyGet fun _ _ s => s.loadChunk source _ _)
    apply made.bindAlong
    intro x
    cases x with
    | error e => exact .pure rfl
    | ok f => exact .pure rfl

theorem load : ρ.SameFunction Base.load := by
  intro args
  apply (stringArgOr args 3 _).bindEq
  intro mode
  simp only [arg_values, given_values, text?_value, isFunction_value]
  split
  · apply (stringArgOr args 2 _).bindEq
    intro name
    exact compile _ _ _ _
  · apply (stringArgOr args 2 _).bindEq
    intro name
    apply guarded (wrongType args 1 "function")
    intro _
    apply (gather _ _ _).bindAlong
    intro x
    cases x with
    | error e => exact .pure rfl
    | ok source => exact compile _ _ _ _

end SameFunction
end SealedLua.Lua.Renaming
