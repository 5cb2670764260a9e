import SealedLua.Lua.Library.Text
import SealedLua.Proofs.Renaming.Natives

/-!
# The string functions on corresponding heaps

Matching is about bytes.  Values come in where a match is replaced by what a
table or a function gives, and where an operator is applied to strings.
-/

namespace SealedLua.Lua.Renaming

variable {ρ : Renaming} {α : Type}

@[simp] theorem value_piece (p : Pattern.Piece) :
    ρ.value (Text.Piece.value p) = Text.Piece.value p := by cases p <;> rfl

@[simp] theorem values_pieces (ps : List Pattern.Piece) :
    ρ.values (ps.map Text.Piece.value) = ps.map Text.Piece.value := by
  simp [Function.comp_def]

theorem value_head (ps : List Pattern.Piece) :
    ρ.value ((ps.head?.map Text.Piece.value).getD .nil) =
      (ps.head?.map Text.Piece.value).getD .nil := by
  cases ps <;> simp

namespace SameNative

theorem orFail (x : Except Pattern.PatternError α) :
    ρ.SameNative Eq (Text.orFail x) (Text.orFail x) := by
  cases x with
  | error e => exact failText _
  | ok a => exact pure rfl

/-- What replaces an occurrence, from the value that was found for it. -/
theorem chosen (v : Value) :
    ρ.SameNative Eq
      (if !v.truthy then return none
      else
        match v.text? with
        | some t => return some t
        | none => Native.failText ("invalid replacement value (a " ++ v.typeName ++ ")"))
      (if !(ρ.value v).truthy then return none
      else
        match (ρ.value v).text? with
        | some t => return some t
        | none =>
          Native.failText ("invalid replacement value (a " ++ (ρ.value v).typeName ++ ")")) := by
  rw [truthy_value, text?_value, typeName_value]
  apply ite
  · exact fun _ => pure rfl
  · intro _
    split
    · exact pure rfl
    · exact failText _

theorem replacement (s : ByteArray) (replacer : Value) (start stop : Nat)
    (captures : Pattern.Captures) :
    ρ.SameNative Eq (Text.replacement s replacer start stop captures)
      (Text.replacement s (ρ.value replacer) start stop captures) := by
  have called : ∀ (f : Value) (ps : List Pattern.Piece), ρ.SameNative (Along ρ.value)
      (Native.call₁ f (ps.map Text.Piece.value))
      (Native.call₁ (ρ.value f) (ps.map Text.Piece.value)) := by
    intro f ps
    have called := call₁ (ρ := ρ) f (ps.map Text.Piece.value)
    rwa [values_pieces] at called
  unfold Text.replacement
  dsimp only
  cases replacer with
  | table id =>
    apply (orFail _).bindEq
    intro captured
    have found := lookup (ρ := ρ) (.table id) ((captured.head?.map Text.Piece.value).getD .nil)
    rw [value_head] at found
    exact found.bindAlong chosen
  | _ =>
    apply ite
    · intro _
      apply (orFail _).bindEq
      intro captured
      exact (called _ captured).bindAlong chosen
    · exact fun _ => (orFail _).bindEq fun _ => pure rfl

theorem replaceFrom (s : ByteArray) (pattern : List UInt8) (anchored : Bool)
    (replacer : Value) (limit : Int) (budget : Nat) (p : Text.Progress) :
    ρ.SameNative Eq (Text.replaceFrom s pattern anchored replacer limit budget p)
      (Text.replaceFrom s pattern anchored (ρ.value replacer) limit budget p) := by
  induction budget generalizing p with
  | zero => exact pure rfl
  | succ budget ih =>
    apply ite
    · exact fun _ => pure rfl
    · intro _
      apply (orFail _).bindEq
      intro (p, found)
      cases found with
      | none => exact pure rfl
      | some m =>
        obtain ⟨e, captures⟩ := m
        apply (replacement s replacer p.place e captures).bindEq
        intro text
        exact .ite (fun _ => pure rfl) fun _ => ih _

end SameNative

namespace SameFunction

open SameNative hiding pure bind forM mapM call

theorem stringLen : ρ.SameFunction Text.len :=
  fun args => (stringArg args 1).bindEq fun _ => .pure rfl

theorem stringSub : ρ.SameFunction Text.sub := fun args =>
  (stringArg args 1).bindEq fun _ => (integerArg args 2).bindEq fun _ =>
    (integerArgOr args 3 _).bindEq fun _ => .pure rfl

theorem stringMapped (f : UInt8 → UInt8) : ρ.SameFunction (Text.mapped f) := fun args =>
  (stringArg args 1).bindEq fun _ => .pure rfl

theorem stringReverse : ρ.SameFunction Text.reverse :=
  fun args => (stringArg args 1).bindEq fun _ => .pure rfl

theorem stringRep : ρ.SameFunction Text.rep := by
  intro args
  apply (stringArg args 1).bindEq
  intro s
  apply (integerArg args 2).bindEq
  intro n
  apply (stringArgOr args 3 _).bindEq
  intro separator
  exact .ite (fun _ => .pure rfl) fun _ => .ite (fun _ => failText _) fun _ => .pure rfl

theorem stringByte : ρ.SameFunction Text.byte := by
  intro args
  apply (stringArg args 1).bindEq
  intro s
  apply (integerArgOr args 2 1).bindEq
  intro first
  exact (integerArgOr args 3 _).bindEq fun _ => .pure (ρ.values_integers _ _).symm

theorem stringChar : ρ.SameFunction Text.char := by
  intro args
  unfold Text.char
  rw [List.length_map]
  have code : ∀ i, ρ.SameNative Eq (do
      let n ← Native.integerArg args (i + 1)
      if 0 ≤ n && n ≤ 255 then return UInt8.ofNat n.toInt.toNat
        else Native.badArgumentText (i + 1) "value out of range") (do
      let n ← Native.integerArg (ρ.values args) (i + 1)
      if 0 ≤ n && n ≤ 255 then return UInt8.ofNat n.toInt.toNat
        else Native.badArgumentText (i + 1) "value out of range") := by
    intro i
    apply (integerArg args (i + 1)).bindEq
    intro n
    exact .ite (fun _ => .pure rfl) fun _ => badArgumentText _ _
  exact (SameNative.mapM code).bindEq fun _ => .pure rfl

theorem searched (find : Bool) (s : ByteArray) (start : Nat) (plan : List UInt8 × Nat) :
    ρ.SameNative (Along ρ.values)
      (match plan with
      | (pattern, more) => do
        match ← Text.orFail (Pattern.firstMatch s pattern start more) with
        | none => return [.nil]
        | some (i, e, captures) =>
          if find then
            let captured ← Text.orFail (captures.mapM (Pattern.piece s))
            return [.integer (Int64.ofNat (i + 1)), .integer (Int64.ofNat e)] ++
              captured.map Text.Piece.value
          else
            let captured ← Text.orFail (Pattern.pieces s i e captures)
            return captured.map Text.Piece.value)
      (match plan with
      | (pattern, more) => do
        match ← Text.orFail (Pattern.firstMatch s pattern start more) with
        | none => return [.nil]
        | some (i, e, captures) =>
          if find then
            let captured ← Text.orFail (captures.mapM (Pattern.piece s))
            return [.integer (Int64.ofNat (i + 1)), .integer (Int64.ofNat e)] ++
              captured.map Text.Piece.value
          else
            let captured ← Text.orFail (Pattern.pieces s i e captures)
            return captured.map Text.Piece.value) := by
  obtain ⟨pattern, more⟩ := plan
  apply (orFail _).bindEq
  intro found
  cases found with
  | none => exact .pure rfl
  | some m =>
    obtain ⟨i, e, captures⟩ := m
    apply SameNative.ite
    · exact fun _ => (orFail _).bindEq fun _ => .pure (by simp [Along])
    · exact fun _ => (orFail _).bindEq fun _ => .pure (values_pieces _).symm

theorem stringSearch (find : Bool) : ρ.SameFunction (Text.search find) := by
  intro args
  apply (stringArg args 1).bindEq
  intro s
  apply (stringArg args 2).bindEq
  intro p
  apply (integerArgOr args 3 1).bindEq
  intro start
  dsimp only
  rw [arg_values, truthy_value]
  apply SameNative.ite
  · exact fun _ => .pure rfl
  · intro _
    apply SameNative.ite
    · intro _
      split
      · exact .pure rfl
      · exact .pure rfl
    · intro _
      exact searched find s _ _

theorem stringGmatch : ρ.SameFunction Text.gmatch := by
  intro args
  apply (stringArg args 1).bindEq
  intro s
  apply (stringArg args 2).bindEq
  intro p
  apply (integerArgOr args 3 1).bindEq
  intro start
  have made : ∀ m,
      ρ.SameNative (Along ρ.matcher) (Action.modifyGet (·.newMatcher m) : Native MatcherId)
      (Action.modifyGet (·.newMatcher m) : Native MatcherId) := fun m =>
        lift (.modifyGet fun _ _ s => s.newMatcher m)
  exact (made _).bindAlong fun _ => .pure rfl

/-- What a replacement of all occurrences returns, from the pattern and whether it is anchored. -/
theorem replaced (s : ByteArray) (replacer : Value) (limit : Int) (plan : List UInt8 × Bool) :
    ρ.SameNative (Along ρ.values)
      (match plan with
      | (pattern, anchored) => do
        let done ← Text.replaceFrom s pattern anchored replacer limit
          (s.size + 2) ⟨0, none, bytes [], 0⟩
        return [.string (done.written ++ s.extract done.place s.size),
          .integer (Int64.ofNat done.count)])
      (match plan with
      | (pattern, anchored) => do
        let done ← Text.replaceFrom s pattern anchored (ρ.value replacer) limit
          (s.size + 2) ⟨0, none, bytes [], 0⟩
        return [.string (done.written ++ s.extract done.place s.size),
          .integer (Int64.ofNat done.count)]) := by
  obtain ⟨pattern, anchored⟩ := plan
  exact (replaceFrom s pattern anchored replacer limit _ _).bindEq fun _ => .pure rfl

theorem stringGsub : ρ.SameFunction Text.gsub := by
  intro args
  apply (stringArg args 1).bindEq
  intro s
  apply (stringArg args 2).bindEq
  intro p
  dsimp only
  rw [arg_values, absent_values]
  apply iteBind (.pure rfl) (.map _ (integerArg args 4))
  intro limit
  cases Native.arg args 3 with
  | integer n => exact replaced s (.integer n) limit _
  | double x => exact replaced s (.double x) limit _
  | string t => exact replaced s (.string t) limit _
  | table id => exact replaced s (.table id) limit _
  | _ => exact guarded (wrongType args 3 _) fun _ => replaced s _ limit _

theorem iterate (id : MatcherId) :
    ρ.SameNative (Along ρ.values) (Text.iterate id) (Text.iterate (ρ.matcher id)) := by
  apply (lift (.gets fun _ _ s => (s.matcher id).symm)).bindEq
  intro m
  apply (orFail _).bindEq
  intro found
  cases found with
  | none => exact .pure rfl
  | some m' =>
    obtain ⟨i, e, captures⟩ := m'
    apply (lift (.modify fun _ _ s => s.setMatcher id _)).bindEq
    intro _
    exact (orFail _).bindEq fun _ => .pure (values_pieces _).symm

/-- The metamethod that an operator on strings asks of its second operand. -/
theorem ownMetamethod (event : String) (b : Value) :
    ρ.SameNative (Along ρ.value) (Action.gets fun h => match b with
        | .string _ => .nil
        | _ => h.metamethod b (eventKey event) : Native Value)
      (Action.gets fun h => match ρ.value b with
        | .string _ => .nil
        | _ => h.metamethod (ρ.value b) (eventKey event) : Native Value) := by
  refine lift (.gets fun g h s => ?_)
  have method := s.metamethod b (eventKey event)
  cases b with
  | string t => rfl
  | _ => exact method

theorem arithFallback (event : String) (a b : Value) :
    ρ.SameNative (Along ρ.values) (Text.arithFallback event a b)
      (Text.arithFallback event (ρ.value a) (ρ.value b)) := by
  apply (ownMetamethod event b).bindAlong
  intro f
  rw [isNil_value, typeName_value, typeName_value]
  exact .ite (fun _ => failText _) fun _ => (call₁ f [a, b]).bindAlong fun _ => .pure rfl

theorem operand?_value (v : Value) : Text.operand? (ρ.value v) = Text.operand? v := by
  rw [Text.operand?, Text.operand?, coerced?_value]

theorem value_of_operand? {v w : Value} (h : Text.operand? v = some w) : ρ.value w = w := by
  obtain ⟨n, -, rfl⟩ := Option.map_eq_some_iff.1 h
  exact ρ.value_ofNumber n

theorem stringArithmetic (op : ArithOp) : ρ.SameFunction (Text.arithmetic op) := by
  intro args
  unfold Text.arithmetic
  dsimp only
  simp only [arg_values, operand?_value]
  split
  · next x y hx hy =>
    have done := SameAction.arith (ρ := ρ) none op x y none none
    rw [value_of_operand? hx, value_of_operand? hy] at done
    exact (lift done).bindAlong fun _ => .pure rfl
  · exact arithFallback _ _ _

theorem stringNegation : ρ.SameFunction Text.negation := by
  intro args
  unfold Text.negation
  dsimp only
  simp only [arg_values, operand?_value]
  split
  · next x hx =>
    have done := SameAction.negate (ρ := ρ) none x none
    rw [value_of_operand? hx] at done
    exact (lift done).bindAlong fun _ => .pure rfl
  · exact arithFallback _ _ _

end SameFunction
end SealedLua.Lua.Renaming
