import SealedLua.Lua.Library.Text
import SealedLua.Proofs.Confinement.BasicFunctions

/-!
# The string functions under a confinement

They give strings and numbers.  Values come in where a match is replaced by what a
table or a function gives, and where an operator is applied to strings.
-/

namespace SealedLua.Lua.Confinement

variable {C : Confinement} {α : Type}

theorem free_piece (p : Pattern.Piece) : C.free (Text.Piece.value p) := by
  cases p <;> exact C.data rfl

theorem frees_map {γ : Type} {f : γ → Value} (free : ∀ c, C.free (f c)) (l : List γ) :
    C.Frees (l.map f) := by
  intro v mem
  obtain ⟨c, -, rfl⟩ := List.mem_map.1 mem
  exact free c

namespace SafeNative

theorem orFail (x : Except Pattern.PatternError α) :
    C.SafeNative (fun _ => True) (Text.orFail x) := by
  cases x with
  | error e => exact failText _
  | ok a => exact pure trivial

/-- What replaces an occurrence, from the value that was found for it. -/
theorem chosen (v : Value) : C.SafeNative (fun _ => True)
    (if !v.truthy then return none
    else
      match v.text? with
      | some t => return some t
      | none => Native.failText ("invalid replacement value (a " ++ v.typeName ++ ")") :
      Native (Option ByteArray)) := by
  refine ite (fun _ => pure trivial) fun _ => ?_
  split
  · exact pure trivial
  · exact failText _

section Replacing

variable (s : ByteArray) {replacer : Value} (hr : C.free replacer)

include hr

theorem replacement (start stop : Nat) (captures : Pattern.Captures) :
    C.SafeNative (fun _ => True) (Text.replacement s replacer start stop captures) := by
  unfold Text.replacement
  dsimp only
  split
  · refine (orFail _).bind fun captured _ => (lookup hr ?_).bind fun v _ => chosen v
    cases captured with
    | nil => exact C.free_nil
    | cons p _ => exact free_piece p
  · refine ite (fun _ => (orFail _).bind fun captured _ => ?_) fun _ =>
      (orFail _).bind fun _ _ => pure trivial
    exact (call₁ hr (frees_map free_piece captured)).bind fun v _ => chosen v

theorem replaceFrom (pattern : List UInt8) (anchored : Bool) (limit : Int)
    (budget : Nat) (p : Text.Progress) :
    C.SafeNative (fun _ => True) (Text.replaceFrom s pattern anchored replacer limit budget p) := by
  induction budget generalizing p with
  | zero => exact pure trivial
  | succ budget ih =>
    refine ite (fun _ => pure trivial) fun _ => (orFail _).bind fun found _ => ?_
    split
    · exact pure trivial
    · exact (replacement s hr _ _ _).bind fun text _ => ite (fun _ => pure trivial) fun _ => ih _

end Replacing

/-- The metamethod that an operator on strings asks of its second operand. -/
theorem ownMetamethod (event : String) (b : Value) :
    C.SafeNative C.free (Action.gets fun h => match b with
    | .string _ => .nil
    | _ => h.metamethod b (eventKey event)) := by
  refine lift (.gets fun h holds => ?_)
  split
  · exact C.free_nil
  · exact holds.metamethod _ _

theorem arithFallback (event : String) {a b : Value} (ha : C.free a) (hb : C.free b) :
    C.SafeNative C.Frees (Text.arithFallback event a b) := by
  refine (ownMetamethod event b).bind fun f callee => ite (fun _ => failText _) fun _ =>
    one (call₁ callee ?_)
  simp [ha, hb]

end SafeNative

theorem free_of_operand? {v w : Value} (h : Text.operand? v = some w) : C.free w := by
  obtain ⟨n, -, rfl⟩ := Option.map_eq_some_iff.1 h
  exact C.free_ofNumber n

namespace SafeFunction

open SafeNative hiding pure bind forM mapM call ite

theorem stringLen : C.SafeFunction Text.len :=
  fun _ _ => (stringArg 1).bind fun _ _ => .pure (by simp)

theorem stringSub : C.SafeFunction Text.sub := fun _ _ =>
  (stringArg 1).bind fun _ _ => (integerArg 2).bind fun _ _ => (integerArgOr 3 (-1)).bind fun _ _ =>
    .pure (by simp)

theorem stringMapped (f : UInt8 → UInt8) : C.SafeFunction (Text.mapped f) := fun _ _ =>
  (stringArg 1).bind fun _ _ => .pure (by simp)

theorem stringReverse : C.SafeFunction Text.reverse :=
  fun _ _ => (stringArg 1).bind fun _ _ => .pure (by simp)

theorem stringRep : C.SafeFunction Text.rep := by
  intro args h
  refine (stringArg 1).bind fun s _ => (integerArg 2).bind fun n _ =>
    (stringArgOr 3 _).bind fun separator _ => ?_
  exact .ite (fun _ => .pure (by simp)) fun _ => .ite (fun _ => failText _) fun _ => .pure (by simp)

theorem stringByte : C.SafeFunction Text.byte := fun _ _ =>
  (stringArg 1).bind fun _ _ => (integerArgOr 2 1).bind
      fun _ _ => (integerArgOr 3 _).bind fun _ _ =>
    .pure (frees_map (fun _ => C.free_integer _) _)

theorem stringChar : C.SafeFunction Text.char := by
  intro args h
  refine (SafeNative.mapM (P := fun _ => True) fun i _ => (integerArg (i + 1)).bind fun n _ =>
      ?_).bind fun _ _ =>
    .pure (by simp)
  exact .ite (fun _ => .pure trivial) fun _ => badArgumentText _ _

theorem stringSearch (find : Bool) : C.SafeFunction (Text.search find) := by
  intro args h
  refine (stringArg 1).bind fun s _ => (stringArg 2).bind fun p _ =>
    (integerArgOr 3 1).bind fun first _ => ?_
  refine .ite (fun _ => .pure (by simp)) fun _ => .ite (fun _ => ?_) fun _ => ?_
  · split
    · exact .pure (by simp)
    · exact .pure (by simp)
  · refine (orFail _).bind fun found _ => ?_
    split
    · exact .pure (by simp)
    · refine .ite (fun _ => (orFail _).bind fun captured _ => .pure ?_) fun _ => ?_
      · exact frees_append (by simp) (frees_map free_piece captured)
      · exact (orFail _).bind fun captured _ => .pure (frees_map free_piece captured)

theorem stringGmatch : C.SafeFunction Text.gmatch := by
  intro args h
  refine (stringArg 1).bind fun s _ => (stringArg 2).bind fun p _ =>
    (integerArgOr 3 1).bind fun start _ => ?_
  have made : ∀ m, C.SafeNative (fun _ => True) (Action.modifyGet (·.newMatcher m)) := fun m =>
    lift (.modifyGet fun _ holds => ⟨trivial, holds.newMatcher m⟩)
  exact (made _).bind fun _ _ => .pure (by simp)

theorem stringGsub : C.SafeFunction Text.gsub := by
  intro args h
  have limited : C.SafeNative (fun _ => True) (Int64.toInt <$> Native.integerArg args 4) := by
    rw [map_eq_pure_bind]
    exact (integerArg 4).bind fun _ _ => .pure trivial
  refine (stringArg 1).bind fun s _ => (stringArg 2).bind fun p _ => ?_
  have free := free_arg h 3
  dsimp only
  generalize Native.arg args 3 = replacer at free ⊢
  have replaced : ∀ (limit : Int) (pattern : List UInt8) (anchored : Bool), C.SafeNative C.Frees (do
      let done ← Text.replaceFrom s pattern anchored replacer limit
        (s.size + 2) ⟨0, none, bytes [], 0⟩
      return [.string (done.written ++ s.extract done.place s.size),
        .integer (Int64.ofNat done.count)]) :=
    fun limit pattern anchored => (replaceFrom s free _ _ limit _ _).bind fun _ _ => .pure (by simp)
  -- A replacement of a wrong type is refused after the limit was read.
  cases replacer with
  | integer _ | double _ | string _ | table _ =>
    exact .ite (fun _ => replaced _ _ _) fun _ => limited.bind fun limit _ => replaced limit _ _
  | _ =>
    have counted : C.SafeNative (fun _ => True) (Pure.pure (s.size + 1 : Int)) := .pure trivial
    exact .ite (fun _ => counted.bind fun limit _ => guarded (wrongType 3 _) fun _ =>
        replaced limit _ _) fun _ =>
      limited.bind fun limit _ => guarded (wrongType 3 _) fun _ => replaced limit _ _

theorem iterate (id : MatcherId) : C.SafeNative C.Frees (Text.iterate id) := by
  refine (lift (.gets (P := fun _ => True) fun _ _ => trivial)).bind fun m _ =>
    (orFail _).bind fun found _ => ?_
  split
  · exact .pure (by simp)
  · refine (lift (.modify fun _ holds => ?_)).bind fun _ _ =>
      (orFail _).bind fun captured _ => .pure ?_
    · exact holds.setMatcher id _
    · exact frees_map free_piece captured

theorem stringArithmetic (op : ArithOp) : C.SafeFunction (Text.arithmetic op) := by
  intro args h
  unfold Text.arithmetic
  dsimp only
  split
  · next hx hy =>
      exact one (lift (.arith none none none (free_of_operand? hx) (free_of_operand? hy) op))
  · exact arithFallback _ (free_arg h 1) (free_arg h 2)

theorem stringNegation : C.SafeFunction Text.negation := by
  intro args h
  unfold Text.negation
  dsimp only
  split
  · next hx => exact one (lift (.negate none none (free_of_operand? hx)))
  · exact arithFallback _ (free_arg h 1) (free_arg h 2)

end SafeFunction
end SealedLua.Lua.Confinement
