import SealedLua.Proofs.Engine.Evaluations
import SealedLua.Proofs.Engine.Slots
import SealedLua.Proofs.Number.Value

/-!
# Kinds of values, and what can be popped

What is told of a value before it is popped is what popping it then shows.  Of a
double it is told by its value, a rational number, so the ends of the range of
integers are where they should be and no whole number is taken for another.
-/

namespace SealedLua

open Lua

namespace Stack

variable {v : Value} {n : Int64} {t : String}

theorem readInteger_eq_ok : readInteger v = .ok n ↔ v.integer? = some n := by
  unfold readInteger
  cases v.integer? <;> simp

theorem readText_string (s : ByteArray) :
    readText (.string s) = (String.fromUTF8? s).elim
      (.error (.wrongKind "a UTF-8 string")) .ok := by
  rw [readText]
  cases String.fromUTF8? s <;> rfl

theorem readText_eq_ok : readText v = .ok t ↔ v = .ofText t := by
  constructor
  · intro read
    cases v with
    | string s =>
      rw [readText_string] at read
      cases valid : String.fromUTF8? s with
      | none => simp [valid] at read
      | some u =>
        obtain rfl : u = t := by simpa [valid] using read
        rw [Value.ofText, Parcel.toUTF8_of_fromUTF8? valid]
    | _ => cases read
  · rintro rfl
    rw [Value.ofText, readText_string, Parcel.fromUTF8?_toUTF8, Option.elim_some]

end Stack

namespace ValueKind

variable {v : Value} {x : Double}

theorem ofValue_double (x : Double) :
    ofValue (.double x) = if (Value.exactInteger? x).isSome = true then .integer else .other := rfl

theorem ofValue_string (s : ByteArray) :
    ofValue (.string s) = if (String.fromUTF8? s).isSome = true then .text else .other := rfl

theorem ofValue_ofText (t : String) : ofValue (.ofText t) = .text := by
  rw [Value.ofText, ofValue_string, Parcel.fromUTF8?_toUTF8, Option.isSome_some, if_pos rfl]

theorem ofValue_of_integer? {n : Int64} (number : v.integer? = some n) : ofValue v = .integer := by
  cases v with
  | integer m => rfl
  | double x =>
    have whole : Value.exactInteger? x = some n := number
    rw [ofValue_double, whole, Option.isSome_some, if_pos rfl]
  | _ => cases number

theorem ofValue_eq_integer (kind : ofValue v = .integer) : ∃ n, v.integer? = some n := by
  cases v with
  | integer n => exact ⟨n, rfl⟩
  | double x =>
    rw [ofValue_double] at kind
    split at kind
    · next whole => exact Option.isSome_iff_exists.1 whole
    · cases kind
  | string s =>
    rw [ofValue_string] at kind
    split at kind <;> cases kind
  | _ => cases kind

theorem ofValue_eq_text (kind : ofValue v = .text) : ∃ t, v = .ofText t := by
  cases v with
  | double x =>
    rw [ofValue_double] at kind
    split at kind <;> cases kind
  | string s =>
    rw [ofValue_string] at kind
    split at kind
    · next valid =>
      obtain ⟨t, read⟩ := Option.isSome_iff_exists.1 valid
      exact ⟨t, by rw [Value.ofText, Parcel.toUTF8_of_fromUTF8? read]⟩
    · cases kind
  | _ => cases kind

theorem ofValue_eq_integer_iff : ofValue v = .integer ↔ ∃ n, Stack.readInteger v = .ok n := by
  simp only [Stack.readInteger_eq_ok]
  exact ⟨ofValue_eq_integer, fun ⟨n, number⟩ => ofValue_of_integer? number⟩

theorem ofValue_eq_text_iff : ofValue v = .text ↔ ∃ t, Stack.readText v = .ok t := by
  simp only [Stack.readText_eq_ok]
  refine ⟨ofValue_eq_text, ?_⟩
  rintro ⟨t, rfl⟩
  exact ofValue_ofText t

/-- A double is an integer if its value is a whole number of sixty-four bits. -/
theorem ofValue_double_eq_integer : ofValue (.double x) = .integer ↔
    ∃ q : ℚ, x.value? = some q ∧ q.isInt = true ∧ -2 ^ 63 ≤ q ∧ q < 2 ^ 63 := by
  rw [← Value.isSome_exactInteger?, ofValue_double]
  split <;> simp [*]

end ValueKind

open Evaluation (op)

section Encoding

variable {Q : Type} {outer : Depth} {v : Value}

theorem comes_peekKind (h : Heap) (v : Value) (below : List Value) :
    Comes (Q := Q) outer (op .peekKind) ⟨h, v :: below⟩ (ValueKind.ofValue v) ⟨h, v :: below⟩ :=
  .op_pure fun _ => rfl

theorem comes_pushText {h : Heap} (idle : h.collectsNow = false)
    (t : String) (values : List Value) :
    Comes (Q := Q) outer (op (.pushText t)) ⟨h, values⟩ () ⟨h, .ofText t :: values⟩ :=
  .op_pure fun _ => if_neg (Bool.eq_false_iff.1 idle)

theorem comes_popText {t : String} {s : ByteArray} (h : Heap) (below : List Value)
    (valid : String.fromUTF8? s = some t) :
    Comes (Q := Q) outer (op .popText) ⟨h, .string s :: below⟩ t ⟨h, below⟩ := by
  refine .op_pure fun _ => ?_
  have read : Stack.readText (.string s) = .ok t := by rw [Stack.readText, valid]
  exact congrArg (fun x => Pure.pure (x, (⟨h, below⟩ : Stack))) read

theorem comes_popInteger {n : Int64} {v : Value} (h : Heap) (below : List Value)
    (number : v.integer? = some n) :
    Comes (Q := Q) outer (op .popInteger) ⟨h, v :: below⟩ n ⟨h, below⟩ := by
  refine .op_pure fun _ => ?_
  have read : Stack.readInteger v = .ok n := Stack.readInteger_eq_ok.2 number
  exact congrArg (fun x => Pure.pure (x, (⟨h, below⟩ : Stack))) read

theorem encode_number {n : Int64} {base : Heap} {below : List Value}
    (kind : ValueKind.ofValue v = .integer) (number : v.integer? = some n) :
    Comes (Q := Q) outer encode ⟨base, v :: below⟩ (.number n) ⟨base, below⟩ := by
  refine .bind (comes_peekKind base v below) ?_
  rw [kind]
  exact .bind (comes_popInteger base below number) (.pure _ _)

theorem encode_text {base : Heap} {below : List Value} (t : String) :
    Comes (Q := Q) outer encode ⟨base, .ofText t :: below⟩ (.text t) ⟨base, below⟩ := by
  refine .bind (comes_peekKind base _ below) ?_
  rw [ValueKind.ofValue_ofText]
  exact .bind (comes_popText base below (Parcel.fromUTF8?_toUTF8 t)) (.pure _ _)

end Encoding

/-- An operation that runs no machine ends an interpreter's run at once. -/
theorem Interpreter.ends_op {Q : Type} {i : Interpreter Q} {o : StackOp}
    {result : o.Answer} {s : Stack}
    (performs : ∀ {m : Type → Type} [Monad m] (run : Machine → OptionT m Outcome),
      i.stack.perform run i.outermost o = pure (result, s)) : i.Ends (op o) result s :=
  ⟨0, fun _ _ _ => i.evaluate_eq (Surroundings.evaluate_op _ (performs _))⟩

/-- What is told of the value on top of a stack is what popping it shows.

The value is told to be an integer, or a text, exactly if it can be popped as one;
either pop takes it off, and nothing else, also if it fails.  So the value crosses
as it is popped.  A double is told to be an integer exactly if its value is whole
and in the range of integers, and then the integer is its value. -/
theorem kinds_tell_pops {Q : Type} (i : Interpreter Q) {v : Value} {below : List Value}
    (on_top : i.stack.values = v :: below) :
    ∃ kind number text,
      i.Ends (op .peekKind) (.ok kind) i.stack ∧
      i.Ends (op .popInteger) number ⟨i.stack.heap, below⟩ ∧
      i.Ends (op .popText) text ⟨i.stack.heap, below⟩ ∧
      (kind = ValueKind.integer ↔ ∃ n, number = .ok n) ∧
      (kind = ValueKind.text ↔ ∃ t, text = .ok t) ∧
      (∀ n, number = .ok n → i.Ends encode (.ok (.number n)) ⟨i.stack.heap, below⟩) ∧
      (∀ t, text = .ok t → i.Ends encode (.ok (.text t)) ⟨i.stack.heap, below⟩) ∧
      ∀ x, v = .double x →
        (kind = ValueKind.integer ↔ ∃ q : ℚ, x.value? = some q ∧ q.isInt = true ∧
        -2 ^ 63 ≤ q ∧ q < 2 ^ 63) ∧
        ∀ n : Int64, number = .ok n → x.value? = some (n.toInt : ℚ) := by
  obtain ⟨⟨h, values⟩, functions⟩ := i
  cases on_top
  let i : Interpreter Q := ⟨⟨h, v :: below⟩, functions⟩
  have peeks : i.Ends (op .peekKind) (.ok (ValueKind.ofValue v)) i.stack :=
    Interpreter.ends_op fun _ => rfl
  have popsInteger : i.Ends (op .popInteger) (Stack.readInteger v) ⟨h, below⟩ :=
    Interpreter.ends_op fun _ => rfl
  have popsText : i.Ends (op .popText) (Stack.readText v) ⟨h, below⟩ :=
    Interpreter.ends_op fun _ => rfl
  refine ⟨_, _, _, peeks, popsInteger, popsText, ValueKind.ofValue_eq_integer_iff,
    ValueKind.ofValue_eq_text_iff, ?_, ?_, ?_⟩
  · intro n popped
    have kind := ValueKind.ofValue_eq_integer_iff.2 ⟨n, popped⟩
    exact (encode_number kind (Stack.readInteger_eq_ok.1 popped)).run
  · intro t popped
    obtain rfl := Stack.readText_eq_ok.1 popped
    exact (encode_text t).run
  · rintro x rfl
    refine ⟨ValueKind.ofValue_double_eq_integer, fun n popped => ?_⟩
    exact Value.exactInteger?_eq_some.1 (Stack.readInteger_eq_ok.1 popped)

theorem value?_least : (⟨0xC3E0000000000000⟩ : Double).value? = some (-2 ^ 63) := by
  rw [Double.value?_of_finite (by decide),
    (by decide : (⟨0xC3E0000000000000⟩ : Double).signedMantissa = -2 ^ 52),
    (by decide : (⟨0xC3E0000000000000⟩ : Double).exponent = 11)]
  norm_num

theorem least_double_pops : ∃ i : Interpreter Empty,
    i.stack.values = [.double ⟨0xC3E0000000000000⟩] ∧
    i.Ends (op .popInteger) (.ok Int64.minValue) ⟨i.stack.heap, []⟩ ∧
    i.Ends encode (.ok (.number Int64.minValue)) ⟨i.stack.heap, []⟩ := by
  let i : Interpreter Empty := ⟨⟨{}, [.double ⟨0xC3E0000000000000⟩]⟩, []⟩
  obtain ⟨kind, number, text, -, pops, -, told, -, encodes, -, doubles⟩ := kinds_tell_pops i rfl
  obtain ⟨range, same⟩ := doubles _ rfl
  obtain ⟨n, rfl⟩ := told.1 (range.2 ⟨_, value?_least, by decide, by norm_num, by norm_num⟩)
  have least : n = Int64.minValue := by
    have value := (same n rfl).symm.trans value?_least
    apply Int64.toInt_inj.1
    exact_mod_cast Option.some_inj.1 value
  rw [least] at pops encodes
  exact ⟨i, rfl, pops, encodes _ rfl⟩

end SealedLua
