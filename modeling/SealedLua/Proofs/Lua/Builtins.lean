import SealedLua.Lua.Library
import SealedLua.Proofs.Lua.Quoting
import SealedLua.Proofs.Lua.Sorting

/-!
# Specifications of built-in functions

What the built-in functions give for arguments of the right types.
-/

namespace SealedLua.Lua.Builtin

variable {c : CallContext} {h : Heap}

theorem run_type (v : Value) : Builtin.type.run [v] c h = .done [.ofAscii v.typeName] h := rfl

theorem run_tostring_nil : Builtin.tostring.run [.nil] c h = .done [.ofAscii "nil"] h := rfl

theorem run_tostring_boolean (b : Bool) :
    Builtin.tostring.run [.boolean b] c h = .done [.ofAscii (if b then "true" else "false")] h :=
  rfl

/-- A text is shown as it is, unless texts have a metamethod for it. -/
theorem display_text {s : ByteArray}
    (silent : h.metamethod (.string s) (eventKey "tostring") = .nil) :
    Native.display (.string s) c h = .done s h := by
  have asked : ∀ f : Value → Native ByteArray,
      (Action.gets (·.metamethod (.string s) (eventKey "tostring")) >>= f : Native ByteArray) c h =
        f .nil c h := by
    intro f
    rw [← silent]
    rfl
  unfold Native.display
  rw [asked]
  rfl

theorem run_errorText {s : ByteArray}
    (silent : h.metamethod (.string s) (eventKey "tostring") = .nil) :
    Builtin.errorText.run [.string s] c h = .done [.string s] h :=
  congrArg (fun x : Step ByteArray => x.bind fun s h => .done [Value.string s] h)
    (display_text (c := c) silent)

theorem run_print {s : ByteArray} (silent : h.metamethod (.string s) (eventKey "tostring") = .nil) :
    Builtin.print.run [.string s] c h = .done [] ((h.print s).print (bytes [10])) := by
  have text : bytes [] ++ s = s := ByteArray.empty_append
  have each : Base.printEach (bytes []) [.string s] c h =
      (Native.display (.string s) c h).bind fun s h => .done () (h.print (bytes [] ++ s)) := rfl
  have line : Builtin.print.run [.string s] c h =
      (Base.printEach (bytes []) [.string s] c h).bind fun _ h =>
        .done [] (h.print (bytes [10])) := rfl
  rw [line, each, display_text silent, Step.bind, Step.bind, text]

theorem run_format_literal {v : Value} {text : List UInt8}
    (literal : Format.literal? v = some text) :
    Builtin.stringFormat.run [.ofAscii "%q", v] c h = .done [.string (bytes text)] h := by
  have format : Native.stringArg [.ofAscii "%q", v] 1 = pure (bytes (ascii "%q")) := rfl
  have read : codes (bytes (ascii "%q")) = [37, 113] := by
    rw [codes_bytes]
    rfl
  have size : (bytes (ascii "%q")).size = 2 := by
    rw [size_bytes]
    rfl
  have written : Format.write [.ofAscii "%q", v] 3 [37, 113] 1 (bytes []) = (do
      let text ← Format.convert [.ofAscii "%q", v] 2 [] 113
      return bytes [] ++ text) := rfl
  have converted : Format.convert [.ofAscii "%q", v] 2 [] 113 = pure (bytes text) := by
    unfold Format.convert
    simp [Native.arg, Native.given, literal]
  have whole : Format.format [.ofAscii "%q", v] = pure [.string (bytes [] ++ bytes text)] := by
    rw [Format.format, format, pure_bind, read, size, written, converted]
    rfl
  have empty : bytes [] ++ bytes text = bytes text := by simp
  rw [run, whole, empty]
  rfl

theorem numeral_small {n : Nat} (small : n < 10) : Ascii.numeral 10 n = [Ascii.digit n] := by
  rw [Ascii.numeral, if_pos (.inl small)]

theorem numeral_large {n : Nat} (large : 10 ≤ n) :
    Ascii.numeral 10 n = Ascii.numeral 10 (n / 10) ++ [Ascii.digit (n % 10)] := by
  rw [Ascii.numeral, if_neg (by omega)]

theorem padded_digits (b : UInt8) :
    List.replicate (3 - (Ascii.numeral 10 b.toNat).length) 48 ++ Ascii.numeral 10 b.toNat =
      Quoting.digits b := by
  have small : b.toNat < 256 := b.toNat_lt
  have zero : Ascii.digit 0 = 48 := rfl
  by_cases one : b.toNat < 10
  · rw [Quoting.digits, numeral_small one, Nat.div_eq_of_lt (by omega : b.toNat < 100),
      Nat.div_eq_of_lt one, Nat.mod_eq_of_lt one, Nat.zero_mod, zero]
    rfl
  by_cases two : b.toNat < 100
  · rw [Quoting.digits, numeral_large (by omega), numeral_small (by omega), Nat.div_eq_of_lt two,
      Nat.mod_eq_of_lt (by omega : b.toNat / 10 < 10), zero]
    rfl
  · rw [Quoting.digits, numeral_large (by omega), numeral_large (by omega),
      numeral_small (by omega), Nat.div_div_eq_div_mul]
    rfl

theorem run_format_code (b : UInt8) :
    Builtin.stringFormat.run [.string (bytes [92, 37, 48, 51, 100]),
      .integer (Int64.ofNat b.toNat)] c h =
      .done [.string (bytes (92 :: Quoting.digits b))] h := by
  have small : b.toNat < 256 := b.toNat_lt
  have count : (Int64.ofNat b.toNat).toInt = b.toNat := Int64.toInt_ofNat_of_lt (by omega)
  have read : codes (bytes [92, 37, 48, 51, 100]) = [92, 37, 48, 51, 100] := codes_bytes _
  have size : (bytes [92, 37, 48, 51, 100]).size = 5 := by
    rw [size_bytes]
    rfl
  have converted : Format.convert [.string (bytes [92, 37, 48, 51, 100]),
      .integer (Int64.ofNat b.toNat)] 2 [48, 51] 100 =
      pure (bytes (Format.Spec.decimal ⟨[48], 3, none, 100⟩ (Int64.ofNat b.toNat))) := rfl
  have positive : ¬Int64.ofNat b.toNat < 0 := by
    rw [Int64.lt_iff_toInt_lt, count]
    exact Int.not_lt.2 (Int.natCast_nonneg _)
  have code : Format.Spec.decimal ⟨[48], 3, none, 100⟩ (Int64.ofNat b.toNat) =
      Quoting.digits b := by
    have filled : Format.Spec.decimal ⟨[48], 3, none, 100⟩ (Int64.ofNat b.toNat) =
        (if Int64.ofNat b.toNat < 0 then [45] else []) ++
          List.replicate
          (3 - ((if Int64.ofNat b.toNat < 0 then [45] else ([] : List UInt8)).length +
            (Ascii.numeral 10 (Int64.ofNat b.toNat).toInt.natAbs).length)) 48 ++
          Ascii.numeral 10 (Int64.ofNat b.toNat).toInt.natAbs := by
      simp [Format.Spec.decimal, Format.Spec.pad, Format.Spec.sign,
        Format.Spec.digits, Format.Spec.left, Format.Spec.zero, Format.Spec.plus, Format.Spec.space]
    rw [filled, if_neg positive, count, Int.natAbs_natCast, List.length_nil, Nat.zero_add,
      List.nil_append, padded_digits]
  have written : Format.write [.string (bytes [92, 37, 48, 51, 100]),
      .integer (Int64.ofNat b.toNat)] 6
      [92, 37, 48, 51, 100] 1 (bytes []) = (do
      let text ← Format.convert [.string (bytes [92, 37, 48, 51, 100]),
        .integer (Int64.ofNat b.toNat)] 2 [48, 51] 100
      return (bytes []).push 92 ++ text) := rfl
  have whole : (bytes []).push 92 ++ bytes (Quoting.digits b) = bytes (92 :: Quoting.digits b) := by
    apply codes_injective
    rw [codes_append, codes_push, codes_bytes, codes_bytes, codes_bytes]
    rfl
  have format : Native.stringArg [.string (bytes [92, 37, 48, 51, 100]),
      .integer (Int64.ofNat b.toNat)] 1 =
      pure (bytes [92, 37, 48, 51, 100]) := rfl
  rw [run, Format.format, format, pure_bind, read, size, written, converted, code, pure_bind, whole]
  rfl

theorem run_byte (b : UInt8) :
    Builtin.stringByte.run [.string (bytes [b])] c h =
      .done [.integer (Int64.ofNat b.toNat)] h := by
  have unfolded : Builtin.stringByte.run [.string (bytes [b])] c h =
      .done ((codes ((bytes [b]).extract 0 1)).map fun c => .integer (Int64.ofNat c.toNat)) h := rfl
  rw [unfolded, codes_extract, codes_bytes]
  rfl

/-- A table is walked by `next`, unless its metatable has another way. -/
theorem run_pairs {id : TableId} (silent : h.metamethod (.table id) (eventKey "pairs") = .nil) :
    Builtin.pairs.run [.table id] c h = .done [.builtin .next, .table id, .nil] h := by
  have unfolded : Builtin.pairs.run [.table id] c h =
      (if (h.metamethod (.table id) (eventKey "pairs")).isNil then
          return [.builtin .next, .table id, .nil]
        else
          return adjust 3 (← Native.call (h.metamethod (.table id) (eventKey "pairs"))
            [.table id]) : Native (List Value)) c h := rfl
  rw [unfolded, silent]
  rfl

/-- A step of a walk gives the next live entry, or `nil` when there is none. -/
theorem run_next {id : TableId} {t : Table} {k : Value} {rest : List (Value × Value)}
    (stored : h.tables[id]? = some t) (walks : t.Walks h.circumstances.rank k rest) :
    Builtin.next.run [.table id, k] c h = .done (rest.head?.elim [.nil] fun e => [e.1, e.2]) h := by
  have opened : Builtin.next.run [.table id, k] = Base.next [.table id, k] := rfl
  have found_id : Native.tableArg [.table id, k] 1 = pure id := rfl
  have here : ∀ (x : Option (Option (Value × Value))) (f : _ → Native (List Value)),
      h.entryAfter? id k = x →
      ((Action.gets (·.entryAfter? id k) : Native _) >>= f) c h = f x c h := by
    rintro _ f rfl
    rfl
  have second : Native.arg [.table id, k] 2 = k := rfl
  have found : h.entryAfter? id k = some rest.head? := by
    rw [Heap.entryAfter?, Heap.table_eq stored, walks.entryAfter?]
  rw [opened, Base.next, found_id, pure_bind, second, here _ _ found]
  cases rest <;> rfl

section Lists

variable {id : TableId} {texts : List (List UInt8)}

open Sorting

theorem join_eq (l : h.Lists id (strings texts)) (small : texts.length < 2 ^ 62) {i m : Nat}
    (rest : i + m + 1 = texts.length) (text : ByteArray) :
    Tables.join (.table id) (bytes [44]) m ((i + 1 : Nat) : Int) text c h =
      .done (text ++ bytes (Data.joined (texts.drop i))) h := by
  have here : i < texts.length := by omega
  have read : Tables.get (.table id) ((i + 1 : Nat) : Int) c h =
      .done (.string (bytes texts[i])) h := by
    have got := l.get_done (c := c) (i := i) (by rw [strings, List.length_map]; exact here)
      (by rw [arrayLimit]; omega)
    rwa [getElem_strings] at got
  induction m generalizing i text with
  | zero =>
    have last : texts.drop i = [texts[i]] := by
      rw [List.drop_eq_getElem_cons here, List.drop_eq_nil_of_le (by omega)]
    rw [Tables.join, last]
    change (Tables.get (.table id) ((i + 1 : Nat) : Int) c h).bind _ = _
    rw [read]
    rfl
  | succ m ih =>
    have next : i + 1 < texts.length := by omega
    have joined : Data.joined (texts.drop i) = texts[i] ++
        44 :: Data.joined (texts.drop (i + 1)) := by
      rw [List.drop_eq_getElem_cons here, List.drop_eq_getElem_cons next, Data.joined]
      exact List.cons_ne_nil _ _
    have rest := ih (i := i + 1) (by omega) (text ++ bytes texts[i] ++ bytes [44]) next
      (by have got := l.get_done (c := c) (i :=
          i + 1) (by rw [length_strings]; exact next) (by rw [arrayLimit]; omega)
          rwa [getElem_strings] at got)
    rw [Tables.join, joined]
    change (Tables.get (.table id) ((i + 1 : Nat) : Int) c h).bind _ = _
    rw [read]
    refine rest.trans ?_
    rw [bytes_append, show 44 :: Data.joined (texts.drop (i + 1)) = [44] ++
      Data.joined (texts.drop (i + 1)) from rfl, bytes_append,
      ByteArray.append_assoc, ByteArray.append_assoc]

theorem run_concat (l : h.Lists id (strings texts)) (small : texts.length < 2 ^ 62) :
    Builtin.tableConcat.run [.table id, .string (bytes [44])] c h =
      .done [.string (bytes (Data.joined texts))] h := by
  have size := l.size_done (c := c) (by rwa [length_strings])
  rw [length_strings] at size
  have count : (Int64.ofNat texts.length).toInt = texts.length :=
    Table.toInt_ofNat (by rw [arrayLimit]; omega)
  have unfolded : Builtin.tableConcat.run [.table id, .string (bytes [44])] c h =
      (Tables.size (.table id) c h).bind fun last h =>
        (if last < 1 then return [.string (bytes [])]
          else return [.string
            (← Tables.join (.table id) (bytes [44]) (last.toInt - 1).toNat 1 (bytes []))] :
          Native (List Value)) c h := rfl
  rw [unfolded, size, Step.bind]
  cases texts with
  | nil => rfl
  | cons t rest =>
    have enough : ¬Int64.ofNat (t :: rest).length < 1 := by
      rw [Int64.lt_iff_toInt_lt, count]
      exact Int.not_lt.2 (Int.ofNat_le.2 (Nat.succ_pos _))
    have more : ((Int64.ofNat (t :: rest).length).toInt - 1).toNat = rest.length := by
      rw [count, List.length_cons]
      omega
    have joined :=
      join_eq (c := c) l small (i := 0) (m := rest.length)
        (by rw [List.length_cons]; omega) (bytes [])
    rw [List.drop_zero, bytes_nil_append] at joined
    rw [if_neg enough, more]
    exact congrArg (fun x : Step ByteArray => x.bind fun s h => .done [Value.string s] h) joined

theorem run_sort (l : h.Lists id (strings texts)) (few : texts.length < 0x7FFFFFFF) :
    ∃ h', (∀ c, Builtin.tableSort.run [.table id] c h = .done [] h') ∧
      h'.Lists id (strings (Data.sorted texts)) ∧
      Heap.ChangesOnly id h h' := sort_eq l few

theorem run_sort_wide (l : h.Lists id (strings texts)) (small : texts.length < 2 ^ 62)
    (many : 0x7FFFFFFF ≤ texts.length) (c : CallContext) :
    ∃ s, Builtin.tableSort.run [.table id] c h = .raise (.string s) h := sort_wide l small many c

end Lists

end SealedLua.Lua.Builtin
