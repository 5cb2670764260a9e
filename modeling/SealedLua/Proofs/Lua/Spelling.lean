import SealedLua.Proofs.Lua.Lexing
import Mathlib.Data.List.Forall2

/-!
# Data in the order of its text

Rendering sorts the entries of a table by their texts.  With the entries of a
data value put into that order beforehand, its text is written, and split into
tokens again, entry by entry.  What a script value says does not depend on the
order.
-/

namespace SealedLua.Lua

namespace Data

mutual

/-- The text of a data value, with its entries as they stand. -/
def write : Data → List UInt8
  | .table entries => 123 :: (joined (writeAll entries) ++ [125])
  | d => d.render

def writeAll : List (Data × Data) → List (List UInt8)
  | [] => []
  | e :: rest => writeEntry e :: writeAll rest

def writeEntry : Data × Data → List UInt8
  | (k, v) => 91 :: (k.write ++ 93 :: 61 :: v.write)

end

theorem writeAll_eq_map (entries : List (Data × Data)) :
    writeAll entries = entries.map writeEntry := by
  induction entries with
  | nil => rfl
  | cons e rest ih => rw [writeAll, ih, List.map_cons]

/-- A number as tokens: its sign stands apart. -/
def signed (negative : Bool) (n : Number) : List Token :=
  if negative then [.sign "-", .number n] else [.number n]

def integerTokens (n : Int64) : List Token :=
  if n = Int64.minValue then [.number (.integer n)]
    else signed (n.toInt < 0) (.integer (Int64.ofNat n.toInt.natAbs))

def doubleTokens (x : Double) : List Token :=
  if x.isNaN then [.sign "(", .number (.integer 0), .sign "/", .number (.integer 0), .sign ")"]
  else signed x.negative (.double (.ofFields false x.magnitude))

def commas : List (List Token) → List Token
  | [] => []
  | [ts] => ts
  | ts :: rest => ts ++ .sign "," :: commas rest

mutual

def tokens : Data → List Token
  | .nil => [.word "nil"]
  | .boolean b => [.word (if b then "true" else "false")]
  | .integer n => integerTokens n
  | .double x => doubleTokens x
  | .string s => [.string s]
  | .table entries => .sign "\x7b" :: (commas (tokensAll entries) ++ [.sign "\x7d"])

def tokensAll : List (Data × Data) → List (List Token)
  | [] => []
  | e :: rest => entryTokens e :: tokensAll rest

def entryTokens : Data × Data → List Token
  | (k, v) => .sign "[" :: (k.tokens ++ .sign "]" :: .sign "=" :: v.tokens)

end

def inOrder (entries : List (Data × Data)) : List (Data × Data) :=
  entries.mergeSort fun e f => decide (writeEntry e ≤ writeEntry f)

mutual

/-- A data value with the entries of its tables in the order of their texts. -/
def ordered : Data → Data
  | .table entries => .table (inOrder (orderedAll entries))
  | d => d

def orderedAll : List (Data × Data) → List (Data × Data)
  | [] => []
  | e :: rest => orderedEntry e :: orderedAll rest

def orderedEntry : Data × Data → Data × Data
  | (k, v) => (k.ordered, v.ordered)

end

theorem inOrder_perm (entries : List (Data × Data)) : (inOrder entries).Perm entries :=
  List.mergeSort_perm _ _

theorem map_inOrder (entries : List (Data × Data)) :
    (inOrder entries).map writeEntry = sorted (entries.map writeEntry) :=
  List.map_mergeSort fun _ _ _ _ => rfl

mutual

theorem write_ordered : ∀ d : Data, d.ordered.write = d.render
  | .table entries => by
    rw [ordered, write, writeAll_eq_map, map_inOrder, ← writeAll_eq_map,
      writeAll_orderedAll, render]
  | .nil | .boolean _ | .integer _ | .double _ | .string _ => rfl

theorem writeAll_orderedAll : ∀ entries, writeAll (orderedAll entries) = renderAll entries
  | [] => rfl
  | e :: rest => by
    rw [orderedAll, writeAll, writeEntry_orderedEntry e, writeAll_orderedAll rest, renderAll]

theorem writeEntry_orderedEntry : ∀ e, writeEntry (orderedEntry e) = renderEntry e
  | (k, v) => by rw [orderedEntry, writeEntry, write_ordered k, write_ordered v, renderEntry]

end

end Data

def Means (h : Heap) (s : Value × Value) (e : Data × Data) : Prop :=
  Represents h s.1 e.1 ∧ Represents h s.2 e.2

variable {h : Heap}

theorem Represents.table_iff {v : Value} {entries : List (Data × Data)} :
    Represents h v (.table entries) ↔ ∃ id t slots, v = .table id ∧ h.tables[id]? = some t ∧
      t.metatable = none ∧
      t.live.Perm slots ∧ List.Forall₂ (Means h) slots entries := by
  constructor
  · rintro (_ | _ | _ | _ | _ | ⟨pairs, stored, plain, all, keys, items⟩)
    refine ⟨_, _, _, rfl, stored, plain, all, ?_⟩
    rw [List.forall₂_map_left_iff, List.forall₂_map_right_iff, List.forall₂_same]
    exact fun p mem => ⟨keys p mem, items p mem⟩
  · rintro ⟨id, t, slots, rfl, stored, plain, all, means⟩
    have beside := List.forall₂_iff_zip.1 means
    have firsts : (slots.zip entries).map (·.1) = slots := List.map_fst_zip (Nat.le_of_eq beside.1)
    have seconds : (slots.zip entries).map (·.2) = entries :=
      List.map_snd_zip (Nat.le_of_eq beside.1.symm)
    rw [← seconds]
    exact .table (slots.zip entries) stored plain (by rwa [firsts]) (fun p mem => (beside.2 mem).1)
      fun p mem => (beside.2 mem).2

theorem Represents.table_of_perm {v : Value} {entries entries' : List (Data × Data)}
    (perm : entries.Perm entries')
    (r : Represents h v (.table entries)) : Represents h v (.table entries') := by
  obtain ⟨id, t, slots, rfl, stored, plain, all, means⟩ := table_iff.1 r
  obtain ⟨slots', means', perm'⟩ := List.perm_comp_forall₂ perm.symm means.flip
  exact table_iff.2 ⟨id, t, slots', rfl, stored, plain, all.trans perm'.symm, means'.flip⟩

namespace Data

mutual

theorem represents_ordered : ∀ (d : Data) (v : Value), Represents h v d.ordered ↔ Represents h v d
  | .table entries, v => by
    have back : Represents h v (.table (inOrder (orderedAll entries))) ↔
        Represents h v (.table (orderedAll entries)) :=
      ⟨.table_of_perm (inOrder_perm _), .table_of_perm (inOrder_perm _).symm⟩
    rw [ordered, back, Represents.table_iff, Represents.table_iff]
    simp only [means_orderedAll entries]
  | .nil, _ | .boolean _, _ | .integer _, _ | .double _, _ | .string _, _ => .rfl

theorem means_orderedAll : ∀ (entries : List (Data × Data)) (slots : List (Value × Value)),
    List.Forall₂ (Means h) slots (orderedAll entries) ↔ List.Forall₂ (Means h) slots entries
  | [], _ => .rfl
  | e :: rest, slots => by
    rw [orderedAll, List.forall₂_cons_right_iff, List.forall₂_cons_right_iff]
    simp only [means_orderedEntry e, means_orderedAll rest]

theorem means_orderedEntry : ∀ (e : Data × Data) (s : Value × Value),
    Means h s (orderedEntry e) ↔ Means h s e
  | (k, v), s => and_congr (represents_ordered k s.1) (represents_ordered v s.2)

end

open Lexer Ascii

variable {rest : List UInt8}

theorem doubleLiteral_eq (x : Double) : Format.doubleLiteral x = if x.isNaN then ascii "(0/0)"
    else (if x.negative then [45] else []) ++ if x.isInfinite then ascii "1e9999"
      else x.hexadecimal none false := by
  unfold Format.doubleLiteral Double.signed
  by_cases nan : x.isNaN = true
  · rw [if_pos nan, if_pos nan]
  rw [if_neg nan, if_neg nan, if_neg nan]
  by_cases infinite : x.isInfinite = true
  · rw [if_pos infinite, if_pos infinite]
    split <;> rfl
  · rw [if_neg infinite, if_neg infinite, if_neg infinite]

theorem exists_numeral (n : Nat) : ∃ v cs, numeral 10 n = digit v :: cs ∧ v < 10 := by
  obtain ⟨vs, eq, digits, nonempty, -⟩ := exists_digits (by decide : 2 ≤ 10) n
  obtain ⟨v, vs, rfl⟩ := List.exists_cons_of_ne_nil nonempty
  exact ⟨v, _, eq, digits.below v List.mem_cons_self⟩

theorem exists_magnitude (x : Double) :
    ∃ v cs, (if x.isInfinite then ascii "1e9999" else x.hexadecimal none false) =
      digit v :: cs ∧ v < 10 := by
  split
  · exact ⟨1, _, rfl, by decide⟩
  · obtain ⟨vs, s, eq, -⟩ := x.exists_exactText
    exact ⟨0, _, eq, by decide⟩

theorem exists_signed {text : List UInt8} (negative : Bool)
    (digit : ∃ v cs, text = Ascii.digit v :: cs ∧ v < 10) :
    ∃ c cs, (if negative then [45] else []) ++ text = c :: cs ∧ c ≠ 91 ∧ c ≠ 61 := by
  have all : ∀ v < 10, Ascii.digit v ≠ 91 ∧ Ascii.digit v ≠ 61 := by decide
  obtain ⟨v, cs, rfl, small⟩ := digit
  cases negative with
  | true => exact ⟨45, _, rfl, by decide, by decide⟩
  | false => exact ⟨_, _, rfl, all v small⟩

theorem exists_write (d : Data) : ∃ c cs, d.write = c :: cs ∧ c ≠ 91 ∧ c ≠ 61 := by
  cases d with
  | nil => exact ⟨110, _, rfl, by decide, by decide⟩
  | boolean b => cases b <;> exact ⟨_, _, rfl, by decide, by decide⟩
  | integer n =>
    have shown : (integer n).write = Format.integerLiteral n := rfl
    rw [shown, Format.integerLiteral]
    split
    · exact ⟨48, _, rfl, by decide, by decide⟩
    · have start := exists_signed (n.toInt < 0) (exists_numeral n.toInt.natAbs)
      simpa only [decimal, decide_eq_true_eq] using start
  | double x =>
    have shown : (double x).write = Format.doubleLiteral x := rfl
    rw [shown, doubleLiteral_eq]
    split
    · exact ⟨40, _, rfl, by decide, by decide⟩
    · exact exists_signed x.negative (exists_magnitude x)
  | string s => exact ⟨34, _, rfl, by decide, by decide⟩
  | table entries => exact ⟨123, _, rfl, by decide, by decide⟩

theorem lexes_signed {text : List UInt8} {n : Number} (negative : Bool)
    (number : Lexes (text ++ rest) [.number n] rest)
    (digit : ∃ v cs, text = Ascii.digit v :: cs ∧ v < 10) :
    Lexes ((if negative then [45] else []) ++ text ++ rest) (signed negative n) rest := by
  cases negative with
  | false => exact number
  | true =>
    have all : ∀ v < 10, Ascii.digit v ≠ 45 := by decide
    obtain ⟨v, cs, rfl, small⟩ := digit
    refine .cons (.sign rfl (fun _ same => ?_) (fun bracket => nomatch bracket) rfl) number
    exact all v small (Option.some.inj same)

theorem lexes_integer (n : Int64) (ends : Ends rest) :
    Lexes (Format.integerLiteral n ++ rest) (integerTokens n) rest := by
  unfold Format.integerLiteral integerTokens
  split
  · next least =>
    rw [least]
    refine .number rfl (readNumeral_least ends) ?_
    exact Nat.le_trans (Nat.le_add_left _ _) (Nat.le_of_eq List.length_append.symm)
  · next other =>
    have fits : n.toInt.natAbs < 2 ^ 63 := by
      have low := n.minValue_le_toInt
      have high := n.toInt_lt
      have least : n.toInt ≠ Int64.minValue.toInt := fun same => other (Int64.toInt_inj.1 same)
      have bound : Int64.minValue.toInt = -2 ^ 63 := rfl
      omega
    have parts := lexes_signed (n.toInt < 0) (.natural fits ends) (exists_numeral n.toInt.natAbs)
    simpa only [decimal, decide_eq_true_eq] using parts

theorem lexes_double (x : Double) (ends : Ends rest) : Lexes (Format.doubleLiteral x ++ rest)
    (doubleTokens x) rest := by
  rw [doubleLiteral_eq, doubleTokens]
  by_cases nan : x.isNaN = true
  · rw [if_pos nan, if_pos nan]
    have zero : ∀ rest, Ends rest → Lexes (48 :: rest) [.number (.integer 0)] rest := by
      intro rest ends
      have digit : numeral 10 0 = [48] := by
        rw [numeral, if_pos (.inl (by decide))]
        rfl
      have read := Lexes.natural (n := 0) (by decide) ends
      rwa [digit] at read
    exact .cons (.plainSign rfl rfl) (.cons (zero _ (.cons (by decide) _))
      (.cons (.plainSign rfl rfl)
      (.cons (zero _ (.cons (by decide) _)) (.plainSign rfl rfl))))
  rw [if_neg nan, if_neg nan]
  refine lexes_signed x.negative ?_ (exists_magnitude x)
  split
  · next infinite =>
    have magnitude : x.magnitude = 2047 * 2 ^ 52 := by
      simp only [Double.isInfinite, Bool.and_eq_true, beq_iff_eq] at infinite
      rw [x.magnitude_eq, infinite.1, infinite.2]
    rw [magnitude]
    refine .number rfl (readNumeral_infinity ends) ?_
    exact Nat.le_trans (Nat.le_add_left _ _) (Nat.le_of_eq List.length_append.symm)
  · next infinite =>
    refine .exact x ?_ ends
    simp only [Double.isNaN, Double.isInfinite, Bool.and_eq_true, beq_iff_eq, bne_iff_ne, not_and,
      not_not] at nan infinite
    rw [Double.isFinite, bne_iff_ne]
    exact fun top => infinite top (nan top)

mutual

theorem lexes_write : ∀ (d : Data) {rest : List UInt8}, Ends rest →
    Lexes (d.write ++ rest) d.tokens rest
  | .nil, rest, ends => .word ends rfl (by decide)
  | .boolean true, rest, ends => .word ends rfl (by decide)
  | .boolean false, rest, ends => .word ends rfl (by decide)
  | .integer n, rest, ends => lexes_integer n ends
  | .double x, rest, ends => lexes_double x ends
  | .string s, rest, _ => .string s rest
  | .table entries, rest, _ => by
    rw [write, tokens, List.cons_append, List.append_assoc]
    refine .cons (.plainSign rfl rfl) ?_
    exact .append (lexes_writeAll entries rest) (.plainSign rfl rfl)

theorem lexes_writeAll : ∀ (entries : List (Data × Data)) (rest : List UInt8),
    Lexes (joined (writeAll entries) ++ 125 :: rest) (commas (tokensAll entries)) (125 :: rest)
  | [], rest => .nil _
  | [e], rest => lexes_writeEntry e (.cons (by decide) rest)
  | e :: f :: more, rest => by
    have split : joined (writeAll (e :: f :: more)) ++ 125 :: rest =
        writeEntry e ++ 44 :: (joined (writeAll (f :: more)) ++ 125 :: rest) := by
      simp [writeAll, joined]
    rw [split]
    have comma : Lexes (44 :: (joined (writeAll (f :: more)) ++ 125 :: rest)) [.sign ","]
        (joined (writeAll (f :: more)) ++ 125 :: rest) :=
      .plainSign rfl rfl
    exact .append (lexes_writeEntry e (.cons (by decide) _))
      (.cons comma (lexes_writeAll (f :: more) rest))

theorem lexes_writeEntry : ∀ (e : Data × Data) {rest : List UInt8}, Ends rest →
    Lexes (writeEntry e ++ rest) (entryTokens e) rest
  | (k, v), rest, ends => by
    obtain ⟨c, cs, key, no_bracket, no_equals⟩ := exists_write k
    obtain ⟨d, ds, item, -, apart⟩ := exists_write v
    have shown : writeEntry (k, v) ++ rest = 91 :: (k.write ++ 93 :: 61 :: (v.write ++ rest)) := by
      simp [writeEntry]
    rw [shown]
    have opening : Lexes (91 :: (k.write ++ 93 :: 61 :: (v.write ++ rest))) [.sign "["]
        (k.write ++ 93 :: 61 :: (v.write ++ rest)) := by
      refine .sign rfl (fun dash => nomatch dash) (fun _ => ?_) rfl
      rw [key]
      exact ⟨fun same => no_bracket (Option.some.inj same), fun same =>
        no_equals (Option.some.inj same)⟩
    have closing : Lexes (93 :: 61 :: (v.write ++ rest)) [.sign "]"] (61 :: (v.write ++ rest)) :=
      .plainSign rfl rfl
    have equals : Lexes (61 :: (v.write ++ rest)) [.sign "="] (v.write ++ rest) := by
      refine .plainSign rfl ?_
      rw [item]
      exact takeSign_equals _ apart
    exact .cons opening
      (.append (lexes_write k (.cons (by decide) _))
      (.cons closing (.cons equals (lexes_write v ends))))

end

theorem run_return (d : Data) : Lexer.run (bytes (ascii "return " ++ d.write)) =
    .ok ((.word "return" :: (d.tokens ++ [.finish])).map (·, 1)) := by
  have word : Lexes (ascii "return" ++ 32 :: d.write) [.word "return"] (32 :: d.write) :=
    .word (.cons (by decide) _) rfl (by decide)
  have parts : Lexes (d.write ++ []) d.tokens [] := lexes_write d fun c mem => nomatch mem
  rw [List.append_nil] at parts
  obtain ⟨spare, enough⟩ : ∃ spare, d.write.length = spare + d.tokens.length :=
    ⟨d.write.length - d.tokens.length, by have := parts.size; rw [List.length_nil] at this; omega⟩
  have space : ∀ fuel line, Lexer.tokens (fuel + 1) (32 :: d.write) line =
    Lexer.tokens fuel d.write line := fun _ _ => rfl
  have ended : ∀ fuel line, Lexer.tokens fuel [] line = .ok [(.finish, line)] := by
    intro fuel line
    cases fuel <;> rfl
  have size : (bytes (ascii "return " ++ d.write)).size + 1 = spare + 6 + d.tokens.length + 1 +
      [Token.word "return"].length := by
    rw [size_bytes, List.length_append, enough, List.length_singleton]
    have seven : (ascii "return ").length = 7 := rfl
    omega
  have text : ascii "return " ++ d.write = ascii "return" ++ 32 :: d.write := rfl
  rw [Lexer.run, codes_bytes, size, text, word.read, space, parts.read, ended]
  simp [Except.map]

end Data
end SealedLua.Lua
