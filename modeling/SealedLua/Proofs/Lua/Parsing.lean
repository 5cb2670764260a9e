import SealedLua.Lua.Parser
import SealedLua.Proofs.Lua.Spelling

/-!
# The tree of a chunk of data

A chunk that returns data is read as one expression.  The rules follow the
reader's functions; an expression ends before a token that closes something,
whatever strength is asked for, and a budget of four for each token is enough.
-/

namespace SealedLua.Lua

namespace Data

def number (n : Number) : Expr := .literal (.number n)

/-- A double as its text is read: NaN is a quotient, and the negated numeral of
zero is no literal. -/
def doubleTree (x : Double) : Expr :=
  if x.isNaN then .first (.arith .div (number (.integer 0)) (number (.integer 0)) 1)
  else if x.negative && x.isZero then .unary .negate (number (.double (.zero false))) 1
  else number (.double x)

mutual

/-- The expression that the text of a data value is read as. -/
def tree : Data → Expr
  | .nil => .literal .nil
  | .boolean b => .literal (.boolean b)
  | .integer n => number (.integer n)
  | .double x => doubleTree x
  | .string s => .literal (.string s)
  | .table entries => .table (fields entries) 0 (fields entries).length

def fields : List (Data × Data) → List Field
  | [] => []
  | e :: rest => field e :: fields rest

def field : Data × Data → Field
  | (k, v) => .pair k.tree v.tree 1

end

end Data

namespace Parser

def Takes {α : Type} (x : Read α) (s : State) (a : α) (s' : State) : Prop := x s = .ok (a, s')

def here (ts : List Token) (nesting : Nat) : State := ⟨ts.map (·, 1), 1, nesting⟩

def closes (t : Token) : Bool :=
  t == .sign "]" || t == .sign "," || t == .sign "\x7d" || t == .sign ")" || t == .finish

namespace Takes

variable {α β : Type} {x : Read α} {f : α → Read β} {a : α} {b : β} {p q r : State}
  {t u : Token} {ts us : List Token} {nesting : Nat}

theorem pure (a : α) (p : State) : Takes (pure a) p a p := rfl

theorem bind (first : Takes x p a q) (second : Takes (f a) q b r) : Takes (x >>= f) p b r := by
  have opened : (x >>= f) p = (x p).bind fun y => f y.1 y.2 := rfl
  rw [Takes, opened, first]
  exact second

theorem peek : Takes peek (here (t :: ts) nesting) t (here (t :: ts) nesting) := rfl

theorem peekSecond :
    Takes peekSecond (here (t :: u :: ts) nesting) u (here (t :: u :: ts) nesting) := rfl

theorem nextLine : Takes nextLine (here (t :: ts) nesting) 1 (here (t :: ts) nesting) := rfl

theorem advance : Takes advance (here (t :: ts) nesting) () (here ts nesting) := rfl

theorem accept : Takes (accept t) (here (t :: ts) nesting) true (here ts nesting) := by
  unfold Parser.accept
  refine .bind peek ?_
  rw [BEq.rfl]
  exact .bind advance (.pure _ _)

theorem refrain (other : (u == t) = false) :
    Takes (Parser.accept t) (here (u :: ts) nesting) false (here (u :: ts) nesting) := by
  unfold Parser.accept
  refine .bind peek ?_
  rw [other]
  exact .pure _ _

theorem expect : Takes (expect t) (here (t :: ts) nesting) () (here ts nesting) := by
  unfold Parser.expect
  exact .bind accept (.pure _ _)

theorem expectClosing {opening : Token} {line : Nat} :
    Takes (expectClosing t opening line) (here (t :: ts) nesting) () (here ts nesting) := by
  unfold Parser.expectClosing
  exact .bind accept (.pure _ _)

theorem nested (room : nesting + 1 < nestingLimit)
    (inner : Takes x (here ts (nesting + 1)) a (here us (nesting + 1))) :
    Takes (nested x) (here ts nesting) a (here us nesting) := by
  have shallow : ¬(here ts nesting).nesting + 1 ≥ nestingLimit := Nat.not_le.2 room
  unfold Parser.nested
  refine .bind (q := here ts nesting) rfl ?_
  rw [if_neg shallow]
  exact .bind (a := ()) (q := here ts (nesting + 1))
    rfl (.bind inner (.bind (a := ()) (q := here us nesting) rfl (.pure _ _)))

end Takes

section Expressions

variable {s : Scope} {n strength nesting : Nat} {t : Token} {ts us vs : List Token} {e e' : Expr}

theorem takes_operators (ends : closes t = true) (n strength : Nat) (e : Expr) :
    Takes (readOperators s (n + 1) strength e) (here (t :: ts) nesting) e
      (here (t :: ts) nesting) := by
  have no_operator : binaryOp? t = none := by
    simp only [closes, Bool.or_eq_true, beq_iff_eq] at ends
    rcases ends with (((rfl | rfl) | rfl) | rfl) | rfl <;> rfl
  rw [readOperators]
  refine .bind .peek ?_
  rw [no_operator]
  exact .pure _ _

theorem takes_expr (plain : unaryOp? t = none) (room : nesting + 1 < nestingLimit)
    (simple : Takes (readSimple s n) (here (t :: ts) (nesting + 1)) e (here us (nesting + 1)))
    (operators : Takes (readOperators s n strength e) (here us (nesting + 1)) e'
      (here vs (nesting + 1))) :
    Takes (readExpr s (n + 1) strength) (here (t :: ts) nesting) e' (here vs nesting) := by
  rw [readExpr]
  refine .nested room (.bind .peek ?_)
  rw [plain]
  exact .bind simple operators

/-- These tokens are read as an expression within so many levels. -/
def Reads (ts : List Token) (e : Expr) (levels : Nat) : Prop :=
  ∀ (s : Scope) (budget strength nesting : Nat) (t : Token) (rest : List Token), closes t = true →
    4 * ts.length ≤ budget → nesting + levels < nestingLimit →
      Takes (readExpr s budget strength) (here (ts ++ t :: rest) nesting) e
      (here (t :: rest) nesting)

namespace Reads

variable {levels : Nat}

theorem mono {more : Nat} (reads : Reads ts e levels) (le : levels ≤ more) : Reads ts e more :=
  fun s budget strength nesting t rest ends enough room =>
    reads s budget strength nesting t rest ends enough
      (Nat.lt_of_le_of_lt (Nat.add_le_add_left le nesting) room)

theorem takes_number (s : Scope) (n : Nat) (v : Number) :
    Takes (readSimple s (n + 1)) (here (.number v :: ts) nesting)
      (.literal (.number v)) (here ts nesting) := by
  rw [readSimple]
  exact .bind .peek (.bind .advance (.pure _ _))

theorem single (plain : unaryOp? t = none)
    (simple : ∀ s n ts nesting, Takes (readSimple s (n + 1)) (here (t :: ts) nesting) e
      (here ts nesting)) : Reads [t] e 1 := by
  intro s budget strength nesting u rest ends enough room
  obtain ⟨n, rfl⟩ : ∃ n, budget = n + 2 :=
    ⟨budget - 2, by rw [List.length_singleton] at enough; omega⟩
  exact takes_expr plain room (simple s n (u :: rest) (nesting + 1))
    (takes_operators ends n strength e)

theorem literal_number (v : Number) : Reads [.number v] (.literal (.number v)) 1 :=
  single rfl fun s n _ _ => takes_number s n v

theorem literal_string (s : ByteArray) : Reads [.string s] (.literal (.string s)) 1 := by
  refine single rfl fun s n ts nesting => ?_
  rw [readSimple]
  exact .bind .peek (.bind .advance (.pure _ _))

theorem literal_nil : Reads [.word "nil"] (.literal .nil) 1 := by
  refine single rfl fun s n ts nesting => ?_
  rw [readSimple]
  exact .bind .peek (.bind .advance (.pure _ _))

theorem literal_boolean (b : Bool) :
    Reads [.word (if b then "true" else "false")] (.literal (.boolean b)) 1 := by
  cases b <;> refine single rfl fun s n ts nesting => ?_ <;> rw [readSimple] <;>
    exact .bind .peek (.bind .advance (.pure _ _))

theorem negated (n : Number) :
    Reads [.sign "-", .number n] (applyUnary .negate (.literal (.number n)) 1) 2 := by
  intro s budget strength nesting u rest ends enough room
  obtain ⟨m, rfl⟩ : ∃ m, budget = m + 8 := ⟨budget - 8, by simp at enough; omega⟩
  have operand := literal_number n s (m + 7) unaryStrength (nesting + 1) u rest
    ends (by simp) (by omega)
  have op : unaryOp? (.sign "-") = some .negate := rfl
  rw [readExpr]
  refine .nested (by omega) (.bind .peek ?_)
  rw [op]
  exact .bind .nextLine
    (.bind .advance (.bind operand (.bind (.pure _ _) (takes_operators ends _ strength _))))

theorem quotient (m n : Number) : Reads [.sign "(", .number m, .sign "/", .number n, .sign ")"]
    (.first (.arith .div (.literal (.number m)) (.literal (.number n)) 1)) 3 := by
  intro s budget strength nesting u rest ends enough room
  obtain ⟨b, rfl⟩ : ∃ b, budget = b + 20 := ⟨budget - 20, by simp at enough; omega⟩
  have divisor := literal_number n s (b + 14) 11 (nesting + 2) (.sign ")") (u :: rest)
    rfl (by simp) (by omega)
  have op : binaryOp? (.sign "/") = some (.arith .div, 11, 11) := rfl
  have inner : Takes (readExpr s (b + 16) 0)
      (here (.number m :: .sign "/" :: .number n :: .sign ")" :: u :: rest) (nesting + 1))
      (.arith .div (.literal (.number m)) (.literal (.number n)) 1)
      (here (.sign ")" :: u :: rest) (nesting + 1)) := by
    refine takes_expr rfl (by omega) (takes_number s (b + 14) m) ?_
    rw [readOperators]
    refine .bind .peek ?_
    rw [op]
    exact .bind .nextLine (.bind .advance (.bind divisor (takes_operators rfl _ 0 _)))
  have primary : Takes (readPrimary s (b + 17))
      (here (.sign "(" :: .number m :: .sign "/" :: .number n :: .sign ")" :: u :: rest)
        (nesting + 1))
      (.first (.arith .div (.literal (.number m)) (.literal (.number n)) 1))
      (here (u :: rest) (nesting + 1)) := by
    rw [readPrimary]
    exact .bind .peek
      (.bind .nextLine (.bind .advance (.bind inner (.bind .expectClosing (.pure _ _)))))
  have suffixes : ∀ e, Takes (readSuffixes s (b + 17) e) (here (u :: rest) (nesting + 1)) e
      (here (u :: rest) (nesting + 1)) := by
    intro e
    rw [readSuffixes]
    refine .bind .nextLine (.bind .peek ?_)
    simp only [closes, Bool.or_eq_true, beq_iff_eq] at ends
    rcases ends with (((rfl | rfl) | rfl) | rfl) | rfl <;> exact .pure _ _
  have suffixed : Takes (readSuffixed s (b + 18))
      (here (.sign "(" :: .number m :: .sign "/" :: .number n :: .sign ")" :: u :: rest)
        (nesting + 1))
      (.first (.arith .div (.literal (.number m)) (.literal (.number n)) 1))
      (here (u :: rest) (nesting + 1)) := by
    rw [readSuffixed]
    exact .bind primary (suffixes _)
  refine takes_expr rfl (by omega) ?_ (takes_operators ends (b + 18) strength _)
  rw [readSimple]
  exact .bind .peek suffixed

theorem table {fields : List Counted} {levels : Nat} (items : fields.countP (·.isItem) = 0)
    (inner : ∀ s budget nesting rest, 4 * ts.length + 1 ≤ budget → nesting + levels < nestingLimit →
      Takes (readFields s budget) (here (ts ++ .sign "\x7d" :: rest) nesting) fields
        (here (.sign "\x7d" :: rest) nesting)) :
    Reads (.sign "\x7b" :: (ts ++ [.sign "\x7d"])) (.table (fields.map (·.field)) 0 fields.length)
      (levels + 1) := by
  intro s budget strength nesting u rest ends enough room
  obtain ⟨b, rfl⟩ : ∃ b, budget = b + 4 * ts.length + 8 :=
    ⟨budget - (4 * ts.length + 8), by simp at enough; omega⟩
  have shape : constructor fields = .table (fields.map (·.field)) 0 fields.length := by
    unfold constructor
    simp only [items, Nat.sub_zero, Nat.zero_sub, ite_self]
  have text : .sign "\x7b" :: (ts ++ [.sign "\x7d"]) ++ u :: rest = .sign "\x7b" ::
    (ts ++ .sign "\x7d" :: u :: rest) := by simp
  rw [text]
  refine takes_expr rfl (by omega) ?_ (takes_operators ends (b + 4 * ts.length + 6) strength _)
  have whole : Takes (readTable s (b + 4 * ts.length + 6))
      (here (.sign "\x7b" :: (ts ++ .sign "\x7d" :: u :: rest)) (nesting + 1))
      (.table (fields.map (·.field)) 0 fields.length) (here (u :: rest) (nesting + 1)) := by
    rw [readTable, ← shape]
    exact .bind .nextLine
      (.bind .expect
      (.bind (inner s _ _ _ (by omega) (by omega)) (.bind .expectClosing (.pure _ _))))
  rw [readSimple]
  exact .bind .peek whole

end Reads

theorem takes_field {k v : List Token} {key value : Expr} {levels : Nat}
    (reads_key : Reads k key levels) (reads_value : Reads v value levels)
    (enough : 4 * (k.length + v.length) ≤ n) (room : nesting + levels < nestingLimit)
    (ends : closes t = true) :
    Takes (readField s (n + 1))
      (here (.sign "[" :: (k ++ .sign "]" :: .sign "=" :: (v ++ t :: ts))) nesting)
      ⟨.pair key value 1, false⟩ (here (t :: ts) nesting) := by
  have first :=
    reads_key s n 0 nesting (.sign "]") (.sign "=" :: (v ++ t :: ts)) rfl (by omega) room
  have second := reads_value s n 0 nesting t ts ends (by omega) room
  obtain ⟨u, more, eq⟩ : ∃ u more, k ++ .sign "]" :: .sign "=" :: (v ++ t :: ts) = u :: more := by
    cases k with
    | nil => exact ⟨_, _, rfl⟩
    | cons u k => exact ⟨u, _, rfl⟩
  rw [readField]
  rw [eq] at first ⊢
  refine .bind .nextLine (.bind .peek (.bind .peekSecond ?_))
  exact .bind .advance (.bind first (.bind .expect (.bind .expect (.bind second (.pure _ _)))))

theorem takes_noFields :
    Takes (readFields s (n + 1)) (here (.sign "\x7d" :: ts) nesting) []
      (here (.sign "\x7d" :: ts) nesting) := by
  rw [readFields]
  exact .bind .peek (.pure _ _)

variable {field : Counted} {more : List Counted}

theorem takes_lastField (other : (t == .sign "\x7d") = false)
    (first : Takes (readField s n) (here (t :: us) nesting) field
      (here (.sign "\x7d" :: ts) nesting)) :
    Takes (readFields s (n + 1)) (here (t :: us) nesting) [field]
      (here (.sign "\x7d" :: ts) nesting) := by
  rw [readFields]
  refine .bind .peek ?_
  rw [other]
  exact .bind first (.bind (.refrain rfl) (.bind (.refrain rfl) (.pure _ _)))

theorem takes_moreFields (other : (t == .sign "\x7d") = false)
    (first : Takes (readField s n) (here (t :: us) nesting) field
      (here (.sign "," :: .sign "[" :: ts) nesting))
    (rest : Takes (readFields s n) (here (.sign "[" :: ts) nesting) more (here vs nesting)) :
    Takes (readFields s (n + 1)) (here (t :: us) nesting) (field :: more) (here vs nesting) := by
  rw [readFields]
  refine .bind .peek ?_
  rw [other]
  exact .bind first (.bind .accept (.bind (.refrain rfl) (.bind rest (.pure _ _))))

end Expressions

end Parser

namespace Data

open SealedLua.Lua.Parser

theorem reads_signed (negative : Bool) (n : Number) :
    Reads (signed negative n) (if negative then applyUnary .negate (number n) 1
      else number n) 2 := by
  cases negative with
  | false => exact (Reads.literal_number n).mono (by omega)
  | true => exact .negated n

theorem reads_integer (n : Int64) : Reads (integerTokens n) (number (.integer n)) 2 := by
  unfold integerTokens
  split
  · exact (Reads.literal_number _).mono (by omega)
  · have reads := reads_signed (n.toInt < 0) (.integer (Int64.ofNat n.toInt.natAbs))
    by_cases negative : n.toInt < 0
    · have same : -Int64.ofNat n.toInt.natAbs = n := by
        rw [← Int64.ofInt_eq_ofNat, ← Int64.ofInt_neg,
          (by omega : -(n.toInt.natAbs : Int) = n.toInt), Int64.ofInt_toInt]
      have folded : applyUnary .negate (number (.integer (Int64.ofNat n.toInt.natAbs))) 1 =
          number (.integer (-Int64.ofNat n.toInt.natAbs)) := rfl
      rw [decide_eq_true negative] at reads ⊢
      rwa [if_pos rfl, folded, same] at reads
    · have same : Int64.ofNat n.toInt.natAbs = n := by
        rw [← Int64.ofInt_eq_ofNat, (by omega : (n.toInt.natAbs : Int) = n.toInt),
          Int64.ofInt_toInt]
      rw [decide_eq_false negative] at reads ⊢
      rw [if_neg Bool.false_ne_true, same] at reads
      rwa [same]

theorem reads_double (x : Double) : Reads (doubleTokens x) (doubleTree x) 3 := by
  unfold doubleTokens doubleTree
  by_cases nan : x.isNaN = true
  · rw [if_pos nan, if_pos nan]
    exact .quotient _ _
  rw [if_neg nan, if_neg nan]
  have reads :=
    (reads_signed x.negative (.double (.ofFields false x.magnitude))).mono (by omega : 2 ≤ 3)
  have small : x.magnitude < 2 ^ 63 := Nat.mod_lt _ (by decide)
  have same := Double.magnitude_ofFields false small
  have whole := x.ofFields_magnitude
  by_cases negative : x.negative = true
  · rw [negative] at whole reads ⊢
    rw [if_pos rfl] at reads
    have folded : applyUnary .negate (number (.double (.ofFields false x.magnitude))) 1 =
        if (Double.ofFields false x.magnitude).isZero ||
            (Double.ofFields false x.magnitude).isNaN then
          .unary .negate (number (.double (.ofFields false x.magnitude))) 1
        else number (.double (Double.ofFields false x.magnitude).neg) := rfl
    rw [folded, Double.isZero_congr same, Double.isNaN_congr same, Bool.of_not_eq_true nan,
      Bool.or_false, Double.neg_ofFields small, whole] at reads
    rw [Bool.true_and]
    by_cases zero : x.isZero = true
    · rw [x.magnitude_of_isZero zero] at reads ⊢
      exact reads
    · rwa [if_neg zero] at reads ⊢
  · rw [Bool.of_not_eq_true negative] at whole reads ⊢
    rw [if_neg Bool.false_ne_true, whole] at reads
    rwa [whole, Bool.false_and, if_neg Bool.false_ne_true]

theorem entryTokens_append (k v : Data) (rest : List Token) : entryTokens (k, v) ++ rest =
    .sign "[" :: (k.tokens ++ .sign "]" :: .sign "=" :: (v.tokens ++ rest)) := by
  simp [entryTokens]

theorem length_entryTokens (k v : Data) :
    (entryTokens (k, v)).length = k.tokens.length + v.tokens.length + 3 := by
  simp [entryTokens]
  omega

/-- Entries after a comma start with a bracket, so no separator is left out or doubled. -/
theorem exists_commas (e : Data × Data) (more : List (Data × Data)) (rest : List Token) :
    ∃ ts, commas (tokensAll (e :: more)) ++ rest = .sign "[" :: ts := by
  obtain ⟨k, v⟩ := e
  cases more with
  | nil => exact ⟨_, entryTokens_append k v rest⟩
  | cons f more =>
    have split : commas (tokensAll ((k, v) :: f :: more)) ++ rest =
        entryTokens (k, v) ++ (.sign "," :: commas (tokensAll (f :: more)) ++ rest) :=
          List.append_assoc ..
    exact ⟨_, split.trans (entryTokens_append k v _)⟩

mutual

theorem reads_tokens : ∀ d : Data, Reads d.tokens d.tree (d.depth + 3)
  | .nil => Reads.literal_nil.mono (by omega)
  | .boolean b => (Reads.literal_boolean b).mono (by omega)
  | .integer n => (reads_integer n).mono (by omega)
  | .double x => (reads_double x).mono (by omega)
  | .string s => (Reads.literal_string s).mono (by omega)
  | .table entries => by
    have inner := takes_fields entries
    have only_pairs : ((fields entries).map fun f => (⟨f, false⟩ : Counted)).countP
        (·.isItem) = 0 := by
      simp [List.countP_map]
    have whole := Reads.table only_pairs inner
    rw [List.map_map, List.length_map] at whole
    have same : (fields entries).map ((·.field) ∘ fun f => (⟨f, false⟩ : Counted)) =
      fields entries := List.map_id _
    rw [same] at whole
    rw [tokens, tree, depth, Nat.add_right_comm]
    exact whole

theorem takes_fields :
    ∀ (entries : List (Data × Data)) (s : Scope) (budget nesting : Nat) (rest : List Token),
    4 * (commas (tokensAll entries)).length + 1 ≤ budget →
      nesting + (depthAll entries + 3) < nestingLimit →
      Takes (readFields s budget)
        (here (commas (tokensAll entries) ++ .sign "\x7d" :: rest) nesting)
        ((fields entries).map (⟨·, false⟩)) (here (.sign "\x7d" :: rest) nesting)
  | [], s, budget, nesting, rest, enough, room => by
    obtain ⟨n, rfl⟩ : ∃ n, budget = n + 1 := ⟨budget - 1, by omega⟩
    exact takes_noFields
  | [(k, v)], s, budget, nesting, rest, enough, room => by
    have one : commas (tokensAll [(k, v)]) = entryTokens (k, v) := rfl
    have deep : depthAll [(k, v)] = max (max k.depth v.depth) 0 := rfl
    rw [one, length_entryTokens] at enough
    obtain ⟨n, rfl⟩ : ∃ n, budget = n + 2 := ⟨budget - 2, by omega⟩
    rw [one, entryTokens_append]
    refine takes_lastField
      rfl (takes_field ((reads_tokens k).mono ?_) ((reads_tokens v).mono ?_) ?_ room rfl) <;> omega
  | (k, v) :: f :: more, s, budget, nesting, rest, enough, room => by
    have split : commas (tokensAll ((k, v) :: f :: more)) = entryTokens (k, v) ++ .sign "," ::
      commas (tokensAll (f :: more)) := rfl
    have deep : depthAll ((k, v) :: f :: more) = max (max k.depth v.depth) (depthAll (f :: more)) :=
      rfl
    rw [split, List.length_append, List.length_cons, length_entryTokens] at enough
    obtain ⟨n, rfl⟩ : ∃ n, budget = n + 2 := ⟨budget - 2, by omega⟩
    have others := takes_fields (f :: more) s (n + 1) nesting rest (by omega) (by omega)
    obtain ⟨ts, start⟩ := exists_commas f more (.sign "\x7d" :: rest)
    rw [split, List.append_assoc, entryTokens_append, List.cons_append, start]
    rw [start] at others
    refine takes_moreFields rfl (takes_field ((reads_tokens k).mono ?_) ((reads_tokens v).mono ?_)
      ?_ room rfl) others <;> omega

end

/-- Data starts with a token that neither ends a block nor a statement. -/
theorem exists_tokens (d : Data) : ∃ t ts, d.tokens = t :: ts ∧ endsBlock t = false ∧
    (t == .sign ";") = false := by
  have sign : ∀ negative n, ∃ t ts, signed negative n = t :: ts ∧ endsBlock t = false ∧
      (t == .sign ";") = false := by
    intro negative n
    cases negative <;> exact ⟨_, _, rfl, rfl, rfl⟩
  cases d with
  | nil => exact ⟨_, _, rfl, rfl, rfl⟩
  | boolean b => cases b <;> exact ⟨_, _, rfl, rfl, rfl⟩
  | integer n =>
    rw [tokens, integerTokens]
    split
    · exact ⟨_, _, rfl, rfl, rfl⟩
    · exact sign _ _
  | double x =>
    rw [tokens, doubleTokens]
    split
    · exact ⟨_, _, rfl, rfl, rfl⟩
    · exact sign _ _
  | string s => exact ⟨_, _, rfl, rfl, rfl⟩
  | table entries => exact ⟨_, _, rfl, rfl, rfl⟩

/-- Data is no call, so returning it leaves the function in the usual way. -/
theorem returned_tree (d : Data) : returned outermost [d.tree] = .ret [d.tree] := by
  cases d with
  | double x =>
    rw [tree, doubleTree]
    split
    · rfl
    · split <;> rfl
  | _ => rfl

theorem takes_return (d : Data) {n : Nat} (enough : 4 * d.tokens.length ≤ n)
    (shallow : d.depth + 4 < nestingLimit) :
    Takes (readReturn outermost (n + 2)) (here (.word "return" :: (d.tokens ++ [.finish])) 1)
      (.ret [d.tree])
      (here [.finish] 1) := by
  have expr := reads_tokens d outermost n 0 1 .finish [] rfl enough (by omega)
  obtain ⟨t, ts, start, goes_on, no_end⟩ := exists_tokens d
  have values : Takes (readExprs outermost (n + 1)) (here (d.tokens ++ [.finish]) 1) [d.tree]
      (here [.finish] 1) := by
    rw [readExprs]
    exact .bind expr (.bind (.refrain rfl) (.pure _ _))
  rw [readReturn, ← returned_tree d]
  rw [start] at values ⊢
  refine .bind .expect (.bind .peek ?_)
  simp only [goes_on, no_end, Bool.or_self, Bool.false_eq_true, if_false]
  exact .bind values (.bind (.refrain rfl) (.pure _ _))

theorem takes_main (d : Data) (n : Nat) (shallow : d.depth + 4 < nestingLimit) :
    Takes (Chunk.read.main (4 * d.tokens.length + n + 5))
      (here (.word "return" :: (d.tokens ++ [.finish])) 0) [.ret [d.tree]]
      (here [.finish] 0) := by
  have returns :=
    Takes.nested (by decide) (takes_return d (Nat.le_add_right (4 * d.tokens.length) n) shallow)
  have stmts : Takes (readStmts outermost (4 * d.tokens.length + n + 3) .plain 0 [])
      (here (.word "return" :: (d.tokens ++ [.finish])) 0) ([.ret [d.tree]], [])
      (here [.finish] 0) := by
    rw [readStmts]
    exact .bind .peek (.bind returns (.bind .peek (.pure _ _)))
  have block : Takes (readBlock outermost (4 * d.tokens.length + n + 4) .plain)
      (here (.word "return" :: (d.tokens ++ [.finish])) 0) ([.ret [d.tree]], [])
      (here [.finish] 0) := by
    rw [readBlock]
    exact .bind stmts (.pure _ _)
  have body : Takes (readBody outermost (4 * d.tokens.length + n + 5))
      (here (.word "return" :: (d.tokens ++ [.finish])) 0) [.ret [d.tree]] (here [.finish] 0) := by
    rw [readBody]
    exact .bind block (.pure _ _)
  unfold Chunk.read.main
  exact .bind body (.bind .peek (.pure _ _))

theorem read_return (d : Data) (shallow : d.depth + 4 < nestingLimit) :
    Chunk.read (bytes (ascii "return " ++ d.write)) = .ok (.mk 0 true [.ret [d.tree]]) := by
  have text : ((bytes (ascii "return " ++ d.write)).data[0]? == some 27) = false := by
    have first : (bytes (ascii "return " ++ d.write)).data[0]? =
        (ascii "return " ++ d.write)[0]? := by
      rw [← Array.getElem?_toList]
      exact congrArg (·[0]?) (codes_bytes (ascii "return " ++ d.write))
    rw [first]
    rfl
  have budget : 16 * ((.word "return" :: (d.tokens ++ [.finish])).map (·, 1)).length + 16 =
      4 * d.tokens.length + (12 * d.tokens.length + 43) + 5 := by
    simp
    omega
  have taken : (Chunk.read.main (4 * d.tokens.length + (12 * d.tokens.length + 43) + 5)).run
      ⟨(.word "return" :: (d.tokens ++ [.finish])).map (·, 1), 1, 0⟩ =
        .ok ([.ret [d.tree]], here [.finish] 0) :=
    takes_main d _ shallow
  rw [Chunk.read, text, if_neg Bool.false_ne_true, run_return]
  simp only [bind, Except.bind, budget, taken]
  rfl

end Data

end SealedLua.Lua
