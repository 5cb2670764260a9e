import SealedLua.Lua.Library.Format
import SealedLua.Proofs.Lua.Data

/-!
# Data as text

The text of a data value is printable ASCII.  A string has its control
characters, its quotes and backslashes and all bytes beyond ASCII as decimal
codes of three digits, so a digit may follow.  The entries of a table stand in
the order of their texts, which says nothing of the order they had in a heap.
-/

namespace SealedLua.Lua

namespace Quoting

def escapes (c : UInt8) : Bool := Ascii.isControl c || c == 34 || c == 92 || 128 ≤ c

def digits (c : UInt8) : List UInt8 :=
  [Ascii.digit (c.toNat / 100), Ascii.digit (c.toNat / 10 % 10), Ascii.digit (c.toNat % 10)]

def byte (c : UInt8) : List UInt8 := if escapes c then 92 :: digits c else [c]

/-- A string between quotes. -/
def text (s : List UInt8) : List UInt8 := 34 :: (s.flatMap byte ++ [34])

end Quoting

namespace Data

def joined : List (List UInt8) → List UInt8
  | [] => []
  | [t] => t
  | t :: rest => t ++ 44 :: joined rest

def sorted (texts : List (List UInt8)) : List (List UInt8) :=
  texts.mergeSort fun s t => decide (s ≤ t)

mutual

def render : Data → List UInt8
  | .nil => ascii "nil"
  | .boolean b => ascii (if b then "true" else "false")
  | .integer n => Format.integerLiteral n
  | .double x => Format.doubleLiteral x
  | .string s => Quoting.text (codes s)
  | .table entries => 123 :: (joined (sorted (renderAll entries)) ++ [125])

def renderAll : List (Data × Data) → List (List UInt8)
  | [] => []
  | e :: rest => renderEntry e :: renderAll rest

def renderEntry : Data × Data → List UInt8
  | (k, v) => 91 :: (k.render ++ 93 :: 61 :: v.render)

end

theorem renderAll_eq_map (entries : List (Data × Data)) :
    renderAll entries = entries.map renderEntry := by
  induction entries with
  | nil => rfl
  | cons e rest ih => rw [renderAll, ih, List.map_cons]

theorem sorted_perm (texts : List (List UInt8)) : (sorted texts).Perm texts :=
  List.mergeSort_perm _ _

end Data

/-- Text of printable ASCII. -/
def Printable (text : List UInt8) : Prop := ∀ c ∈ text, 32 ≤ c ∧ c ≤ 126

namespace Printable

variable {s t : List UInt8} {c : UInt8}

theorem nil : Printable [] := fun _ mem => absurd mem List.not_mem_nil

theorem cons (here : 32 ≤ c ∧ c ≤ 126) (rest : Printable t) : Printable (c :: t) := by
  intro d mem
  rcases List.mem_cons.1 mem with rfl | mem
  · exact here
  · exact rest d mem

theorem append (first : Printable s) (second : Printable t) : Printable (s ++ t) := by
  intro d mem
  rcases List.mem_append.1 mem with mem | mem
  · exact first d mem
  · exact second d mem

-- Bytes are not gone through one by one: only those of the text are.
instance (text : List UInt8) : Decidable (Printable text) :=
  List.decidableBAll (fun c => 32 ≤ c ∧ c ≤ 126) text

theorem digit {n : Nat} (h : n < 36) : 32 ≤ Ascii.digit n ∧ Ascii.digit n ≤ 126 := by
  revert n
  decide

theorem numeral {base : Nat} (n : Nat) (two : 2 ≤ base) (few : base ≤ 36) :
    Printable (Ascii.numeral base n) := by
  fun_induction Ascii.numeral base n with
  | case1 n small => exact cons (digit (by omega)) nil
  | case2 n large ih =>
    exact append ih (cons (digit (Nat.lt_of_lt_of_le (Nat.mod_lt _ (by omega)) few)) nil)

theorem sublist (all : Printable t) (part : s.Sublist t) : Printable s :=
  fun c mem => all c (part.subset mem)

theorem replicate (n : Nat) (here : 32 ≤ c ∧ c ≤ 126) : Printable (List.replicate n c) := by
  intro d mem
  rw [(List.mem_replicate.1 mem).2]
  exact here

theorem byte (c : UInt8) : Printable (Quoting.byte c) := by
  unfold Quoting.byte
  split
  · have small : c.toNat < 256 := c.toNat_lt
    exact cons (by decide) (cons (digit (by omega))
      (cons (digit (by omega)) (cons (digit (by omega)) nil)))
  · next plain =>
    simp only [Quoting.escapes, Ascii.isControl, Bool.or_eq_true, not_or,
      decide_eq_true_eq, beq_iff_eq, UInt8.not_lt, UInt8.not_le] at plain
    obtain ⟨⟨⟨⟨low, delete⟩, -⟩, -⟩, high⟩ := plain
    refine cons ⟨low, ?_⟩ nil
    rw [UInt8.le_iff_toNat_le]
    rw [UInt8.lt_iff_toNat_lt] at high
    have ne : c.toNat ≠ 127 := fun eq => delete (UInt8.toNat_inj.1 eq)
    have bound : c.toNat < 128 := high
    have goal : (126 : UInt8).toNat = 126 := rfl
    omega

theorem quoted (s : List UInt8) : Printable (Quoting.text s) := by
  refine cons (by decide) (append (fun c mem => ?_) (by decide))
  obtain ⟨d, -, mem⟩ := List.mem_flatMap.1 mem
  exact byte d c mem

theorem integerLiteral (n : Int64) : Printable (Format.integerLiteral n) := by
  unfold Format.integerLiteral Ascii.decimal
  split
  · decide
  · refine append ?_ (numeral _ (by omega) (by omega))
    split <;> decide

theorem hexadecimal (x : Double) : Printable (x.hexadecimal none false) := by
  have lead : (if x.exponentField = 0 then 0 else 1) < 36 := by split <;> omega
  have sign : ∀ power : Int, 32 ≤ (if power < 0 then 45 else 43 : UInt8) ∧
      (if power < 0 then 45 else 43 : UInt8) ≤ 126 := by
    intro power
    split <;> decide
  have fraction : ∀ digits : List UInt8, Printable digits →
      Printable (if digits.isEmpty && !false then [] else 46 :: digits) := by
    intro digits all
    split
    · exact nil
    · exact cons (by decide) all
  unfold Double.hexadecimal
  simp only
  refine append (append (append (by decide) (cons (digit lead) nil)) (fraction _ ?_))
    (cons (by decide) (cons (sign _) (numeral _ (by omega) (by omega))))
  refine sublist (t := List.replicate (13 - (Ascii.numeral 16 x.fraction).length) 48 ++
    Ascii.numeral 16 x.fraction) ?_ ?_
  · exact append (replicate _ (by decide)) (numeral _ (by omega) (by omega))
  · rw [← List.reverse_sublist, List.reverse_reverse]
    exact List.dropWhile_sublist _

theorem doubleLiteral (x : Double) : Printable (Format.doubleLiteral x) := by
  unfold Format.doubleLiteral
  split
  · decide
  split
  · split <;> decide
  · next number finite =>
    simp only [Double.signed, number, finite, if_false, Bool.false_eq_true]
    refine append ?_ (hexadecimal x)
    split <;> decide

theorem joined {texts : List (List UInt8)} (all : ∀ t ∈ texts, Printable t) :
    Printable (Data.joined texts) := by
  fun_induction Data.joined texts with
  | case1 => exact nil
  | case2 t => exact all t List.mem_cons_self
  | case3 t rest _ ih =>
    exact append (all t List.mem_cons_self)
      (cons (by decide) (ih fun s mem => all s (List.mem_cons_of_mem _ mem)))

end Printable

namespace Data

mutual

theorem printable_render : ∀ d : Data, Printable d.render
  | .nil => by decide
  | .boolean true => by decide
  | .boolean false => by decide
  | .integer n => .integerLiteral n
  | .double x => .doubleLiteral x
  | .string s => .quoted (codes s)
  | .table entries => by
    refine .cons (by decide) (.append (.joined fun t mem => ?_) (by decide))
    exact printable_renderAll entries t ((sorted_perm _).mem_iff.1 mem)

theorem printable_renderAll : ∀ (entries : List (Data × Data)), ∀ t ∈ renderAll entries, Printable t
  | [], _, mem => absurd mem List.not_mem_nil
  | e :: rest, t, mem => by
    rcases List.mem_cons.1 mem with rfl | mem
    · exact printable_renderEntry e
    · exact printable_renderAll rest t mem

theorem printable_renderEntry : ∀ e : Data × Data, Printable (renderEntry e)
  | (k, v) =>
    .cons (by decide)
      (.append (printable_render k) (.cons (by decide) (.cons (by decide) (printable_render v))))

end

end Data
end SealedLua.Lua
