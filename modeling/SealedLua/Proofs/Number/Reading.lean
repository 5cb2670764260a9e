import SealedLua.Number.Numeral
import SealedLua.Proofs.Number.Exact
import Mathlib.Data.List.Induction

/-!
# Numerals that are read back

The decimal numeral of an integer and the exact hexadecimal form of a finite
double are read as what they were written for.  A numeral is handled through
the values of its digits.
-/

namespace SealedLua

theorem takeWhile_append_of_stop {p : UInt8 → Bool} {text rest : List UInt8}
    (inside : ∀ c ∈ text, p c = true) (outside : ∀ c ∈ rest.head?, p c = false) :
    (text ++ rest).takeWhile p = text ∧ (text ++ rest).dropWhile p = rest := by
  rw [List.takeWhile_append_of_pos inside, List.dropWhile_append_of_pos inside]
  cases rest with
  | nil => exact ⟨List.append_nil _, rfl⟩
  | cons c rest =>
    have stop : ¬p c = true := by rw [outside c rfl]; exact Bool.false_ne_true
    rw [List.takeWhile_cons_of_neg stop, List.dropWhile_cons_of_neg stop, List.append_nil]
    exact ⟨rfl, rfl⟩

namespace Ascii

variable {base n v : Nat}

theorem hexValue?_digit (h : v < 16) : hexValue? (digit v) = some v := by
  revert v
  decide

theorem isDigit_digit (h : v < 10) : isDigit (digit v) = true := by
  revert v
  decide

theorem filterMap_digit {vs : List Nat} (below : ∀ v ∈ vs, v < 16) :
    (vs.map digit).filterMap hexValue? = vs := by
  induction vs with
  | nil => rfl
  | cons v vs ih =>
    rw [List.map_cons, List.filterMap_cons_some (hexValue?_digit (below v List.mem_cons_self)),
      ih fun w mem => below w (List.mem_cons_of_mem _ mem)]

theorem value_append (base : Nat) (vs ws : List Nat) :
    value base (vs ++ ws) = value base vs * base ^ ws.length + value base ws := by
  have shift : ∀ start, ws.foldl (fun n d => n * base + d) start =
      start * base ^ ws.length + value base ws := by
    unfold value
    induction ws with
    | nil => simp
    | cons w ws ih =>
      intro start
      rw [List.foldl_cons, List.foldl_cons, ih (start * base + w), ih (0 * base + w),
        List.length_cons, Nat.pow_succ, Nat.zero_mul, Nat.zero_add, Nat.add_mul, Nat.mul_assoc,
        Nat.mul_comm (base ^ ws.length) base, Nat.add_assoc]
  rw [value, List.foldl_append, shift]
  rfl

theorem value_replicate (base count : Nat) : value base (List.replicate count 0) = 0 := by
  induction count with
  | zero => rfl
  | succ count ih => rw [List.replicate_succ', value_append, ih, Nat.zero_mul]; simp [value]

/-- Digits of a base that have a value, the highest first. -/
structure Digits (base n : Nat) (vs : List Nat) : Prop where
  below : ∀ v ∈ vs, v < base
  value : value base vs = n

/-- A numeral has the digits of its value, and no more than it needs. -/
theorem exists_digits (two : 2 ≤ base) (n : Nat) : ∃ vs, numeral base n = vs.map digit ∧
    Digits base n vs ∧ vs ≠ [] ∧
    ∀ k, 0 < k → n < base ^ k → vs.length ≤ k := by
  fun_induction numeral base n with
  | case1 n small =>
    have lt : n < base := by omega
    refine ⟨[n], rfl, ⟨by simpa using lt, by simp [value]⟩,
      List.cons_ne_nil _ _, fun k pos _ => pos⟩
  | case2 n large ih =>
    obtain ⟨vs, eq, digits, -, short⟩ := ih
    refine ⟨vs ++ [n % base], by rw [eq, List.map_append]; rfl, ⟨?_, ?_⟩, by simp, ?_⟩
    · intro v mem
      rcases List.mem_append.1 mem with mem | mem
      · exact digits.below v mem
      · rw [List.mem_singleton.1 mem]
        exact Nat.mod_lt _ (by omega)
    · rw [value_append, digits.value]
      simpa [value] using Nat.div_add_mod' n base
    · intro k pos lt
      have two_or_more : k ≠ 1 := by
        rintro rfl
        rw [Nat.pow_one] at lt
        omega
      obtain ⟨j, rfl⟩ : ∃ j, k = j + 1 := ⟨k - 1, by omega⟩
      have rest := short j (by omega) (Nat.div_lt_of_lt_mul (by rwa [Nat.mul_comm, ← Nat.pow_succ]))
      rw [List.length_append, List.length_singleton]
      omega

theorem isDigit_of_mem_numeral {c : UInt8} (h : c ∈ numeral 10 n) : isDigit c = true := by
  obtain ⟨vs, eq, digits, -⟩ := exists_digits (by decide : 2 ≤ 10) n
  rw [eq] at h
  obtain ⟨v, mem, rfl⟩ := List.mem_map.1 h
  exact isDigit_digit (digits.below v mem)

theorem numeral_injective {m n : Nat} (h : numeral 10 m = numeral 10 n) : m = n := by
  obtain ⟨vs, eq, digits, -⟩ := exists_digits (by decide : 2 ≤ 10) m
  obtain ⟨ws, eq', digits', -⟩ := exists_digits (by decide : 2 ≤ 10) n
  rw [eq, eq'] at h
  have values := congrArg (List.filterMap hexValue?) h
  rw [filterMap_digit fun v mem => Nat.lt_trans (digits.below v mem) (by decide),
    filterMap_digit fun v mem => Nat.lt_trans (digits'.below v mem) (by decide)] at values
  rw [← digits.value, ← digits'.value, values]

end Ascii

namespace Number

open Ascii

variable {base n v : Nat} {vs : List Nat} {rest : List UInt8}

def Clear (rest : List UInt8) : Prop := ∀ c ∈ rest.head?, hexValue? c = none

theorem clear_nil : Clear [] := fun _ mem => nomatch mem

theorem takeDigits_map (few : base ≤ 16) (below : ∀ v ∈ vs, v < base) (clear : Clear rest) :
    takeDigits base (vs.map digit ++ rest) = (vs, rest) := by
  let inBase : UInt8 → Bool := fun c => (hexValue? c).any fun v => decide (v < base)
  have pieces : ∀ (p : UInt8 → Bool) (text : List UInt8), (∀ c, p c = inBase c) →
      ((text.takeWhile p).filterMap hexValue?, text.dropWhile p) =
        ((text.takeWhile inBase).filterMap hexValue?, text.dropWhile inBase) := by
    intro p text same
    rw [funext same]
  have unfolded : ∀ text, takeDigits base text = ((text.takeWhile inBase).filterMap hexValue?,
      text.dropWhile inBase) := by
    intro text
    refine pieces _ text fun c => ?_
    simp only [inBase]
    cases hexValue? c <;> rfl
  have read : ∀ v ∈ vs, hexValue? (digit v) = some v := fun v mem =>
    hexValue?_digit (Nat.lt_of_lt_of_le (below v mem) few)
  have inside : ∀ c ∈ vs.map digit, inBase c = true := by
    intro c mem
    obtain ⟨v, listed, rfl⟩ := List.mem_map.1 mem
    simp [inBase, read v listed, below v listed]
  have outside : ∀ c ∈ rest.head?, inBase c = false := by
    intro c mem
    simp [inBase, clear c mem]
  obtain ⟨taken, dropped⟩ := takeWhile_append_of_stop inside outside
  rw [unfolded, taken, dropped, filterMap_digit fun v mem => Nat.lt_of_lt_of_le (below v mem) few]

/-- What begins with a digit has neither space nor a sign in front. -/
theorem read?_eq (h : v < 10) (rest : List UInt8) : read? (digit v :: rest) =
    (match takeInteger false (digit v :: rest) with
    | some (n, after) =>
      if after.all isSpace then some (.integer n)
        else read?.double false (digit v :: rest) (·.all isSpace)
    | none => read?.double false (digit v :: rest) (·.all isSpace)) := by
  have all : ∀ v < 10, isSpace (digit v) = false ∧ digit v ≠ 45 ∧ digit v ≠ 43 := by decide
  have plain := all v h
  have dropped : (digit v :: rest).dropWhile isSpace = digit v :: rest := by
    rw [List.dropWhile_cons, plain.1]; rfl
  have unsigned : takeSign (digit v :: rest) = (false, digit v :: rest) := by
    unfold takeSign
    split
    · next eq => exact absurd (List.cons.inj eq).1 plain.2.1
    · next eq => exact absurd (List.cons.inj eq).1 plain.2.2
    · rfl
  have opened : ∀ text, read? text =
      (match takeInteger (takeSign (text.dropWhile isSpace)).1
        (takeSign (text.dropWhile isSpace)).2 with
      | some (n, after) =>
        if after.all isSpace then some (.integer n)
        else read?.double (takeSign (text.dropWhile isSpace)).1
          (takeSign (text.dropWhile isSpace)).2 (·.all isSpace)
      | none =>
        read?.double (takeSign (text.dropWhile isSpace)).1 (takeSign (text.dropWhile isSpace)).2
          (·.all isSpace)) :=
    fun _ => rfl
  rw [opened, dropped, unsigned]

theorem takeInteger_decimal {text : List UInt8}
    (plain : ∀ x rest, text = 48 :: x :: rest → (toLower x == 120) = false) :
    takeInteger false text =
      if (takeDigits 10 text).1.isEmpty || value 10 (takeDigits 10 text).1 > 2 ^ 63 - 1 then none
      else some (Int64.ofNat (value 10 (takeDigits 10 text).1), (takeDigits 10 text).2) := by
  unfold takeInteger
  simp only [Bool.false_eq_true, if_false, Int64.ofInt_eq_ofNat]
  split
  · next x rest => rw [plain x rest rfl, if_neg Bool.false_ne_true]
  · rfl

theorem read?_numeral (h : n < 2 ^ 63) :
    read? (numeral 10 n) = some (.integer (Int64.ofNat n)) := by
  obtain ⟨vs, eq, digits, nonempty, -⟩ := exists_digits (by decide : 2 ≤ 10) n
  have taken := takeDigits_map (by decide : 10 ≤ 16) digits.below clear_nil
  rw [List.append_nil] at taken
  obtain ⟨v, vs, rfl⟩ := List.exists_cons_of_ne_nil nonempty
  have lead := digits.below v List.mem_cons_self
  have plain : ∀ x rest, (v :: vs).map digit = 48 :: x :: rest → (toLower x == 120) = false := by
    intro x rest split
    cases vs with
    | nil => exact absurd (congrArg List.length split) (by simp)
    | cons w ws =>
      have all : ∀ w < 10, (toLower (digit w) == 120) = false := by decide
      rw [← (List.cons.inj (List.cons.inj split).2).1]
      exact all w (digits.below w (by simp))
  have fits : ¬n > 2 ^ 63 - 1 := by omega
  have integer : takeInteger false ((v :: vs).map digit) = some (Int64.ofNat n, []) := by
    rw [takeInteger_decimal plain, taken, digits.value]
    simp [fits]
  rw [eq]
  rw [List.map_cons] at integer ⊢
  rw [read?_eq lead, integer]
  rfl

end Number

namespace Double

open Ascii

def lead (x : Double) : Nat := if x.exponentField = 0 then 0 else 1

def power (x : Double) : Int :=
  if x.isZero then 0 else if x.exponentField = 0 then -1022 else (x.exponentField : Int) - 1023

def powerText (p : Int) : List UInt8 := 112 :: (if p < 0 then 45 else 43) :: numeral 10 p.natAbs

def exactText (lead : Nat) (vs : List Nat) (p : Int) : List UInt8 :=
  48 :: 120 :: digit lead :: ((if vs.isEmpty then [] else 46 :: vs.map digit) ++ powerText p)

theorem lead_lt (x : Double) : x.lead < 2 := by
  unfold lead
  split <;> decide

theorem exists_trimmed (us : List Nat) (below : ∀ u ∈ us, u < 16) :
    ∃ vs s, us = vs ++ List.replicate s 0 ∧
    ((us.map digit).reverse.dropWhile (· == 48)).reverse = vs.map digit := by
  induction us using List.reverseRecOn with
  | nil => exact ⟨[], 0, rfl, rfl⟩
  | append_singleton us u ih =>
    obtain ⟨vs, s, split, same⟩ := ih fun w mem => below w (by simp [mem])
    by_cases zero : u = 0
    · refine ⟨vs, s + 1, ?_, ?_⟩
      · rw [zero, List.replicate_succ', ← List.append_assoc, ← split]
      · rw [List.map_append, List.reverse_append, zero]
        exact same
    · have other : ∀ u < 16, u ≠ 0 → (digit u == 48) = false := by decide
      refine ⟨us ++ [u], 0, by simp, ?_⟩
      rw [List.map_append, List.reverse_append]
      simp [other u (below u (by simp)) zero]

/-- The exact form has as many digits after the point as the fraction takes. -/
theorem exists_exactText (x : Double) :
    ∃ vs s, x.hexadecimal none false = exactText x.lead vs x.power ∧
    (∀ v ∈ vs, v < 16) ∧ vs.length + s = 13 ∧ value 16 vs * 16 ^ s = x.fraction := by
  obtain ⟨ws, eq, digits, -, short⟩ := exists_digits (by decide : 2 ≤ 16) x.fraction
  have length := short 13 (by decide) x.fraction_lt
  have below : ∀ u ∈ List.replicate (13 - ws.length) 0 ++ ws, u < 16 := by
    intro u mem
    rcases List.mem_append.1 mem with mem | mem
    · rw [(List.mem_replicate.1 mem).2]
      decide
    · exact digits.below u mem
  have padded : List.replicate (13 - (numeral 16 x.fraction).length) 48 ++ numeral 16 x.fraction =
      (List.replicate (13 - ws.length) 0 ++ ws).map digit := by
    rw [eq, List.length_map, List.map_append, List.map_replicate]
    rfl
  obtain ⟨vs, s, split, same⟩ := exists_trimmed _ below
  refine ⟨vs, s, ?_, fun v mem => below v (split ▸ List.mem_append_left _ mem), ?_, ?_⟩
  · have marker : ascii "0x" = [48, 120] := rfl
    have empty : (vs.map digit).isEmpty = vs.isEmpty := by cases vs <;> rfl
    unfold hexadecimal exactText powerText lead power
    simp only [Nat.reduceEqDiff, if_false, padded, same, marker, empty, Bool.not_false,
      Bool.and_true, List.cons_append, List.nil_append]
  · have := congrArg List.length split
    simp at this
    omega
  · have values := congrArg (value 16) split
    rw [value_append, value_append, value_replicate, value_replicate, Nat.zero_mul,
      Nat.zero_add, Nat.add_zero, digits.value, List.length_replicate] at values
    exact values.symm

end Double

namespace Number

open Ascii Double

variable {vs : List Nat} {rest : List UInt8}

theorem takeExponent_powerText (p : Int) : takeExponent 112 (powerText p) = (p, []) := by
  obtain ⟨ws, eq, digits, nonempty, -⟩ := exists_digits (by decide : 2 ≤ 10) p.natAbs
  have taken := takeDigits_map (by decide : 10 ≤ 16) digits.below clear_nil
  rw [List.append_nil, ← eq] at taken
  have there : ws.isEmpty = false := by simpa using nonempty
  unfold powerText
  by_cases negative : p < 0
  · rw [if_pos negative]
    simp only [takeExponent, takeSign, taken, there, digits.value]
    simp only [(by decide : (toLower 112 == 112) = true), if_true, Bool.false_eq_true, if_false]
    rw [(by omega : -(p.natAbs : Int) = p)]
  · rw [if_neg negative]
    simp only [takeExponent, takeSign, taken, there, digits.value]
    simp only [(by decide : (toLower 112 == 112) = true), if_true, Bool.false_eq_true, if_false]
    rw [(by omega : (p.natAbs : Int) = p)]

/-- What follows the digit before the point is no digit and no space. -/
theorem clear_fraction (vs : List Nat) (p : Int) : ∃ c after,
    (if vs.isEmpty then [] else 46 :: vs.map digit) ++ powerText p = c :: after ∧
      hexValue? c = none ∧ isSpace c = false := by
  cases vs with
  | nil => exact ⟨112, _, rfl, rfl, rfl⟩
  | cons v vs => exact ⟨46, _, rfl, rfl, rfl⟩

theorem takeDigits_lead {l : Nat} (lead : l < 16) (vs : List Nat) (p : Int) :
    takeDigits 16 (digit l :: ((if vs.isEmpty then [] else 46 :: vs.map digit) ++ powerText p)) =
      ([l], (if vs.isEmpty then [] else 46 :: vs.map digit) ++ powerText p) := by
  obtain ⟨c, after, eq, clear, -⟩ := clear_fraction vs p
  rw [eq]
  have below : ∀ v ∈ [l], v < 16 := by simpa using lead
  exact takeDigits_map (Nat.le_refl 16) below (by rintro d ⟨⟩; exact clear)

theorem takeMantissa_exactText (below : ∀ v ∈ vs, v < 16) {l : Nat} (lead : l < 16) (p : Int) :
    takeMantissa 16 (digit l :: ((if vs.isEmpty then [] else 46 :: vs.map digit) ++ powerText p)) =
      some (value 16 (l :: vs), vs.length, powerText p) := by
  unfold takeMantissa
  rw [takeDigits_lead lead]
  cases vs with
  | nil => rfl
  | cons v vs =>
    have clear : Clear (powerText p) := by
      rintro c ⟨⟩
      rfl
    simp only [List.isEmpty_cons, Bool.false_eq_true, if_false, List.cons_append,
      takeDigits_map (Nat.le_refl 16) below clear, Bool.false_and, List.nil_append]

/-- The power of two of the exact form, for the digits that are left. -/
theorem power_eq {x : Double} (nonzero : x.mantissa ≠ 0) : x.power = x.exponent + 52 := by
  have there : x.isZero = false := by
    by_contra zero
    simp only [isZero, Bool.not_eq_false, Bool.and_eq_true, beq_iff_eq] at zero
    exact nonzero (by rw [mantissa, if_pos zero.1, zero.2])
  unfold power exponent
  rw [there]
  simp only [Bool.false_eq_true, if_false]
  split <;> omega

theorem magnitude_of_mantissa {x : Double} (zero : x.mantissa = 0) : x.magnitude = 0 := by
  unfold mantissa at zero
  rw [magnitude_eq]
  split at zero
  · next subnormal => rw [subnormal, zero]
  · omega

theorem binaryDouble_eq {x : Double} (finite : x.isFinite = true) {m s : Nat}
    (scaled : m * 2 ^ s = x.mantissa) {p : Int} (balanced : x.mantissa ≠ 0 → p = x.exponent + s) :
    binaryDouble false m p = ofFields false x.magnitude := by
  by_cases zero : x.mantissa = 0
  · have mantissa_zero : m = 0 := by
      rw [zero] at scaled
      exact (Nat.mul_eq_zero.1 scaled).resolve_right (Nat.ne_of_gt (Nat.two_pow_pos s))
    rw [magnitude_of_mantissa zero, binaryDouble, if_pos mantissa_zero]
    rfl
  · have pos : m ≠ 0 := by
      rintro rfl
      exact zero (by rw [← scaled, Nat.zero_mul])
    have log : x.mantissa.log2 = m.log2 + s := by rw [← scaled, log2_mul_two_pow pos]
    have small : x.mantissa.log2 < 53 := (Nat.log2_lt zero).2 x.mantissa_lt
    have range : -1074 ≤ x.exponent ∧ x.exponent ≤ 971 := by
      have bound := x.exponentField_lt
      have number : x.exponentField ≠ 2047 := by simpa [isFinite] using finite
      unfold exponent
      split <;> omega
    have power := balanced zero
    unfold binaryDouble
    simp only
    rw [if_neg pos, if_neg (by omega), if_neg (by omega), power]
    exact x.ofDyadic_eq finite zero scaled

/-- The exact form of a finite double is read as the double, without its sign. -/
theorem read?_hexadecimal (x : Double) (finite : x.isFinite = true) :
    read? (x.hexadecimal none false) = some (.double (ofFields false x.magnitude)) := by
  obtain ⟨vs, s, eq, below, length, fraction⟩ := exists_exactText x
  have lead := Nat.lt_trans x.lead_lt (by decide : 2 < 16)
  have mantissa : value 16 (x.lead :: vs) * 2 ^ (4 * s) = x.mantissa := by
    have hidden : x.mantissa = x.lead * 2 ^ 52 + x.fraction := by
      unfold Double.mantissa Double.lead
      split <;> simp
    have split := value_append 16 [x.lead] vs
    rw [List.singleton_append] at split
    rw [Nat.pow_mul, split, Nat.add_mul, Nat.mul_assoc, ← Nat.pow_add, length, fraction, hidden]
    simp [value]
  have double : binaryDouble false (value 16 (x.lead :: vs)) (x.power - 4 * vs.length) =
      ofFields false x.magnitude := by
    refine binaryDouble_eq finite mantissa fun nonzero => ?_
    rw [power_eq nonzero]
    omega
  have body : takeDouble false (exactText x.lead vs x.power) =
      some (ofFields false x.magnitude, []) := by
    simp only [exactText, takeDouble, (by decide : (toLower 120 == 120) = true), if_true,
      takeMantissa_exactText below lead x.power]
    simp only [bind, Option.bind_some, takeExponent_powerText, double]
    rfl
  have whole : ∃ n after, takeInteger false (exactText x.lead vs x.power) = some (n, after) ∧
      after.all isSpace = false := by
    obtain ⟨c, after, split, -, space⟩ := clear_fraction vs x.power
    refine ⟨Int64.ofNat (value 16 [x.lead]), c :: after, ?_, by rw [List.all_cons, space]; rfl⟩
    simp only [exactText, takeInteger, (by decide : (toLower 120 == 120) = true),
      if_true, takeDigits_lead lead]
    rw [split]
    rfl
  obtain ⟨n, after, integer, more⟩ := whole
  rw [eq]
  have read := read?_eq (v := 0) (by decide) (120 :: digit x.lead ::
    ((if vs.isEmpty then [] else 46 :: vs.map digit) ++ powerText x.power))
  have first : digit 0 = 48 := rfl
  rw [first] at read
  unfold exactText at integer body ⊢
  rw [read, integer]
  simp only [more, Bool.false_eq_true, if_false, read?.double, body]
  rfl

end Number
end SealedLua
