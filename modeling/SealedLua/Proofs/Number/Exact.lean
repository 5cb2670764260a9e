import SealedLua.Number.Double
import Mathlib.Tactic.Common

/-!
# Exact doubles

A finite double is its sign and its magnitude, and rounding gives back a
double that is written as a mantissa and a power of two in any way.
-/

namespace SealedLua.Double

def magnitude (x : Double) : Nat := x.bits.toNat % 2 ^ 63

variable (x : Double) {m n p b s : Nat} {negative : Bool}

theorem magnitude_eq : x.magnitude = x.exponentField * 2 ^ 52 + x.fraction := by
  unfold magnitude exponentField fraction
  omega

theorem fraction_lt : x.fraction < 2 ^ 52 := Nat.mod_lt _ (by decide)

theorem exponentField_lt : x.exponentField < 2048 := Nat.mod_lt _ (by decide)

theorem mantissa_lt : x.mantissa < 2 ^ 53 := by
  have := x.fraction_lt
  unfold mantissa
  split <;> omega

theorem toNat_ofFields (negative : Bool) (h : m < 2 ^ 63) :
    (ofFields negative m).bits.toNat = m + if negative then 2 ^ 63 else 0 := by
  rw [ofFields, UInt64.toNat_ofNat', Nat.mod_eq_of_lt h]
  exact Nat.mod_eq_of_lt (by split <;> omega)

@[simp] theorem magnitude_ofFields (negative : Bool) (h : m < 2 ^ 63) :
    (ofFields negative m).magnitude = m := by
  rw [magnitude, toNat_ofFields negative h]
  split <;> omega

theorem ofFields_magnitude : ofFields x.negative x.magnitude = x := by
  have small : x.magnitude < 2 ^ 63 := Nat.mod_lt _ (by decide)
  have bound := x.bits.toNat_lt
  have bits : (ofFields x.negative x.magnitude).bits = x.bits := by
    apply UInt64.toNat_inj.1
    rw [toNat_ofFields _ small, negative, magnitude]
    by_cases sign : 2 ^ 63 ≤ x.bits.toNat
    · rw [decide_eq_true sign, if_pos rfl]
      omega
    · rw [decide_eq_false sign, if_neg Bool.false_ne_true]
      omega
  cases x
  exact congrArg Double.mk bits

theorem neg_ofFields (h : m < 2 ^ 63) : (ofFields false m).neg = ofFields true m := by
  have bits : (ofFields false m).neg.bits = (ofFields true m).bits := by
    apply UInt64.toNat_inj.1
    have sign : (0x8000000000000000 : UInt64).toNat = 2 ^ 63 := rfl
    rw [neg, UInt64.toNat_xor, toNat_ofFields false h, toNat_ofFields true h, sign,
      if_neg Bool.false_ne_true, if_pos rfl, Nat.add_zero]
    have high := Nat.xor_div_two_pow (a := m) (b := 2 ^ 63) (n := 63)
    have low := Nat.xor_mod_two_pow (a := m) (b := 2 ^ 63) (n := 63)
    rw [Nat.div_eq_of_lt h, Nat.div_self (by decide), Nat.zero_xor] at high
    rw [Nat.mod_eq_of_lt h, Nat.mod_self, Nat.xor_zero] at low
    have := Nat.div_add_mod (m ^^^ 2 ^ 63) (2 ^ 63)
    rw [high, low] at this
    omega
  exact congrArg Double.mk bits

theorem exponentField_eq : x.exponentField = x.magnitude / 2 ^ 52 := by
  unfold exponentField magnitude
  omega

theorem fraction_eq : x.fraction = x.magnitude % 2 ^ 52 := by
  unfold fraction magnitude
  omega

theorem isZero_congr {x y : Double} (same : x.magnitude = y.magnitude) : x.isZero = y.isZero := by
  simp only [isZero, exponentField_eq, fraction_eq, same]

theorem isNaN_congr {x y : Double} (same : x.magnitude = y.magnitude) : x.isNaN = y.isNaN := by
  simp only [isNaN, exponentField_eq, fraction_eq, same]

theorem magnitude_of_isZero (zero : x.isZero = true) : x.magnitude = 0 := by
  simp only [isZero, Bool.and_eq_true, beq_iff_eq] at zero
  rw [magnitude_eq, zero.1, zero.2, Nat.zero_mul]

theorem eq_neg_zero (zero : x.isZero = true) (negative : x.negative = true) :
    x = (Double.zero false).neg := by
  have whole := x.ofFields_magnitude
  rw [magnitude_of_isZero x zero, negative] at whole
  rw [Double.zero, neg_ofFields (by decide), whole]

theorem log2_mul_two_pow (h : n ≠ 0) : (n * 2 ^ s).log2 = n.log2 + s := by
  have pos : n * 2 ^ s ≠ 0 := Nat.mul_ne_zero h (Nat.ne_of_gt (Nat.two_pow_pos s))
  refine (Nat.log2_eq_iff pos).2 ⟨?_, ?_⟩
  · rw [Nat.pow_add]
    exact Nat.mul_le_mul_right _ (Nat.log2_self_le h)
  · rw [Nat.add_right_comm, Nat.pow_add]
    exact Nat.mul_lt_mul_of_pos_right Nat.lt_log2_self (Nat.two_pow_pos s)

theorem logRatio_two_pow (h : n ≠ 0) : logRatio n (2 ^ b) = (n.log2 : Int) - b := by
  have reached : (if 0 ≤ (n.log2 : Int) - b then 2 ^ b * 2 ^ ((n.log2 : Int) - b).toNat ≤ n
      else 2 ^ b ≤ n * 2 ^ (-((n.log2 : Int) - b)).toNat) := by
    have below := Nat.log2_self_le h
    split
    · next le =>
      rw [← Nat.pow_add, (by omega : b + ((n.log2 : Int) - b).toNat = n.log2)]
      exact below
    · next lt =>
      rw [(by omega : b = n.log2 + (-((n.log2 : Int) - b)).toNat), Nat.pow_add]
      rw [(by omega : (-((n.log2 : Int) - (n.log2 + (-((n.log2 : Int) - b)).toNat : Nat))).toNat =
        (-((n.log2 : Int) - b)).toNat)]
      exact Nat.mul_le_mul_right _ below
  unfold logRatio
  simp only [Nat.log2_two_pow]
  rw [if_pos reached]

theorem roundDiv_mul (q : Nat) {den : Nat} (pos : 0 < den) : roundDiv (q * den) den = q := by
  unfold roundDiv
  rw [Nat.mul_mod_left, Nat.mul_div_cancel q pos]
  simp only [Nat.mul_zero]
  rw [if_pos pos]

theorem grid_eq (nonzero : x.mantissa ≠ 0) :
    max ((x.mantissa.log2 : Int) + x.exponent - 52) (-1074) = x.exponent := by
  have small : x.mantissa.log2 < 53 := (Nat.log2_lt nonzero).2 x.mantissa_lt
  by_cases subnormal : x.exponentField = 0
  · have least : x.exponent = -1074 := by rw [exponent, if_pos subnormal]
    omega
  · have hidden : x.mantissa = 2 ^ 52 + x.fraction := by rw [mantissa, if_neg subnormal]
    have full : 52 ≤ x.mantissa.log2 := (Nat.le_log2 nonzero).2 (by omega)
    have scale : x.exponent = (x.exponentField : Int) - 1075 := by rw [exponent, if_neg subnormal]
    omega

theorem encode_eq (finite : x.isFinite = true) :
    encode negative x.mantissa x.exponent = ofFields negative x.magnitude := by
  have bound := x.exponentField_lt
  have fraction := x.fraction_lt
  have number : x.exponentField ≠ 2047 := by simpa [isFinite] using finite
  unfold encode
  by_cases subnormal : x.exponentField = 0
  · have plain : x.mantissa = x.fraction := by rw [mantissa, if_pos subnormal]
    rw [if_pos (by omega), plain, magnitude_eq, subnormal, Nat.zero_mul, Nat.zero_add]
  · have hidden : x.mantissa = 2 ^ 52 + x.fraction := by rw [mantissa, if_neg subnormal]
    have scale : x.exponent = (x.exponentField : Int) - 1075 := by rw [exponent, if_neg subnormal]
    have packed : (x.exponent + 1075).toNat * 2 ^ 52 + (x.mantissa - 2 ^ 52) = x.magnitude := by
      rw [magnitude_eq, hidden, (by omega : (x.exponent + 1075).toNat = x.exponentField),
        Nat.add_sub_cancel_left]
    simp only [packed]
    rw [if_neg (by omega), if_pos (by rw [magnitude_eq]; omega)]

/-- A ratio with a power of two below that is a finite double is rounded to that double. -/
theorem ofRatio_eq (finite : x.isFinite = true) (nonzero : x.mantissa ≠ 0) (above : n ≠ 0)
    (log : (n.log2 : Int) - b = x.mantissa.log2 + x.exponent)
    (whole : 0 ≤ x.exponent → n = x.mantissa * (2 ^ b * 2 ^ x.exponent.toNat))
    (part : x.exponent < 0 → n * 2 ^ (-x.exponent).toNat = x.mantissa * 2 ^ b) :
    ofRatio negative n (2 ^ b) = ofFields negative x.magnitude := by
  unfold ofRatio
  rw [if_neg above]
  simp only [logRatio_two_pow above, log, x.grid_eq nonzero]
  by_cases le : 0 ≤ x.exponent
  · rw [if_pos le, whole le, roundDiv_mul _ (Nat.mul_pos (Nat.two_pow_pos b) (Nat.two_pow_pos _)),
      x.encode_eq finite]
  · rw [if_neg le, part (by omega), roundDiv_mul _ (Nat.two_pow_pos b), x.encode_eq finite]

/-- A finite double is nearest to itself, however its mantissa and its power of two are balanced. -/
theorem ofDyadic_eq (finite : x.isFinite = true) (nonzero : x.mantissa ≠ 0)
    (scaled : m * 2 ^ s = x.mantissa) :
    ofDyadic negative m (x.exponent + s) = ofFields negative x.magnitude := by
  have pos : m ≠ 0 := by
    rintro rfl
    exact nonzero (by rw [← scaled, Nat.zero_mul])
  have log : x.mantissa.log2 = m.log2 + s := by rw [← scaled, log2_mul_two_pow pos]
  unfold ofDyadic
  by_cases le : 0 ≤ x.exponent + s
  · rw [if_pos le]
    have whole := Nat.mul_ne_zero pos (Nat.ne_of_gt (Nat.two_pow_pos (x.exponent + s).toNat))
    refine ofRatio_eq (b := 0) x finite nonzero whole ?_ ?_ ?_
    · rw [log2_mul_two_pow pos]
      omega
    · intro above
      rw [← scaled, Nat.pow_zero, Nat.one_mul, Nat.mul_assoc, ← Nat.pow_add]
      congr 2
      omega
    · intro below
      rw [← scaled, Nat.pow_zero, Nat.mul_one, Nat.mul_assoc, ← Nat.pow_add]
      congr 2
      omega
  · rw [if_neg le]
    refine ofRatio_eq x finite nonzero pos (by omega) (fun above =>
      absurd above (by omega)) fun _ => ?_
    rw [← scaled, Nat.mul_assoc, ← Nat.pow_add]
    congr 2
    omega

end SealedLua.Double
