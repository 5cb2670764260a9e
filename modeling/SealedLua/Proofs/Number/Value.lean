import SealedLua.Lua.Value
import SealedLua.Proofs.Number.Exact
import Mathlib.Algebra.Order.Field.Rat
import Mathlib.Algebra.Order.Ring.Rat
import Mathlib.Tactic.FieldSimp
import Mathlib.Tactic.NormNum
import Mathlib.Tactic.Positivity
import Mathlib.Tactic.Ring

/-!
# The values of doubles

The value of a finite double is a rational number, told by its three fields as the
interchange format tells it.  Mantissa and power of two say the same number, so a
double is read as an integer exactly if its value is one.
-/

namespace SealedLua

namespace Double

variable {x : Double} {n : Int}

/-- The size of a finite double.  The fraction counts units of `2 ^ -52`, above a
one that is not written unless the exponent field is zero. -/
def size (x : Double) : ℚ :=
  if x.exponentField = 0 then x.fraction / 2 ^ 52 * 2 ^ (-1022 : ℤ)
  else (1 + x.fraction / 2 ^ 52) * 2 ^ ((x.exponentField : ℤ) - 1023)

def value? (x : Double) : Option ℚ :=
  if x.exponentField = 2047 then none else some (if x.negative then -x.size else x.size)

theorem size_eq (x : Double) : x.size = x.mantissa * 2 ^ x.exponent := by
  by_cases hfield : x.exponentField = 0
  · have hpower : (2 : ℚ) ^ (-1022 : ℤ) = 2 ^ 52 * 2 ^ (-1074 : ℤ) := by
      rw [← zpow_natCast, ← zpow_add₀ two_ne_zero]
      norm_num
    rw [size, mantissa, exponent, if_pos hfield, if_pos hfield, if_pos hfield, hpower]
    field_simp
  · have hpower : (2 : ℚ) ^ ((x.exponentField : ℤ) - 1023) =
        2 ^ 52 * 2 ^ ((x.exponentField : ℤ) - 1075) := by
      rw [← zpow_natCast, ← zpow_add₀ two_ne_zero]
      congr 1
      push_cast
      ring
    rw [size, mantissa, exponent, if_neg hfield, if_neg hfield, if_neg hfield, hpower]
    push_cast
    field_simp
    norm_num

theorem value?_of_infinite (h : x.isFinite = false) : x.value? = none := by
  have hfield : x.exponentField = 2047 := by simpa [isFinite] using h
  simp [value?, hfield]

theorem value?_of_finite (h : x.isFinite = true) :
    x.value? = some ((x.signedMantissa : ℚ) * 2 ^ x.exponent) := by
  have hfield : x.exponentField ≠ 2047 := by simpa [isFinite] using h
  rw [value?, if_neg hfield, size_eq, signedMantissa]
  split <;> simp

theorem natAbs_signedMantissa (x : Double) : x.signedMantissa.natAbs = x.mantissa := by
  rw [signedMantissa]
  split <;> simp

/-- A mantissa that is a multiple of a unit is the quotient times the unit. -/
theorem signedMantissa_of_dvd {unit : ℕ} (h : unit ∣ x.mantissa) :
    x.signedMantissa = (if x.negative then -((x.mantissa / unit : ℕ) : ℤ)
      else (x.mantissa / unit : ℕ)) * unit := by
  have hquotient : ((x.mantissa / unit : ℕ) : ℤ) * unit = x.mantissa := by
    exact_mod_cast Nat.div_mul_cancel h
  rw [signedMantissa]
  split <;> simp only [neg_mul, hquotient]

/-- With a negative exponent, a double is whole if its mantissa is a multiple of the unit. -/
theorem toInt?_of_neg_exponent (h : x.isFinite = true) (hpart : x.exponent < 0) :
    x.toInt? = some n ↔ x.signedMantissa = n * (2 ^ (-x.exponent).toNat : ℕ) := by
  unfold toInt?
  simp only [h, Bool.not_true, Bool.false_eq_true, if_false, if_neg (not_le.2 hpart)]
  by_cases hdvd : 2 ^ (-x.exponent).toNat ∣ x.mantissa
  · have hunit : ((2 ^ (-x.exponent).toNat : ℕ) : ℤ) ≠ 0 := by positivity
    rw [if_pos (Nat.mod_eq_zero_of_dvd hdvd), signedMantissa_of_dvd hdvd,
      mul_left_inj' hunit, Option.some_inj]
  · rw [if_neg fun hrest => hdvd (Nat.dvd_of_mod_eq_zero hrest)]
    refine iff_of_false (Option.some_ne_none n).symm fun hscaled => hdvd ?_
    rw [← natAbs_signedMantissa, hscaled, Int.natAbs_mul, Int.natAbs_natCast]
    exact Nat.dvd_mul_left _ _

/-- A double is read as a whole number exactly if that is its value. -/
theorem toInt?_eq_some : x.toInt? = some n ↔ x.value? = some (n : ℚ) := by
  cases hfinite : x.isFinite with
  | false => simp [toInt?, hfinite, value?_of_infinite hfinite]
  | true =>
    rw [value?_of_finite hfinite, Option.some_inj]
    by_cases hwhole : 0 ≤ x.exponent
    · obtain ⟨k, hk⟩ := Int.eq_ofNat_of_zero_le hwhole
      simp only [toInt?, hfinite, hk, Bool.not_true, Bool.false_eq_true, if_false,
        if_pos (Int.natCast_nonneg k), Option.some_inj, Int.toNat_natCast, zpow_natCast]
      exact_mod_cast Iff.rfl
    · rw [toInt?_of_neg_exponent hfinite (by omega)]
      obtain ⟨k, hk⟩ := Int.eq_ofNat_of_zero_le (a := -x.exponent) (by omega)
      have hexponent : x.exponent = -(k : ℤ) := by omega
      rw [hk, Int.toNat_natCast, hexponent, zpow_neg, zpow_natCast, ← div_eq_mul_inv,
        div_eq_iff (by positivity)]
      exact_mod_cast Iff.rfl

end Double

namespace Lua.Value

variable {x : Double}

/-- A double counts as an integer of sixty-four bits exactly if that is its value. -/
theorem exactInteger?_eq_some {n : Int64} : exactInteger? x = some n ↔
    x.value? = some (n.toInt : ℚ) := by
  rw [← Double.toInt?_eq_some, exactInteger?]
  cases x.toInt? with
  | none => simp
  | some k =>
    have hlow := n.le_toInt
    have hhigh := n.toInt_lt
    simp only [Option.ite_none_right_eq_some, Option.some_inj, Bool.and_eq_true, decide_eq_true_eq]
    constructor
    · rintro ⟨⟨hle, hlt⟩, rfl⟩
      exact (Int64.toInt_ofInt_of_le hle hlt).symm
    · rintro rfl
      exact ⟨⟨hlow, hhigh⟩, Int64.ofInt_toInt n⟩

/-- It does so exactly if its value is a whole number in the range of these integers. -/
theorem isSome_exactInteger? : (exactInteger? x).isSome = true ↔
    ∃ q : ℚ, x.value? = some q ∧ q.isInt = true ∧ -2 ^ 63 ≤ q ∧ q < 2 ^ 63 := by
  rw [Option.isSome_iff_exists]
  constructor
  · rintro ⟨n, hn⟩
    refine ⟨n.toInt, exactInteger?_eq_some.1 hn, by simp [Rat.isInt], ?_, ?_⟩
    · exact_mod_cast n.le_toInt
    · exact_mod_cast n.toInt_lt
  · rintro ⟨q, hq, hwhole, hle, hlt⟩
    obtain ⟨k, rfl⟩ : ∃ k : ℤ, q = k := ⟨q.num, (Rat.eq_num_of_isInt hwhole)⟩
    have hlow : -2 ^ 63 ≤ k := by exact_mod_cast hle
    have hhigh : k < 2 ^ 63 := by exact_mod_cast hlt
    refine ⟨Int64.ofInt k, exactInteger?_eq_some.2 ?_⟩
    rw [hq, Int64.toInt_ofInt_of_le hlow hhigh]

example : exactInteger? ⟨0x43E0000000000000⟩ = none ∧ exactInteger? ⟨0x43DFFFFFFFFFFFFF⟩ =
    some (2 ^ 63 - 2 ^ 10) := by decide

end Lua.Value
end SealedLua
