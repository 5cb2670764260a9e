import Mathlib.Data.List.Induction
import Mathlib.Tactic.Common
import Mathlib.Tactic.Ring
import SealedLua.Bytes.Ascii
import SealedLua.Crypto.Counter
import SealedLua.Crypto.Hmac

/-!
# Keystreams and key material

The keystream is as long as the text it is added to, and adding it twice gives
the text back.  Which byte of which block is added at a place, and that a text
in front gets the same bytes, is said of places.  All are inductions on the
blocks of the text; every block of the keystream fills a whole block.  A counter
that starts with eight zeros counts in its last eight bytes, without a carry to
the others for `2 ^ 64` blocks.  Key material has the length that was asked for,
since each of its blocks is a code of 64 bytes.
-/

namespace SealedLua

theorem xor_xor_cancel (a b : UInt8) : a ^^^ b ^^^ b = a := by
  rw [UInt8.xor_assoc, UInt8.xor_self, UInt8.xor_zero]

theorem zipWith_xor_zipWith_xor (xs ks : List UInt8) (h : xs.length ≤ ks.length) :
    List.zipWith (· ^^^ ·) (List.zipWith (· ^^^ ·) xs ks) ks = xs := by
  induction xs generalizing ks with
  | nil => simp
  | cons x xs ih =>
    cases ks with
    | nil => simp at h
    | cons k ks =>
      have hrest : xs.length ≤ ks.length := by simpa using h
      simp only [List.zipWith_cons_cons, xor_xor_cancel, ih ks hrest]

namespace Counter

@[simp] theorem length_bigEndian (length n : Nat) : (bigEndian length n).length = length := by
  induction length generalizing n with
  | zero => rfl
  | succ length ih => rw [bigEndian, List.length_append, ih, List.length_singleton]

theorem value_concat (l : List UInt8) (c : UInt8) : value (l ++ [c]) = 256 * value l + c.toNat := by
  simp [value]

theorem value_zeros (l : List UInt8) (count : Nat) :
    value (l ++ List.replicate count 0) = value l * 256 ^ count := by
  induction count with
  | zero => simp
  | succ count ih =>
    rw [List.replicate_succ', ← List.append_assoc, value_concat, ih, UInt8.toNat_zero]
    ring

theorem bigEndian_value (l : List UInt8) : bigEndian l.length (value l) = l := by
  induction l using List.reverseRecOn with
  | nil => rfl
  | append_singleton l c ih =>
    have hc : c.toNat < 256 := c.toNat_lt
    have hquotient : (256 * value l + c.toNat) / 256 = value l := by omega
    have hbyte : UInt8.ofNat (256 * value l + c.toNat) = c := by
      apply UInt8.toNat_inj.1
      rw [UInt8.toNat_ofNat']
      omega
    rw [List.length_append, List.length_singleton, bigEndian, value_concat, hquotient, hbyte, ih]

/-- A number below `256 ^ k` takes up the last `k` bytes of a sum and no others. -/
theorem bigEndian_add (m k a : Nat) {b : Nat} (h : b < 256 ^ k) :
    bigEndian (m + k) (a * 256 ^ k + b) = bigEndian m a ++ bigEndian k b := by
  induction k generalizing b with
  | zero =>
    obtain rfl : b = 0 := by omega
    simp [bigEndian]
  | succ k ih =>
    have hsplit : a * 256 ^ (k + 1) + b = 256 * (a * 256 ^ k) + b := by ring
    have hquotient : (a * 256 ^ (k + 1) + b) / 256 = a * 256 ^ k + b / 256 := by omega
    have hbyte : UInt8.ofNat (a * 256 ^ (k + 1) + b) = UInt8.ofNat b := by
      apply UInt8.toNat_inj.1
      rw [UInt8.toNat_ofNat', UInt8.toNat_ofNat']
      omega
    have hrest : b / 256 < 256 ^ k := by
      rw [Nat.pow_succ] at h
      omega
    rw [← Nat.add_assoc, bigEndian, hquotient, hbyte, ih hrest, bigEndian, List.append_assoc]

/-- After eight bytes and eight zeros the counter counts in the last eight bytes. -/
theorem streamBlock_of_zeros (keys : List Aes.State) {l : List UInt8} (hl : l.length = 8)
    {i : Nat} (hi : i < 2 ^ 64) :
    streamBlock keys (l ++ List.replicate 8 0) i = Aes.encryptWith keys (l ++ bigEndian 8 i) := by
  have hvalue := bigEndian_value l
  rw [hl] at hvalue
  rw [streamBlock, value_zeros, bigEndian_add 8 8 (value l) (by omega), hvalue]

@[simp] theorem length_streamBlock (keys : List Aes.State) (first : List UInt8) (i : Nat) :
    (streamBlock keys first i).length = 16 := by
  simp [streamBlock]

@[simp] theorem applyFrom_nil (keys : List Aes.State) (first : List UInt8) (i : Nat) :
    applyFrom keys first i [] = [] := by
  rw [applyFrom]

/-- One block of the keystream is used up by the first sixteen bytes. -/
theorem applyFrom_eq (keys : List Aes.State) (first : List UInt8) (i : Nat) (text : List UInt8) :
    applyFrom keys first i text =
      List.zipWith (· ^^^ ·) (text.take 16) (streamBlock keys first i) ++
        applyFrom keys first (i + 1) (text.drop 16) := by
  cases text with
  | nil => simp
  | cons c rest => rw [applyFrom]

@[simp] theorem length_applyFrom (keys : List Aes.State) (first : List UInt8) (i : Nat)
    (text : List UInt8) : (applyFrom keys first i text).length = text.length := by
  induction i, text using applyFrom.induct with
  | case1 i => simp
  | case2 i c rest ih =>
    rw [applyFrom_eq, List.length_append, ih]
    simp only [List.length_zipWith, List.length_take, List.length_drop, length_streamBlock]
    omega

/-- Decryption is encryption: a block of the sum is a block of the text with the
same block of the keystream added. -/
theorem applyFrom_applyFrom (keys : List Aes.State) (first : List UInt8) (i : Nat)
    (text : List UInt8) : applyFrom keys first i (applyFrom keys first i text) = text := by
  induction i, text using applyFrom.induct with
  | case1 i => simp
  | case2 i c rest ih =>
    generalize c :: rest = text at ih ⊢
    set block := streamBlock keys first i with hblock
    have hlength : (List.zipWith (· ^^^ ·) (text.take 16) block).length = min 16 text.length := by
      simp [hblock, Nat.min_comm]
    by_cases hshort : text.length ≤ 16
    · have hdrop : text.drop 16 = [] := List.drop_eq_nil_of_le hshort
      rw [applyFrom_eq keys first i text, hdrop, applyFrom_nil, List.append_nil, applyFrom_eq]
      rw [List.take_of_length_le (by rw [hlength]; omega),
        List.drop_eq_nil_of_le (by rw [hlength]; omega), applyFrom_nil, List.append_nil,
        zipWith_xor_zipWith_xor _ _ (by simp), List.take_of_length_le hshort]
    · have hfull : (List.zipWith (· ^^^ ·) (text.take 16) block).length = 16 := by
        rw [hlength]; omega
      rw [applyFrom_eq keys first i text, applyFrom_eq,
        List.take_left' hfull, List.drop_left' hfull, ih,
        zipWith_xor_zipWith_xor _ _ (by simp [hblock]), List.take_append_drop]

/-- Each place gets a byte of the keystream: of the block that it lies in, the
byte with its place there. -/
theorem getElem?_applyFrom (keys : List Aes.State) (first : List UInt8) (i : Nat)
    (text : List UInt8) {j : Nat} {c : UInt8} (h : text[j]? = some c) :
    ∃ k, (streamBlock keys first (i + j / 16))[j % 16]? = some k ∧
      (applyFrom keys first i text)[j]? = some (c ^^^ k) := by
  induction i, text using applyFrom.induct generalizing j with
  | case1 i => simp at h
  | case2 i d rest ih =>
    generalize d :: rest = text at ih h ⊢
    obtain ⟨hj, -⟩ := List.getElem?_eq_some_iff.1 h
    set block := streamBlock keys first i with hblock
    have hfilled : block.length = 16 := by simp [hblock]
    rw [applyFrom_eq keys first i text, ← hblock]
    rcases Nat.lt_or_ge j 16 with hin | hout
    · have hnumber : i + j / 16 = i := by omega
      have hbyte : block[j]? = some block[j] := List.getElem?_eq_getElem (by omega)
      refine ⟨block[j], ?_, ?_⟩
      · rw [hnumber, ← hblock, Nat.mod_eq_of_lt hin, hbyte]
      · have hsum : (List.zipWith (· ^^^ ·) (text.take 16) block)[j]? = some (c ^^^ block[j]) := by
          rw [List.getElem?_zipWith, List.getElem?_take_of_lt hin, h, hbyte]
        rw [List.getElem?_append_left (List.getElem?_eq_some_iff.1 hsum).1, hsum]
    · have hlength : (List.zipWith (· ^^^ ·) (text.take 16) block).length = 16 := by
        rw [List.length_zipWith, List.length_take, hfilled]
        omega
      have hrest : (text.drop 16)[j - 16]? = some c := by
        rw [List.getElem?_drop, ← h]
        congr 1
        omega
      obtain ⟨k, hk, hsum⟩ := ih hrest
      have hnumber : i + 1 + (j - 16) / 16 = i + j / 16 := by omega
      have hplace : (j - 16) % 16 = j % 16 := by omega
      rw [hnumber, hplace] at hk
      refine ⟨k, hk, ?_⟩
      rw [List.getElem?_append_right (by omega), hlength, hsum]

/-- What stands in front of a text gets the same bytes as without it. -/
theorem applyFrom_take (keys : List Aes.State) (first : List UInt8) (i : Nat)
    (text : List UInt8) (n : Nat) :
    applyFrom keys first i (text.take n) = (applyFrom keys first i text).take n := by
  apply List.ext_getElem?
  intro j
  cases h : (text.take n)[j]? with
  | none =>
    have hend := List.getElem?_eq_none_iff.1 h
    rw [List.getElem?_eq_none_iff.2 (by rwa [length_applyFrom]), List.getElem?_eq_none_iff.2]
    rw [List.length_take] at hend ⊢
    rwa [length_applyFrom]
  | some c =>
    obtain ⟨hin, -⟩ := List.getElem?_eq_some_iff.1 h
    have hfront : j < n := by
      rw [List.length_take] at hin
      omega
    have hwhole : text[j]? = some c := by rwa [List.getElem?_take_of_lt hfront] at h
    obtain ⟨k, hk, hsum⟩ := getElem?_applyFrom keys first i _ h
    obtain ⟨k', hk', hsum'⟩ := getElem?_applyFrom keys first i _ hwhole
    obtain rfl : k = k' := Option.some.inj (hk.symm.trans hk')
    rw [hsum, List.getElem?_take_of_lt hfront, hsum']

@[simp] theorem length_apply (key first text : List UInt8) :
    (apply key first text).length = text.length :=
  length_applyFrom _ _ _ _

@[simp] theorem apply_apply (key first text : List UInt8) :
    apply key first (apply key first text) = text :=
  applyFrom_applyFrom _ _ _ _

end Counter

namespace Hkdf

@[simp] theorem length_blocks (key info : List UInt8) (count i : Nat) (last : List UInt8) :
    (blocks key info count i last).length = 64 * count := by
  induction count generalizing i last with
  | zero => rfl
  | succ count ih =>
    rw [blocks, List.length_append, ih, Hmac.length_code]
    ring

/-- Below the limit there is material, and as much as was asked for. -/
theorem derive?_eq_some (secret salt info : List UInt8) (length : Nat) (h : length ≤ limit) :
    ∃ material, derive? secret salt info length = some material ∧ material.length = length := by
  refine ⟨_, if_pos h, ?_⟩
  rw [List.length_take, length_blocks]
  omega

end Hkdf
end SealedLua
