import SealedLua.Proofs.Lua.Lists
import SealedLua.Proofs.Lua.Rendering
import Mathlib.Logic.Equiv.Basic

/-!
# Sorting

Sorting a list of strings puts them in the order of a dictionary.  The list is
seen as a function of its positions.  Each operation on it trades places within
a range, so bounds on the entries of a range outlive the sorting of its parts;
parting a range around the pivot leaves nothing above the pivot on one side and
nothing below it on the other.
-/

namespace SealedLua.Lua

namespace Value

theorem bytesLtFrom_iff (a b : ByteArray) (i : Nat) :
    bytesLtFrom a b i = true ↔ (codes a).drop i < (codes b).drop i := by
  fun_induction bytesLtFrom a b i with
  | case1 i inside_b inside_a less =>
    rw [drop_codes inside_a, drop_codes inside_b, List.cons_lt_cons_iff]
    simp [less]
  | case2 i inside_b inside_a more greater =>
    rw [drop_codes inside_a, drop_codes inside_b, List.cons_lt_cons_iff]
    refine ⟨Bool.false_ne_true.elim, fun below => ?_⟩
    rcases below with less | ⟨same, -⟩
    · exact absurd less more
    · exact absurd (same ▸ greater) (UInt8.lt_irrefl _)
  | case3 i inside_b inside_a more less ih =>
    have same : a[i] = b[i] := UInt8.le_antisymm (UInt8.not_lt.1 less) (UInt8.not_lt.1 more)
    rw [drop_codes inside_a, drop_codes inside_b, List.cons_lt_cons_iff, ih, same]
    simp
  | case4 i inside_b beyond =>
    rw [List.drop_eq_nil_of_le (by simpa using beyond), drop_codes inside_b]
    simp
  | case5 i beyond =>
    have nothing : (codes b).drop i = [] := List.drop_eq_nil_of_le (by simpa using beyond)
    rw [nothing]
    simp

theorem bytesLt_iff (a b : ByteArray) : bytesLt a b = true ↔ codes a < codes b := by
  exact bytesLtFrom_iff a b 0

end Value

namespace Sorting

section Rearranging

variable {α : Type} {lo up i j k : Nat} {f g e : Nat → α}

/-- The entries of `f` between two positions have traded places. -/
def Rearranges (lo up : Nat) (f g : Nat → α) : Prop :=
  ∃ σ : Equiv.Perm Nat, (∀ k, k < lo ∨ up < k → σ k = k) ∧ ∀ k, g k = f (σ k)

namespace Rearranges

theorem refl (lo up : Nat) (f : Nat → α) : Rearranges lo up f f :=
  ⟨Equiv.refl Nat, fun _ _ => rfl, fun _ => rfl⟩

theorem trans (first : Rearranges lo up f g) (second : Rearranges lo up g e) :
    Rearranges lo up f e := by
  obtain ⟨σ, fixes, eq⟩ := first
  obtain ⟨τ, fixes', eq'⟩ := second
  refine ⟨τ.trans σ, fun k out => ?_, fun k => ?_⟩
  · rw [Equiv.trans_apply, fixes' k out, fixes k out]
  · rw [eq', eq, Equiv.trans_apply]

theorem mono {lo' up' : Nat} (r : Rearranges lo up f g) (low : lo' ≤ lo) (high : up ≤ up') :
    Rearranges lo' up' f g := by
  obtain ⟨σ, fixes, eq⟩ := r
  exact ⟨σ, fun k out => fixes k (by omega), eq⟩

theorem swap (hi : lo ≤ i ∧ i ≤ up) (hj : lo ≤ j ∧ j ≤ up) (f : Nat → α) :
    Rearranges lo up f (Function.update (Function.update f i (f j)) j (f i)) := by
  refine ⟨Equiv.swap i j, fun k out => Equiv.swap_apply_of_ne_of_ne (by omega)
    (by omega), fun k => ?_⟩
  by_cases eq_j : k = j
  · rw [eq_j, Function.update_self, Equiv.swap_apply_right]
  · rw [Function.update_of_ne eq_j]
    by_cases eq_i : k = i
    · rw [eq_i, Function.update_self, Equiv.swap_apply_left]
    · rw [Function.update_of_ne eq_i, Equiv.swap_apply_of_ne_of_ne eq_i eq_j]

theorem outside (r : Rearranges lo up f g) (out : k < lo ∨ up < k) : g k = f k := by
  obtain ⟨σ, fixes, eq⟩ := r
  rw [eq, fixes k out]

theorem inside (r : Rearranges lo up f g) (low : lo ≤ k) (high : k ≤ up) :
    ∃ j, lo ≤ j ∧ j ≤ up ∧ g k = f j := by
  obtain ⟨σ, fixes, eq⟩ := r
  refine ⟨σ k, ?_, ?_, eq k⟩ <;>
  · by_contra out
    have fixed : σ k = k := σ.injective (fixes (σ k) (by omega))
    omega

/-- What holds of the entries of a range holds of them in any order. -/
theorem keeps (r : Rearranges lo up f g) {p : α → Prop} (all : ∀ k, lo ≤ k → k ≤ up → p (f k)) :
    ∀ k, lo ≤ k → k ≤ up → p (g k) := by
  intro k low high
  obtain ⟨j, low', high', eq⟩ := r.inside low high
  rw [eq]
  exact all j low' high'

theorem perm {n : Nat} (r : Rearranges 1 n f g) :
    ((List.range n).map fun i => g (i + 1)).Perm ((List.range n).map fun i => f (i + 1)) := by
  obtain ⟨σ, fixes, eq⟩ := r
  have stays : ∀ k, 1 ≤ k ∧ k ≤ n ↔ 1 ≤ σ k ∧ σ k ≤ n := by
    intro k
    constructor
    · intro bounds
      by_contra out
      have fixed : σ k = k := σ.injective (fixes (σ k) (by omega))
      omega
    · intro bounds
      by_contra out
      rw [fixes k (by omega)] at bounds
      exact out bounds
  have moved : ((List.range' 1 n).map σ).Perm (List.range' 1 n) := by
    rw [List.perm_ext_iff_of_nodup (List.Nodup.map σ.injective List.nodup_range') List.nodup_range']
    intro k
    rw [List.mem_map, List.mem_range'_1]
    constructor
    · rintro ⟨j, mem, rfl⟩
      have := (stays j).1 (by rw [List.mem_range'_1] at mem; omega)
      omega
    · intro bounds
      refine ⟨σ.symm k, ?_, σ.apply_symm_apply k⟩
      have := (stays (σ.symm k)).2 (by rw [σ.apply_symm_apply]; omega)
      rw [List.mem_range'_1]
      omega
  have listed : ∀ e : Nat → α, (List.range n).map (fun i => e (i + 1)) =
      (List.range' 1 n).map e := by
    intro e
    rw [List.range'_eq_map_range, List.map_map]
    refine List.map_congr_left fun i _ => ?_
    rw [Function.comp_apply, Nat.add_comm]
  have composed : (List.range' 1 n).map g = ((List.range' 1 n).map σ).map f := by
    rw [List.map_map]
    exact List.map_congr_left fun k _ => eq k
  rw [listed, listed, composed]
  exact moved.map f

end Rearranges

end Rearranging

section Operations

variable {before h : Heap} {id : TableId} {n lo up i j k : Nat}
  {f : Nat → ByteArray} {a b : ByteArray} {c : CallContext}

/-- A list holds the strings of `f`, and nothing else has changed since `before`. -/
structure Holds (before : Heap) (id : TableId) (n : Nat)
    (f : Nat → ByteArray) (h : Heap) : Prop where
  list : h.Lists id ((List.range n).map fun i => .string (f (i + 1)))
  changes : Heap.ChangesOnly id before h

def Le (a b : ByteArray) : Prop := Value.bytesLt b a = false

theorem le_iff : Le a b ↔ codes a ≤ codes b := by
  rw [Le, ← Bool.not_eq_true, Value.bytesLt_iff]
  exact List.not_lt

theorem Le.refl (a : ByteArray) : Le a a := le_iff.2 (List.le_refl _)

theorem Le.trans {d : ByteArray} (first : Le a b) (second : Le b d) : Le a d :=
  le_iff.2 (List.le_trans (le_iff.1 first) (le_iff.1 second))

theorem Le.of_lt (h : Value.bytesLt a b = true) : Le a b :=
  le_iff.2 (List.le_of_lt ((Value.bytesLt_iff a b).1 h))

theorem get_eq (holds : Holds before id n f h) (low : 1 ≤ k) (high : k ≤ n) (small : n < 2 ^ 62) :
    Tables.get (.table id) k c h = .done (.string (f k)) h := by
  obtain ⟨i, rfl⟩ := Nat.exists_eq_add_of_le' low
  have inside : i < ((List.range n).map fun i => Value.string (f (i + 1))).length := by
    rw [List.length_map, List.length_range]
    exact high
  rw [holds.list.get_done inside (by rw [arrayLimit]; omega), List.getElem_map, List.getElem_range]

theorem put_eq (holds : Holds before id n f h) (low : 1 ≤ k) (high : k ≤ n)
    (small : n < 2 ^ 62) (a : ByteArray) :
    ∃ h', (∀ c, Tables.put (.table id) k (.string a) c h = .done () h') ∧
      Holds before id n (Function.update f k a) h' := by
  obtain ⟨i, rfl⟩ := Nat.exists_eq_add_of_le' low
  have inside : i < ((List.range n).map fun i => Value.string (f (i + 1))).length := by
    rw [List.length_map, List.length_range]
    exact high
  have limit : i < arrayLimit := by rw [arrayLimit]; omega
  have key : Value.integer (Int64.ofInt ((i + 1 : Nat) : Int)) = .ofNat (i + 1) := by
    rw [Int64.ofInt_eq_ofNat, Value.ofNat]
  obtain ⟨t, stored, seq⟩ := holds.list
  have proper : (Value.ofNat (i + 1)).toKey.isKey = true := rfl
  have stores := setIndex_plain stored seq.metatable proper (.string a) none none
  refine ⟨_, fun c => by rw [← key] at stores; exact stores, ?_, holds.changes.trans (.set _ _ _ _)⟩
  have list := holds.list.replace inside limit (v := .string a) rfl
  have updated : ((List.range n).map fun i => Value.string (f (i + 1))).set i (.string a) =
      (List.range n).map fun j => .string (Function.update f (i + 1) a (j + 1)) := by
    refine List.ext_getElem (by simp) fun j _ _ => ?_
    rw [List.getElem_set, List.getElem_map, List.getElem_map, List.getElem_range]
    split
    · next same => rw [same, Function.update_self]
    · next other => rw [Function.update_of_ne (by omega)]
  rwa [updated, ← key] at list

theorem before_eq (a b : ByteArray) :
    Tables.before .nil (.string a) (.string b) c h = .done (Value.bytesLt a b) h := rfl

theorem swap_eq (holds : Holds before id n f h) (hi : 1 ≤ i ∧ i ≤ n)
    (hj : 1 ≤ j ∧ j ≤ n) (small : n < 2 ^ 62) :
    ∃ h', (∀ c, Tables.put₂ (.table id) i j (.string (f j)) (.string (f i)) c h = .done () h') ∧
      Holds before id n (Function.update (Function.update f i (f j)) j (f i)) h' := by
  obtain ⟨h₁, first, holds₁⟩ := put_eq holds hi.1 hi.2 small (f j)
  obtain ⟨h₂, second, holds₂⟩ := put_eq holds₁ hj.1 hj.2 small (f i)
  refine ⟨h₂, fun c => ?_, holds₂⟩
  have unfolded : Tables.put₂ (.table id) i j (.string (f j)) (.string (f i)) c h =
      (Tables.put (.table id) i (.string (f j)) c h).bind fun _ h =>
        Tables.put (.table id) j (.string (f i)) c h := rfl
  rw [unfolded, first]
  exact second c

variable {pivot : ByteArray} {m : Nat}

/-- Going up ends at the first entry that is not below the pivot; `m` is such a place. -/
theorem scanUp_eq (budget : Nat) (holds : Holds before id n f h) (small : n < 2 ^ 62)
    (ahead : i < m) (high : m ≤ n)
    (enough : m ≤ i + budget) (stops : Value.bytesLt (f m) pivot = false) :
    ∃ k, i < k ∧ k ≤ m ∧ (∀ l, i < l → l < k → Le (f l) pivot) ∧ Le pivot (f k) ∧
      ∀ c, Tables.scanUp (.table id) .nil (.string pivot) m budget i c h =
        .done ((k : Int), .string (f k)) h := by
  induction budget generalizing i with
  | zero => omega
  | succ budget ih =>
    have unfolded : ∀ c, Tables.scanUp (.table id) .nil (.string pivot) m (budget + 1) i c h =
        (Tables.get (.table id) ((i + 1 : Nat) : Int) c h).bind fun v h =>
          (Tables.before .nil v (.string pivot) c h).bind fun less h =>
            (if less then (do
              if ((i + 1 : Nat) : Int) = m then Native.failText "invalid order function for sorting"
              Tables.scanUp (.table id) .nil (.string pivot) m budget ((i + 1 : Nat) : Int))
            else return (((i + 1 : Nat) : Int), v) : Native (Int × Value)) c h := fun _ => rfl
    by_cases less : Value.bytesLt (f (i + 1)) pivot = true
    · have other : i + 1 ≠ m := by
        rintro rfl
        rw [stops] at less
        cases less
      obtain ⟨k, after, below, passed, found, run⟩ := ih (i := i + 1) (by omega) (by omega)
      refine ⟨k, by omega, below, fun l low high => ?_, found, ?_⟩
      · rcases Nat.lt_or_eq_of_le (Nat.succ_le_of_lt low) with low | rfl
        · exact passed l low high
        · exact .of_lt less
      · intro c
        rw [unfolded, get_eq holds (by omega) (by omega) small, Step.bind,
          before_eq, Step.bind, if_pos less, if_neg (by omega)]
        exact run c
    · refine ⟨i + 1,
        by omega, by omega, fun l low high => by omega, by simpa [Le] using less, fun c => ?_⟩
      rw [unfolded, get_eq holds (by omega) (by omega) small, Step.bind,
        before_eq, Step.bind, if_neg less]
      rfl

/-- Going down ends at the last entry that is not above the pivot; `m` is such a
place, and nothing from there to `start` is above the pivot. -/
theorem scanDown_eq (start budget : Nat) (holds : Holds before id n f h)
    (small : n < 2 ^ 62) (low : 1 ≤ m) (ahead : m < j) (high : j ≤ n + 1) (enough : j ≤ m + budget)
    (stops : ∀ l, m ≤ l → l < start ∨ l = m → Value.bytesLt pivot (f l) = false) :
    ∃ k, m ≤ k ∧ k < j ∧ (∀ l, k < l → l < j → Le pivot (f l)) ∧ Le (f k) pivot ∧
      ∀ c, Tables.scanDown (.table id) .nil (.string pivot) start budget j c h =
        .done ((k : Int), .string (f k)) h := by
  induction budget generalizing j with
  | zero => omega
  | succ budget ih =>
    obtain ⟨j, rfl⟩ := Nat.exists_eq_add_of_le' (Nat.lt_of_le_of_lt (Nat.zero_le m) ahead)
    have previous : ((j + 1 : Nat) : Int) - 1 = j := by omega
    have unfolded : ∀ c, Tables.scanDown (.table id) .nil (.string pivot) start (budget + 1)
        ((j + 1 : Nat) : Int) c h =
        (Tables.get (.table id) (((j + 1 : Nat) : Int) - 1) c h).bind fun v h =>
          (Tables.before .nil (.string pivot) v c h).bind fun more h =>
            (if more then (do
              if ((j + 1 : Nat) : Int) - 1 <
                start then Native.failText "invalid order function for sorting"
              Tables.scanDown (.table id) .nil (.string pivot) start budget
                (((j + 1 : Nat) : Int) - 1))
            else return (((j + 1 : Nat) : Int) - 1, v) : Native (Int × Value)) c h := fun _ => rfl
    by_cases more : Value.bytesLt pivot (f j) = true
    · have beyond : ¬(j < start ∨ j = m) := by
        intro within
        rw [stops j (by omega) within] at more
        cases more
      obtain ⟨k, above, below, passed, found, run⟩ := ih (j := j) (by omega) (by omega) (by omega)
      refine ⟨k, above, by omega, fun l low high => ?_, found, ?_⟩
      · rcases Nat.lt_or_eq_of_le (Nat.le_of_lt_succ high) with high | rfl
        · exact passed l low high
        · exact .of_lt more
      · intro c
        rw [unfolded, previous, get_eq holds (by omega) (by omega) small, Step.bind,
          before_eq, Step.bind, if_pos more, if_neg (by omega)]
        exact run c
    · refine ⟨j,
        by omega, by omega, fun l low high => by omega, by simpa [Le] using more, fun c => ?_⟩
      rw [unfolded, previous, get_eq holds (by omega) (by omega) small, Step.bind,
        before_eq, Step.bind, if_neg more]
      rfl

/-- What holds between two rounds: nothing up to `i` is above the pivot, nothing
from `j` on is below it, and it waits before the upper end. -/
structure Parting (lo up i j : Nat) (pivot : ByteArray) (f : Nat → ByteArray) : Prop where
  low : lo ≤ i
  order : i ≤ j
  inner : lo < j
  high : j < up
  room : i + 1 < up
  below : ∀ k, lo ≤ k → k ≤ i → Le (f k) pivot
  above : ∀ k, j ≤ k → k ≤ up → Le pivot (f k)
  waits : f (up - 1) = pivot

/-- A range is parted at the place of the pivot. -/
structure Parted (lo up p : Nat) (pivot : ByteArray) (f : Nat → ByteArray) : Prop where
  low : lo < p
  high : p < up
  here : f p = pivot
  below : ∀ k, lo ≤ k → k < p → Le (f k) pivot
  above : ∀ k, p < k → k ≤ up → Le pivot (f k)

theorem partition_eq (budget : Nat) (holds : Holds before id n f h) (small : n < 2 ^ 62)
    (first : 1 ≤ lo) (last : up ≤ n)
    (parting : Parting lo up i j pivot f) (enough : up ≤ i + budget) :
    ∃ (p : Nat) (h' : Heap) (g : Nat → ByteArray),
      (∀ c, Tables.partition (.table id) .nil (.string pivot) up budget i j c h =
        .done (p : Int) h') ∧
      Holds before id n g h' ∧ Rearranges lo up f g ∧ Parted lo up p pivot g := by
  induction budget generalizing i j f h with
  | zero => have := parting.room; omega
  | succ budget ih =>
    obtain ⟨low, order, inner, high, room, below, above, waits⟩ := parting
    have stop : ((up : Int) - 1) = ((up - 1 : Nat) : Int) := by omega
    have pivot_stops : Value.bytesLt (f (up - 1)) pivot = false := by
      rw [waits]
      exact Le.refl pivot
    obtain ⟨i', after, inside, passed, found, up_run⟩ :=
      scanUp_eq (((up : Int) - i).toNat + 1) holds
      small (i := i) (by omega : i < up - 1) (by omega) (by omega) pivot_stops
    obtain ⟨j', lower, before_j, passed', found', down_run⟩ :=
      scanDown_eq (j := j) i' (((up : Int) - i).toNat + 1 + ((j : Int) - i').natAbs + 1) holds small
        (m := min i (j - 1)) (by omega) (by omega) (by omega) (by omega) fun k above within => by
          by_cases old : k ≤ i
          · exact below k (by omega) old
          · exact passed k (by omega) (by omega)
    have unfolded : ∀ c, Tables.partition (.table id) .nil (.string pivot) up (budget + 1) i j c h =
        (Tables.scanUp (.table id) .nil (.string pivot) (up - 1) (((up : Int) - i).toNat + 1) i c
            h).bind fun r h =>
          (Tables.scanDown (.table id) .nil (.string pivot) r.1
            (((up : Int) - i).toNat + 1 + ((j : Int) - r.1).natAbs + 1)
            j c h).bind fun q h =>
            (if q.1 < r.1 then (do
              Tables.put₂ (.table id) (up - 1) r.1 r.2 (.string pivot)
              return r.1)
            else (do
              Tables.put₂ (.table id) r.1 q.1 q.2 r.2
              Tables.partition (.table id) .nil (.string pivot) up budget r.1 q.1) :
                Native Int) c h := fun _ => rfl
    by_cases met : j' < i'
    · obtain ⟨h', swapped, holds'⟩ :=
        swap_eq holds (i := up - 1) (j := i') (by omega) (by omega) small
      rw [waits] at swapped holds'
      refine ⟨i', h', _, fun c => ?_, holds', waits ▸ Rearranges.swap (i := up - 1) (j := i')
        (by omega) (by omega) f, ?_⟩
      · rw [unfolded, stop, up_run, Step.bind, down_run, Step.bind, if_pos (by simpa using met)]
        exact congrArg (fun x : Step Unit => x.bind fun _ h => .done (i' : Int) h) (swapped c)
      · refine ⟨by
          omega, by omega, Function.update_self _ _ _, fun k from_lo lt => ?_, fun k gt to_up => ?_⟩
        · rw [Function.update_of_ne (by omega), Function.update_of_ne (by omega)]
          by_cases old : k ≤ i
          · exact below k from_lo old
          · exact passed k (by omega) lt
        · rw [Function.update_of_ne (by omega)]
          by_cases last : k = up - 1
          · rw [last, Function.update_self]
            exact found
          · rw [Function.update_of_ne last]
            by_cases old : j ≤ k
            · exact above k old to_up
            · exact passed' k (by omega) (by omega)
    · obtain ⟨h₁, swapped, holds₁⟩ := swap_eq holds (i := i') (j := j') (by omega) (by omega) small
      have moved := Rearranges.swap (by omega : lo ≤ i' ∧ i' ≤ up) (by omega : lo ≤ j' ∧ j' ≤ up) f
      have next : Parting lo up i' j' pivot
          (Function.update (Function.update f i' (f j')) j' (f i')) := by
        refine ⟨by
          omega, by
          omega, by omega, by omega, by omega, fun k from_lo le => ?_, fun k ge to_up => ?_, ?_⟩
        · by_cases at_j : k = j'
          · have same : i' = j' := by omega
            rw [at_j, Function.update_self, same]
            exact found'
          · rw [Function.update_of_ne at_j]
            by_cases at_i : k = i'
            · rw [at_i, Function.update_self]
              exact found'
            · rw [Function.update_of_ne at_i]
              by_cases old : k ≤ i
              · exact below k from_lo old
              · exact passed k (by omega) (by omega)
        · by_cases at_j : k = j'
          · rw [at_j, Function.update_self]
            exact found
          · rw [Function.update_of_ne at_j, Function.update_of_ne (by omega)]
            by_cases old : j ≤ k
            · exact above k old to_up
            · exact passed' k (by omega) (by omega)
        · rw [Function.update_of_ne (by omega), Function.update_of_ne (by omega)]
          exact waits
      obtain ⟨p, h', g, run, holds', rearranged, parted⟩ :=
        ih (i := i') (j := j') holds₁ next (by omega)
      refine ⟨p, h', g, fun c => ?_, holds', moved.trans rearranged, parted⟩
      rw [unfolded, stop, up_run, Step.bind, down_run, Step.bind, if_neg (by simpa using met)]
      have swapped_all := congrArg (fun x : Step Unit => x.bind fun _ h =>
        Tables.partition (.table id) .nil (.string pivot) up budget i' j' c h) (swapped c)
      exact swapped_all.trans (run c)

def Sorted (lo up : Nat) (f : Nat → ByteArray) : Prop :=
  ∀ i j, lo ≤ i → i ≤ j → j ≤ up → Le (f i) (f j)

theorem orderEnds_eq (holds : Holds before id n f h) (small : n < 2 ^ 62) (first : 1 ≤ lo)
    (lt : lo < up) (last : up ≤ n) :
    ∃ h' g, (∀ c, Tables.orderEnds (.table id) .nil lo up c h = .done () h') ∧
      Holds before id n g h' ∧
      Rearranges lo up f g ∧ Le (g lo) (g up) := by
  have unfolded : ∀ c, Tables.orderEnds (.table id) .nil lo up c h =
      (Tables.get (.table id) lo c h).bind
          fun a h => (Tables.get (.table id) up c h).bind fun b h =>
        (Tables.before .nil b a c h).bind fun less h =>
          (if less then Tables.put₂ (.table id) lo up b a else pure () : Native Unit) c h :=
            fun _ => rfl
  by_cases less : Value.bytesLt (f up) (f lo) = true
  · obtain ⟨h', swapped, holds'⟩ := swap_eq holds (i := lo) (j := up) (by omega) (by omega) small
    refine ⟨h', _, fun c => ?_, holds',
      Rearranges.swap (i := lo) (j := up) (by omega) (by omega) f, ?_⟩
    · rw [unfolded, get_eq holds first (by omega) small, Step.bind,
        get_eq holds (by omega) last small, Step.bind, before_eq, Step.bind, if_pos less]
      exact swapped c
    · rw [Function.update_self, Function.update_of_ne (by omega), Function.update_self]
      exact .of_lt less
  · refine ⟨h, f, fun c => ?_, holds, .refl _ _ _, by simpa [Le] using less⟩
    rw [unfolded, get_eq holds first (by omega) small, Step.bind,
      get_eq holds (by omega) last small, Step.bind, before_eq, Step.bind, if_neg less]
    rfl

theorem orderMiddle_eq {p : Nat} (holds : Holds before id n f h) (small : n < 2 ^ 62)
    (first : 1 ≤ lo) (low : lo < p) (high : p < up) (last : up ≤ n) (ends : Le (f lo) (f up)) :
    ∃ h' g, (∀ c, Tables.orderMiddle (.table id) .nil lo p up c h = .done () h') ∧
      Holds before id n g h' ∧
      Rearranges lo up f g ∧ Le (g lo) (g p) ∧ Le (g p) (g up) := by
  have unfolded : ∀ c, Tables.orderMiddle (.table id) .nil lo p up c h =
      (Tables.get (.table id) p c h).bind fun m h => (Tables.get (.table id) lo c h).bind fun a h =>
        (Tables.before .nil m a c h).bind fun less h =>
          (if less then Tables.put₂ (.table id) p lo a m else (do
            let b ← Tables.get (.table id) up
            let more ← Tables.before .nil b m
            if more then Tables.put₂ (.table id) p up b m
              else pure ()) : Native Unit) c h := fun _ => rfl
  by_cases less : Value.bytesLt (f p) (f lo) = true
  · obtain ⟨h', swapped, holds'⟩ := swap_eq holds (i := p) (j := lo) (by omega) (by omega) small
    refine ⟨h', _, fun c => ?_, holds',
      Rearranges.swap (i := p) (j := lo) (by omega) (by omega) f, ?_, ?_⟩
    · rw [unfolded, get_eq holds (by omega) (by omega) small, Step.bind,
        get_eq holds first (by omega) small, Step.bind, before_eq, Step.bind, if_pos less]
      exact swapped c
    · rw [Function.update_self, Function.update_of_ne (by omega), Function.update_self]
      exact .of_lt less
    · rw [Function.update_of_ne (by omega), Function.update_self, Function.update_of_ne (by omega),
        Function.update_of_ne (by omega)]
      exact ends
  · have above : Le (f lo) (f p) := by simpa [Le] using less
    have further : ∀ c, (do
          let b ← Tables.get (.table id) up
          let more ← Tables.before .nil b (.string (f p))
          if more then Tables.put₂ (.table id) p up b (.string (f p))
            else pure () : Native Unit) c h =
        (Tables.get (.table id) up c h).bind
            fun b h => (Tables.before .nil b (.string (f p)) c h).bind fun more h =>
          (if more then Tables.put₂ (.table id) p up b (.string (f p)) else pure () : Native Unit) c
            h := fun _ => rfl
    by_cases more : Value.bytesLt (f up) (f p) = true
    · obtain ⟨h', swapped, holds'⟩ := swap_eq holds (i := p) (j := up) (by omega) (by omega) small
      refine ⟨h', _, fun c => ?_, holds',
        Rearranges.swap (i := p) (j := up) (by omega) (by omega) f, ?_, ?_⟩
      · rw [unfolded, get_eq holds (by omega) (by omega) small, Step.bind,
          get_eq holds first (by omega) small, Step.bind, before_eq, Step.bind, if_neg less,
          further, get_eq holds (by omega) last small, Step.bind, before_eq, Step.bind, if_pos more]
        exact swapped c
      · rw [Function.update_of_ne (by omega), Function.update_of_ne (by omega),
          Function.update_of_ne (by omega), Function.update_self]
        exact ends
      · rw [Function.update_self, Function.update_of_ne (by omega), Function.update_self]
        exact .of_lt more
    · refine ⟨h, f, fun c => ?_, holds, .refl _ _ _, above, by simpa [Le] using more⟩
      rw [unfolded, get_eq holds (by omega) (by omega) small, Step.bind,
        get_eq holds first (by omega) small, Step.bind, before_eq, Step.bind, if_neg less, further,
        get_eq holds (by omega) last small, Step.bind, before_eq, Step.bind, if_neg more]
      rfl

theorem movePivot_eq {p : Nat} (holds : Holds before id n f h) (small : n < 2 ^ 62)
    (first : 1 ≤ p) (high : p < up) (last : up ≤ n) :
    ∃ h', (∀ c, Tables.movePivot (.table id) p up c h = .done (.string (f p)) h') ∧
      Holds before id n (Function.update (Function.update f p (f (up - 1))) (up - 1) (f p)) h' := by
  have stop : ((up : Int) - 1) = ((up - 1 : Nat) : Int) := by omega
  have unfolded : ∀ c, Tables.movePivot (.table id) p up c h =
      (Tables.get (.table id) p c h).bind
          fun m h => (Tables.get (.table id) ((up : Int) - 1) c h).bind fun b h =>
        (Tables.put₂ (.table id) p ((up : Int) - 1) b m c h).bind fun _ h =>
          .done m h := fun _ => rfl
  obtain ⟨h', swapped, holds'⟩ := swap_eq holds (i := p) (j := up - 1) (by omega) (by omega) small
  refine ⟨h', fun c => ?_, holds'⟩
  rw [unfolded, get_eq holds first (by omega) small, Step.bind, stop,
    get_eq holds (by omega) (by omega) small, Step.bind, swapped]
  rfl

variable {g : Nat → ByteArray} {p lo' up' : Nat}

theorem Sorted.of_outside (sorted : Sorted lo up f) (r : Rearranges lo' up' f g)
    (apart : up < lo' ∨ up' < lo) :
    Sorted lo up g := by
  intro i j low order high
  rw [r.outside (k := i) (by omega), r.outside (k := j) (by omega)]
  exact sorted i j low order high

theorem Parted.left (parted : Parted lo up p pivot f) (r : Rearranges lo (p - 1) f g) :
    Parted lo up p pivot g := by
  have low := parted.low
  refine ⟨low, parted.high, ?_, fun k from_lo lt => ?_, fun k gt to_up => ?_⟩
  · rw [r.outside (by omega)]
    exact parted.here
  · exact r.keeps (p := fun a => Le a pivot) (fun k from_lo le => parted.below k from_lo (by omega))
      k from_lo (by omega)
  · rw [r.outside (by omega)]
    exact parted.above k gt to_up

theorem Parted.right (parted : Parted lo up p pivot f) (r : Rearranges (p + 1) up f g) :
    Parted lo up p pivot g := by
  refine ⟨parted.low, parted.high, ?_, fun k from_lo lt => ?_, fun k gt to_up => ?_⟩
  · rw [r.outside (by omega)]
    exact parted.here
  · rw [r.outside (by omega)]
    exact parted.below k from_lo lt
  · exact r.keeps (p := fun a => Le pivot a) (fun k ge to_up => parted.above k ge to_up) k gt to_up

theorem Parted.sorted (parted : Parted lo up p pivot f) (left : Sorted lo (p - 1) f)
    (right : Sorted (p + 1) up f) :
    Sorted lo up f := by
  have low := parted.low
  have to_pivot : ∀ k, lo ≤ k → k ≤ p → Le (f k) pivot := by
    intro k from_lo le
    rcases Nat.lt_or_eq_of_le le with lt | rfl
    · exact parted.below k from_lo lt
    · rw [parted.here]
      exact .refl _
  have from_pivot : ∀ k, p ≤ k → k ≤ up → Le pivot (f k) := by
    intro k ge to_up
    rcases Nat.lt_or_eq_of_le ge with gt | rfl
    · exact parted.above k gt to_up
    · rw [parted.here]
      exact .refl _
  intro i j from_lo order to_up
  by_cases both_left : j < p
  · exact left i j from_lo order (by omega)
  · by_cases both_right : p < i
    · exact right i j both_right order to_up
    · exact (to_pivot i from_lo (by omega)).trans (from_pivot j (by omega) to_up)

/-- Three entries in order with the middle one moved aside are ready to be parted around it. -/
theorem parting_of_moved (low : lo < p) (high : p + 1 < up) (low_end : Le (f lo) (f p))
    (high_end : Le (f p) (f up)) :
    Parting lo up lo (up - 1) (f p)
      (Function.update (Function.update f p (f (up - 1))) (up - 1) (f p)) := by
  refine ⟨by
    omega, by omega, by omega, by omega, by omega, fun k from_lo le => ?_, fun k ge to_up => ?_,
    Function.update_self _ _ _⟩
  · obtain rfl : k = lo := by omega
    rw [Function.update_of_ne (by omega), Function.update_of_ne (by omega)]
    exact low_end
  · obtain rfl | rfl : k = up - 1 ∨ k = up := by omega
    · rw [Function.update_self]
      exact .refl _
    · rw [Function.update_of_ne (by omega), Function.update_of_ne (by omega)]
      exact high_end

theorem part_eq (holds : Holds before id n f h) (small : n < 2 ^ 62) (first : 1 ≤ lo)
    (lt : lo < up) (last : up ≤ n) :
    ∃ (h' : Heap) (g : Nat → ByteArray), Holds before id n g h' ∧ Rearranges lo up f g ∧
      ((∀ c, Tables.part (.table id) .nil lo up c h = .done none h') ∧ Sorted lo up g ∨
        ∃ (p : Nat) (pivot : ByteArray),
          (∀ c, Tables.part (.table id) .nil lo up c h = .done (some (p : Int)) h') ∧
          Parted lo up p pivot g) := by
  obtain ⟨h₁, f₁, ends_run, holds₁, moved₁, ends⟩ := orderEnds_eq holds small first lt last
  have middle : ((lo : Int) + up) / 2 = ((lo + up) / 2 : Nat) := by omega
  have unfolded : ∀ c, Tables.part (.table id) .nil lo up c h =
      (Tables.orderEnds (.table id) .nil lo up c h).bind fun _ h =>
        (if (up : Int) - lo = 1 then return none else do
          Tables.orderMiddle (.table id) .nil lo (((lo : Int) + up) / 2) up
          if (up : Int) - lo = 2 then return none else do
            let pivot ← Tables.movePivot (.table id) (((lo : Int) + up) / 2) up
            return some
              (← Tables.partition (.table id) .nil pivot up
              (((up : Int) - lo).toNat + 1) lo (up - 1)) :
          Native (Option Int)) c h := fun _ => rfl
  by_cases two : up = lo + 1
  · refine ⟨h₁, f₁, holds₁, moved₁, .inl ⟨fun c => ?_, fun i j low order high => ?_⟩⟩
    · rw [unfolded, ends_run, Step.bind, if_pos (by omega)]
      rfl
    · obtain rfl | ⟨rfl, rfl⟩ : i = j ∨ i = lo ∧ j = up := by omega
      · exact .refl _
      · exact ends
  · obtain ⟨h₂, f₂, middle_run, holds₂, moved₂, low_end, high_end⟩ :=
      orderMiddle_eq (p := (lo + up) / 2) holds₁ small first (by omega) (by omega) last ends
    have further : ∀ c, (do
          Tables.orderMiddle (.table id) .nil lo ((lo + up) / 2 : Nat) up
          if (up : Int) - lo = 2 then return none else do
            let pivot ← Tables.movePivot (.table id) ((lo + up) / 2 : Nat) up
            return some
              (← Tables.partition (.table id) .nil pivot up
              (((up : Int) - lo).toNat + 1) lo (up - 1)) :
          Native (Option Int)) c h₁ =
        (Tables.orderMiddle (.table id) .nil lo ((lo + up) / 2 : Nat) up c h₁).bind fun _ h =>
          (if (up : Int) - lo = 2 then return none else do
            let pivot ← Tables.movePivot (.table id) ((lo + up) / 2 : Nat) up
            return some
              (← Tables.partition (.table id) .nil pivot up
              (((up : Int) - lo).toNat + 1) lo (up - 1)) :
            Native (Option Int)) c h := fun _ => rfl
    by_cases three : up = lo + 2
    · refine ⟨h₂, f₂, holds₂, moved₁.trans moved₂, .inl ⟨fun c => ?_, fun i j low order high => ?_⟩⟩
      · rw [unfolded, ends_run, Step.bind, middle, if_neg (by omega), further, middle_run,
          Step.bind, if_pos (by omega)]
        rfl
      · rw [show (lo + up) / 2 = lo + 1 by omega] at low_end high_end
        obtain rfl | rfl | rfl : i = lo ∨ i = lo + 1 ∨ i = lo + 2 := by omega
        · obtain rfl | rfl | rfl : j = i ∨ j = i + 1 ∨ j = i + 2 := by omega
          · exact .refl _
          · exact low_end
          · exact low_end.trans (three ▸ high_end)
        · obtain rfl | rfl : j = lo + 1 ∨ j = lo + 2 := by omega
          · exact .refl _
          · exact three ▸ high_end
        · obtain rfl : j = lo + 2 := by omega
          exact .refl _
    · obtain ⟨h₃, pivot_run, holds₃⟩ :=
        movePivot_eq (p := (lo + up) / 2) holds₂ small (by omega) (by omega) last
      have parting := parting_of_moved (p := (lo + up) / 2) (by omega) (by omega) low_end high_end
      have moved₃ := Rearranges.swap (by omega : lo ≤ (lo + up) / 2 ∧ (lo + up) / 2 ≤ up)
        (by omega : lo ≤ up - 1 ∧ up - 1 ≤ up) f₂
      obtain ⟨p, h₄, g, partition_run, holds₄, moved₄, parted⟩ :=
        partition_eq (((up : Int) - lo).toNat + 1) holds₃ small first last parting (by omega)
      have stop : ((up : Int) - 1) = ((up - 1 : Nat) : Int) := by omega
      have parts : ∀ c, (do
            let pivot ← Tables.movePivot (.table id) ((lo + up) / 2 : Nat) up
            return some
              (← Tables.partition (.table id) .nil pivot up
              (((up : Int) - lo).toNat + 1) lo (up - 1)) :
            Native (Option Int)) c h₂ =
          (Tables.movePivot (.table id) ((lo + up) / 2 : Nat) up c h₂).bind fun pivot h =>
            (Tables.partition (.table id) .nil pivot up (((up : Int) - lo).toNat + 1) lo
                (up - 1) c h).bind fun p h =>
              .done (some p) h := fun _ => rfl
      refine ⟨h₄, g, holds₄, ((moved₁.trans moved₂).trans moved₃).trans moved₄,
        .inr ⟨p, _, fun c => ?_, parted⟩⟩
      rw [unfolded, ends_run, Step.bind, middle, if_neg (by omega), further, middle_run, Step.bind,
        if_neg (by omega), parts, pivot_run, Step.bind, stop, partition_run]
      rfl

/-- A sort with this budget puts any range in order that is not wider. -/
def Sorts (before : Heap) (id : TableId) (n budget : Nat) : Prop :=
  ∀ (lo up : Nat) (f : Nat → ByteArray) (h : Heap), Holds before id n f h → 1 ≤ lo →
    up ≤ n → up < lo + budget →
    ∃ h' g, (∀ c, Tables.sortRange (.table id) .nil budget lo up c h = .done () h') ∧
      Holds before id n g h' ∧
      Rearranges lo up f g ∧ Sorted lo up g

/-- Both parts of a parted range are sorted, the shorter one first. -/
theorem sortParts_eq {budget : Nat} (sorts : Sorts before id n budget)
    (holds : Holds before id n f h) (first : 1 ≤ lo)
    (last : up ≤ n) (enough : up < lo + (budget + 1)) (parted : Parted lo up p pivot f) :
    ∃ h' g, (∀ c, (if (p : Int) - lo < up - p then do
          Tables.sortRange (.table id) .nil budget lo (p - 1)
          Tables.sortRange (.table id) .nil budget (p + 1) up
        else do
          Tables.sortRange (.table id) .nil budget (p + 1) up
          Tables.sortRange (.table id) .nil budget lo (p - 1) : Native Unit) c h = .done () h') ∧
      Holds before id n g h' ∧ Rearranges lo up f g ∧ Sorted lo up g := by
  have low := parted.low
  have high := parted.high
  have previous : (p : Int) - 1 = (p - 1 : Nat) := by omega
  rw [previous]
  by_cases shorter : (p : Int) - lo < up - p
  · obtain ⟨h₁, g₁, run₁, holds₁, moved₁, sorted₁⟩ :=
      sorts lo (p - 1) f h holds first (by omega) (by omega)
    obtain ⟨h₂, g₂, run₂, holds₂, moved₂, sorted₂⟩ :=
      sorts (p + 1) up g₁ h₁ holds₁ (by omega) last (by omega)
    refine ⟨h₂, g₂, fun c => ?_, holds₂, ?_, ?_⟩
    · rw [if_pos shorter]
      have both := congrArg (fun x : Step Unit => x.bind fun _ h =>
        Tables.sortRange (.table id) .nil budget ((p + 1 : Nat) : Int) up c h) (run₁ c)
      exact both.trans (run₂ c)
    · exact (moved₁.mono (by omega) (by omega)).trans (moved₂.mono (by omega) (by omega))
    · exact ((parted.left moved₁).right moved₂).sorted
        (sorted₁.of_outside moved₂ (by omega)) sorted₂
  · obtain ⟨h₁, g₁, run₁, holds₁, moved₁, sorted₁⟩ :=
      sorts (p + 1) up f h holds (by omega) last (by omega)
    obtain ⟨h₂, g₂, run₂, holds₂, moved₂, sorted₂⟩ :=
      sorts lo (p - 1) g₁ h₁ holds₁ first (by omega) (by omega)
    refine ⟨h₂, g₂, fun c => ?_, holds₂, ?_, ?_⟩
    · rw [if_neg shorter]
      have both := congrArg (fun x : Step Unit => x.bind fun _ h =>
        Tables.sortRange (.table id) .nil budget lo ((p - 1 : Nat) : Int) c h) (run₁ c)
      exact both.trans (run₂ c)
    · exact (moved₁.mono (by omega) (by omega)).trans (moved₂.mono (by omega) (by omega))
    · exact ((parted.right moved₁).left moved₂).sorted sorted₂
        (sorted₁.of_outside moved₂ (by omega))

theorem sorts_all (before : Heap) (id : TableId) (n budget : Nat) (small : n < 2 ^ 62) :
    Sorts before id n budget := by
  induction budget with
  | zero => exact fun lo up f h holds _ _ _ =>
    ⟨h, f, fun _ => rfl, holds, .refl _ _ _, fun i j low order high => by omega⟩
  | succ budget ih =>
    intro lo up f h holds first last enough
    by_cases lt : lo < up
    · have next : ∀ {found h₁}, (∀ c, Tables.part (.table id) .nil lo up c h = .done found h₁) →
          ∀ (f : Option Int → Native Unit) c, (Tables.part (.table id) .nil lo up >>= f) c h =
            f found c h₁ := by
        intro found h₁ run f c
        have unfolded : (Tables.part (.table id) .nil lo up >>= f) c h =
            (Tables.part (.table id) .nil lo up c h).bind fun found h => f found c h := rfl
        rw [unfolded, run, Step.bind]
      obtain ⟨h₁, f₁, holds₁, moved₁, ⟨run, sorted⟩ | ⟨p, pivot, run, parted⟩⟩ :=
        part_eq holds small first lt last
      · refine ⟨h₁, f₁, fun c => ?_, holds₁, moved₁, sorted⟩
        rw [Tables.sortRange, if_pos (by omega), next run]
        rfl
      · obtain ⟨h₂, g, parts_run, holds₂, moved₂, sorted⟩ :=
          sortParts_eq ih holds₁ first last enough parted
        refine ⟨h₂, g, fun c => ?_, holds₂, moved₁.trans moved₂, sorted⟩
        rw [Tables.sortRange, if_pos (by omega), next run]
        exact parts_run c
    · refine ⟨h, f, fun c => ?_, holds, .refl _ _ _, fun i j low order high => ?_⟩
      · rw [Tables.sortRange, if_neg (by omega)]
        rfl
      · obtain rfl : i = j := by omega
        exact .refl _

end Operations

section Lists

variable {h : Heap} {id : TableId} {texts : List (List UInt8)} {c : CallContext}

/-- Texts as strings of a script. -/
def strings (texts : List (List UInt8)) : List Value := texts.map fun t => .string (bytes t)

@[simp]
theorem length_strings : (strings texts).length = texts.length := List.length_map _

@[simp]
theorem getElem_strings {i : Nat} (inside : i < (strings texts).length) :
    (strings texts)[i] = .string (bytes (texts.get ⟨i, by rwa [length_strings] at inside⟩)) :=
  List.getElem_map _

theorem Sorted.pairwise {n : Nat} {g : Nat → ByteArray} (sorted : Sorted 1 n g) :
    ((List.range n).map fun i => codes (g (i + 1))).Pairwise (· ≤ ·) := by
  rw [List.pairwise_map]
  refine List.pairwise_lt_range.imp_of_mem fun {i j} _ mem lt => ?_
  have inside := List.mem_range.1 mem
  exact le_iff.1 (sorted (i + 1) (j + 1) (by omega) (by omega) (by omega))

theorem pairwise_sorted (texts : List (List UInt8)) : (Data.sorted texts).Pairwise (· ≤ ·) := by
  have total : ∀ s t : List UInt8, (decide (s ≤ t) || decide (t ≤ s)) = true := fun s t => by
    simpa using List.le_total s t
  have chained : ∀ s t u : List UInt8, decide (s ≤ t) = true → decide (t ≤ u) = true →
      decide (s ≤ u) = true :=
    fun _ _ _ first second =>
      decide_eq_true (List.le_trans (of_decide_eq_true first) (of_decide_eq_true second))
  have pairwise : (Data.sorted texts).Pairwise fun s t => decide (s ≤ t) = true :=
    List.pairwise_mergeSort chained total texts
  exact pairwise.imp of_decide_eq_true

theorem eq_sorted {listed : List (List UInt8)} (perm : listed.Perm texts)
    (ordered : listed.Pairwise (· ≤ ·)) :
    listed = Data.sorted texts :=
  List.Perm.eq_of_pairwise (fun _ _ _ _ => List.le_antisymm) ordered (pairwise_sorted texts)
    (perm.trans (Data.sorted_perm texts).symm)

theorem sort_sized (l : h.Lists id (strings texts)) (small : texts.length < 2 ^ 62)
    (c : CallContext) :
    Tables.sort [.table id] c h = (do
      if 1 < Int64.ofNat texts.length then
        if Int64.ofNat texts.length ≥ 0x7FFFFFFF then Native.badArgumentText 1 "array too big"
        if !Native.absent [.table id] 2 && !(Native.arg [.table id] 2).isFunction then
          Native.wrongType [.table id] 2 "function"
        Tables.sortRange (.table id) .nil ((Int64.ofNat texts.length).toInt.toNat + 1) 1
          (Int64.ofNat texts.length).toInt
      return [] : Native (List Value)) c h := by
  have size := l.size_done (c := c) (by rwa [length_strings])
  rw [length_strings] at size
  have unfolded : Tables.sort [.table id] c h = (Tables.size (.table id) c h).bind fun n h => (do
      if 1 < n then
        if n ≥ 0x7FFFFFFF then Native.badArgumentText 1 "array too big"
        if !Native.absent [.table id] 2 && !(Native.arg [.table id] 2).isFunction then
          Native.wrongType [.table id] 2 "function"
        Tables.sortRange (.table id) .nil (n.toInt.toNat + 1) 1 n.toInt
      return [] : Native (List Value)) c h := rfl
  rw [unfolded, size, Step.bind]

theorem sort_wide (l : h.Lists id (strings texts)) (small : texts.length < 2 ^ 62)
    (many : 0x7FFFFFFF ≤ texts.length)
    (c : CallContext) : ∃ s, Tables.sort [.table id] c h = .raise (.string s) h := by
  have count : (Int64.ofNat texts.length).toInt = texts.length :=
    Table.toInt_ofNat (by rw [arrayLimit]; omega)
  have more : (1 : Int64) < Int64.ofNat texts.length := by
    rw [Int64.lt_iff_toInt_lt, count]
    exact Int.ofNat_lt.2 (Nat.lt_of_lt_of_le (by decide) many)
  have wide : Int64.ofNat texts.length ≥ 0x7FFFFFFF := by
    rw [ge_iff_le, Int64.le_iff_toInt_le, count]
    exact Int.ofNat_le.2 many
  obtain ⟨s, refused⟩ := Native.badArgument_eq (α := PUnit) 1 (bytes (ascii "array too big")) c h
  have raised : ∀ k : PUnit → Native (List Value),
      (Native.badArgumentText 1 "array too big" >>= k) c h = .raise (.string s) h :=
    fun k => congrArg (fun x : Step PUnit => x.bind fun u h => k u c h) refused
  rw [sort_sized l small, if_pos more, if_pos wide]
  exact ⟨s, raised _⟩

theorem sort_eq (l : h.Lists id (strings texts)) (few : texts.length < 0x7FFFFFFF) :
    ∃ h', (∀ c, Tables.sort [.table id] c h = .done [] h') ∧
      h'.Lists id (strings (Data.sorted texts)) ∧
      Heap.ChangesOnly id h h' := by
  have sized := fun c => sort_sized l (by omega) c
  have count : (Int64.ofNat texts.length).toInt = texts.length :=
    Table.toInt_ofNat (by rw [arrayLimit]; omega)
  by_cases many : 1 < texts.length
  · have more : (1 : Int64) < Int64.ofNat texts.length := by
      rw [Int64.lt_iff_toInt_lt, count]
      exact Int.ofNat_lt.2 many
    have bounded : ¬Int64.ofNat texts.length ≥ 0x7FFFFFFF := by
      rw [ge_iff_le, Int64.le_iff_toInt_le, count]
      exact Int.not_le.2 (Int.ofNat_lt.2 few)
    let f : Nat → ByteArray := fun i => bytes (texts.getD (i - 1) [])
    have listed : ∀ g : Nat → ByteArray,
    ((List.range texts.length).map fun i => Value.string (g (i + 1))) =
        strings ((List.range texts.length).map fun i => codes (g (i + 1))) := by
      intro g
      rw [strings, List.map_map]
      exact List.map_congr_left fun i _ => by rw [Function.comp_apply, bytes_codes]
    have same : (List.range texts.length).map (fun i => codes (f (i + 1))) = texts := by
      refine List.ext_getElem (by simp) fun i _ inside => ?_
      simp [f, inside]
    obtain ⟨h', g, run, holds, moved, sorted⟩ :=
      sorts_all h id texts.length (texts.length + 1) (by omega) 1 texts.length
      f h ⟨by rw [listed, same]; exact l, .refl _ _⟩ (Nat.le_refl _) (Nat.le_refl _) (by omega)
    have perm := (moved.perm).map codes
    rw [List.map_map, List.map_map] at perm
    have order : ((List.range texts.length).map fun i => codes (g (i + 1))) = Data.sorted texts :=
      eq_sorted (perm.trans (.of_eq same)) sorted.pairwise
    refine ⟨h', fun c => ?_, ?_, holds.changes⟩
    · rw [sized, if_pos more, if_neg bounded, count, Int.toNat_natCast]
      exact congrArg (fun x : Step Unit => x.bind fun _ h => .done ([] : List Value) h) (run c)
    · rw [← order, ← listed]
      exact holds.list
  · refine ⟨h, fun c => ?_, ?_, .refl _ _⟩
    · have few : ¬(1 : Int64) < Int64.ofNat texts.length := by
        rw [Int64.lt_iff_toInt_lt, count]
        exact fun less => many (Int.ofNat_lt.1 less)
      rw [sized, if_neg few]
      rfl
    · have alone : texts.Pairwise (· ≤ ·) := by
        rcases texts with _ | ⟨t, _ | ⟨u, rest⟩⟩
        · exact .nil
        · exact List.pairwise_singleton _ t
        · exact absurd (by simp) many
      rw [← eq_sorted (.refl _) alone]
      exact l

end Lists

end Sorting

end SealedLua.Lua
