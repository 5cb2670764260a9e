import SealedLua.Proofs.Lua.Rendering
import SealedLua.Proofs.Lua.Raising

/-!
# Quoting by substitution

Substituting the code of each byte that a pattern finds quotes a string.  The
text that is written and what is left of the subject always make up the whole;
each round takes one byte that needs a code.
-/

namespace SealedLua.Lua.Quoting

open Pattern Text

/-- The pattern of the bytes that are written by their codes. -/
def pattern : List UInt8 := [91, 37, 99, 34, 92, 128, 45, 255, 93]

def special : Pattern.Class := .set [37, 99, 34, 92, 128, 45, 255]

theorem test_special (c : UInt8) : special.test c = escapes c := by
  have members : special.test c =
      (Ascii.isControl c ||
        ((34 : UInt8) == c ||
        ((92 : UInt8) == c || (decide (128 ≤ c) && decide (c ≤ 255) || false)))) := rfl
  have top : decide (c ≤ 255) = true :=
    decide_eq_true (UInt8.le_iff_toNat_le.2 (Nat.le_of_lt_succ c.toNat_lt))
  have quote : ((34 : UInt8) == c) = (c == 34) := BEq.comm
  have slash : ((92 : UInt8) == c) = (c == 92) := BEq.comm
  rw [members, quote, slash, top, Bool.and_true, Bool.or_false, escapes,
    Bool.or_assoc, Bool.or_assoc]

theorem matchAt_pattern (s : ByteArray) (i : Nat) :
    matchAt s pattern i = .ok (if special.testAt s i then some (i + 1, []) else none) := by
  have unfolded : matchAt s pattern i = if special.testAt s i then .ok (some (i + 1, []))
    else .ok none := rfl
  rw [unfolded]
  split <;> rfl

def left (s : ByteArray) (i : Nat) : List UInt8 := (codes s).drop i

theorem left_of_lt {s : ByteArray} {i : Nat} (h : i < s.size) :
    left s i = s[i] :: left s (i + 1) := drop_codes h

theorem left_end (s : ByteArray) : left s s.size = [] := List.drop_eq_nil_of_le (by simp)

/-- The text that is written in the end, if every byte that is left is quoted. -/
def whole (s : ByteArray) (p : Text.Progress) : List UInt8 :=
  codes p.written ++ (left s p.place).flatMap byte

/-- Passing bytes leaves the whole as it is, and ends at the first byte that needs
its code, or at the end of the subject if there is none. -/
theorem passToMatch_pattern {s : ByteArray} {p : Text.Progress} (budget : Nat)
    (inside : p.place ≤ s.size)
    (enough : s.size < p.place + budget) (behind : ∀ e, p.lastEnd = some e → e ≤ p.place) :
    ∃ (q : Text.Progress) (found : Option (Nat × Captures)),
      passToMatch s pattern false budget p = .ok (q, found) ∧
      whole s q = whole s p ∧ q.count = p.count ∧ p.place ≤ q.place ∧
      (found = none ∧ q.place = s.size ∧ (left s p.place).any escapes = false ∨
        found = some (q.place + 1, []) ∧ ∃ h : q.place < s.size, escapes s[q.place] = true) := by
  induction budget generalizing p with
  | zero => omega
  | succ budget ih =>
    have matched : (if special.testAt s p.place then some (p.place + 1, [])
        else (none : Option (Nat × Captures))).filter
        (fun m => p.lastEnd != some m.1) = if special.testAt s p.place then some (p.place + 1, [])
        else none := by
      split
      · rw [Option.filter_some_pos]
        rw [bne_iff_ne]
        intro eq
        have := behind _ eq
        omega
      · rfl
    unfold passToMatch
    rw [matchAt_pattern]
    simp only [bind, Except.bind, matched]
    by_cases inside : p.place < s.size
    · have test : special.testAt s p.place = escapes s[p.place] := by
        rw [Pattern.Class.testAt, dif_pos inside, test_special]
      rw [test]
      by_cases special : escapes s[p.place] = true
      · rw [if_pos special]
        exact ⟨p, _, rfl, rfl, rfl, Nat.le_refl _, .inr ⟨rfl, inside, special⟩⟩
      · rw [if_neg special]
        simp only [dif_pos inside, Bool.false_eq_true, if_false]
        obtain ⟨q, found, run, same, count, le, ends⟩ :=
          ih (p := { p with place := p.place + 1, written := p.written.push s[p.place] })
            inside (by simp only; omega) fun e eq => Nat.le_succ_of_le (behind e eq)
        refine ⟨q, found, run, same.trans ?_, count, Nat.le_of_succ_le le, ends.imp_left ?_⟩
        · simp only [whole, left_of_lt inside, List.flatMap_cons, byte, special,
            codes_push, List.append_assoc]
          rfl
        · rintro ⟨unescaped, last, plain⟩
          refine ⟨unescaped, last, ?_⟩
          rw [left_of_lt inside, List.any_cons, Bool.eq_false_iff.2 special, Bool.false_or, plain]
    · have ends : p.place = s.size := by omega
      have test : special.testAt s p.place = false := by rw [Pattern.Class.testAt, dif_neg inside]
      rw [test]
      simp only [dif_neg inside, Bool.false_eq_true, if_false]
      refine ⟨p, none, rfl, rfl, rfl, Nat.le_refl _, .inl ⟨rfl, ends, ?_⟩⟩
      rw [ends, left_end, List.any_nil]

/-- How many calls deep a string is quoted: the substitution is one, and the
codes of bytes need another. -/
def calls (s : List UInt8) : Nat := if s.any escapes then 2 else 1

theorem calls_pos (s : List UInt8) : 1 ≤ calls s := by
  unfold calls
  split <;> omega

theorem calls_of_escapes {s : List UInt8} {c : UInt8} (mem : c ∈ s) (special : escapes c = true) :
    calls s = 2 :=
  if_pos (List.any_eq_true.2 ⟨c, mem, special⟩)

/-- How many calls of built-in functions deep: the substitution makes one if it
asks for the code of a byte. -/
def nested (s : List UInt8) : Nat := if s.any escapes then 1 else 0

theorem nested_le_one (s : List UInt8) : nested s ≤ 1 := by
  unfold nested
  split <;> omega

theorem nested_of_escapes {s : List UInt8} {c : UInt8} (mem : c ∈ s) (special : escapes c = true) :
    nested s = 1 :=
  if_pos (List.any_eq_true.2 ⟨c, mem, special⟩)

section Rounds

variable {depth : Depth} {s : ByteArray} {id : ClosureId} {holds : Heap → Prop} {h : Heap}

/-- A function gives the code of every byte of a string that needs one, and what
holds of the heap stays so. -/
def Encodes (depth : Depth) (id : ClosureId) (s : ByteArray) (holds : Heap → Prop) : Prop :=
  ∀ c ∈ codes s, ∀ h, escapes c = true → holds h →
    ∃ h', Returns depth ⟨.closure id, [.string (bytes [c])], Site.native⟩ h
    [.string (bytes (92 :: digits c))] h' ∧ holds h'

theorem extract_one {i : Nat} (inside : i < s.size) : s.extract i (i + 1) = bytes [s[i]] := by
  apply codes_injective
  rw [codes_bytes, codes_extract, drop_codes inside, Nat.add_sub_cancel_left]
  rfl

/-- There is room for the function, if any byte of a string needs its code. -/
def Room (depth : Depth) (s : ByteArray) : Prop :=
  ∀ c ∈ codes s, escapes c = true → (depth.enter Site.native).Admits 0 0

theorem gives_replacement {i : Nat} (inside : i < s.size) (special : escapes s[i] = true)
    (room : Room depth s) (encodes : Encodes (depth.enter Site.native) id s holds) (now : holds h) :
    ∃ h', (∀ context, Gives depth (replacement s (.closure id) i (i + 1) [] context h)
      (some (bytes (byte s[i]))) h') ∧
      holds h' := by
  have among : s[i] ∈ codes s :=
    List.mem_of_mem_drop (i := i) (drop_codes inside ▸ List.mem_cons_self)
  obtain ⟨h', returns, later⟩ := encodes s[i] among h special now
  rw [← extract_one inside] at returns
  refine ⟨h', fun context => ?_, later⟩
  have code : byte s[i] = 92 :: digits s[i] := by rw [byte, if_pos special]
  rw [code]
  exact Gives.call (room s[i] among special) returns (Gives.done _ _)

theorem replaceFrom_pass {p q : Text.Progress} {found : Option (Nat × Captures)} {limit : Int}
    (id : ClosureId) (budget : Nat) (below : ¬limit ≤ (p.count : Int))
    (pass : passToMatch s pattern false (s.size + 2) p = .ok (q, found)) :
    replaceFrom s pattern false (.closure id) limit (budget + 1) p = (do
      match found with
      | none => return q
      | some (e, captures) =>
        let text ← replacement s (.closure id) q.place e captures
        replaceFrom s pattern false (.closure id) limit budget
          ⟨e, some e, q.written ++ text.getD (s.extract q.place e), q.count + 1⟩) := by
  rw [replaceFrom, if_neg below, pass, orFail, pure_bind]
  cases found <;> rfl

theorem gives_replaceFrom {p : Text.Progress} {limit : Int} (budget : Nat)
    (inside : p.place ≤ s.size) (enough : s.size < p.place + budget)
    (behind : ∀ e, p.lastEnd = some e → e ≤ p.place) (few : p.count ≤ p.place)
    (many : (s.size : Int) < limit) (room : Room depth s)
    (encodes : Encodes (depth.enter Site.native) id s holds) (now : holds h) :
    ∃ q h',
      (∀ context, Gives depth (replaceFrom s pattern false (.closure id) limit budget p context h) q
        h') ∧ holds h' ∧
      whole s q = whole s p ∧ q.place = s.size := by
  induction budget generalizing p h with
  | zero => omega
  | succ budget ih =>
    have below : ¬limit ≤ (p.count : Int) := by omega
    obtain ⟨q, found, pass, same, count, le, ends⟩ :=
      passToMatch_pattern (p := p) (s.size + 2) inside (by omega) behind
    rw [replaceFrom_pass id budget below pass]
    rcases ends with ⟨rfl, last, -⟩ | ⟨rfl, inside, special⟩
    · exact ⟨q, h, fun _ => .done q h, now, same, last⟩
    · obtain ⟨h₁, replaced, later⟩ := gives_replacement inside special room encodes now
      let next : Text.Progress :=
        ⟨q.place + 1, some (q.place + 1), q.written ++ bytes (byte s[q.place]), q.count + 1⟩
      obtain ⟨r, h₂, rest, last, same', ends⟩ :=
        ih (p := next) (h := h₁) inside (by simp only [next]; omega)
        (fun e eq => Nat.le_of_eq (Option.some.inj eq).symm) (by simp only [next]; omega) later
      refine ⟨r, h₂, fun context => (replaced context).bind (rest context), last,
        same'.trans (Eq.trans ?_ same), ends⟩
      simp only [whole, next, codes_append, codes_bytes, left_of_lt inside,
        List.flatMap_cons, List.append_assoc]

theorem gives_gsub (room : Room depth s) (encodes : Encodes (depth.enter Site.native) id s holds)
    (now : holds h) :
    ∃ n h',
      (∀ context, Gives depth (gsub [.string s, .string (bytes pattern), .closure id] context h)
      [.string (bytes ((codes s).flatMap byte)), n] h') ∧ holds h' := by
  let start : Text.Progress := ⟨0, none, bytes [], 0⟩
  obtain ⟨q, h', run, later, same, ends⟩ :=
    gives_replaceFrom (s := s) (p := start) (s.size + 2) (Nat.zero_le _)
      (by simp only [start]; omega) (by simp [start])
      (Nat.le_refl 0) (Int.lt_add_one_of_le (Int.le_refl s.size)) room encodes now
  refine ⟨.integer (Int64.ofNat q.count), h', fun context => ?_, later⟩
  have text : q.written ++ s.extract q.place s.size = bytes ((codes s).flatMap byte) := by
    have none_left : left s q.place = [] := by rw [ends, left_end]
    have nothing : codes (s.extract q.place s.size) = [] := by
      rw [codes_extract, ends, Nat.sub_self, List.take_zero]
    rw [whole, none_left, List.flatMap_nil, List.append_nil] at same
    apply codes_injective
    rw [codes_append, nothing, List.append_nil, same, codes_bytes]
    rfl
  rw [← text]
  exact (run context).bind (.done _ _)

/-- The substitution ends at the first byte that needs a code, if the call for it raises a text. -/
theorem raises_gsub (special : (codes s).any escapes = true)
    (raises : ∀ c, ∃ h', (∀ k : List Value → Heap → Step (Option ByteArray),
      Raises depth (.call ⟨.closure id, [.string (bytes [c])], Site.native⟩ h k) h') ∧ holds h') :
    ∃ h', (∀ context,
      Raises depth (gsub [.string s, .string (bytes pattern), .closure id] context h) h') ∧
        holds h' := by
  let start : Text.Progress := ⟨0, none, bytes [], 0⟩
  obtain ⟨q, found, pass, -, -, -, ends⟩ :=
    passToMatch_pattern (s := s) (p := start) (s.size + 2) (Nat.zero_le _)
      (by simp only [start]; omega) (by simp [start])
  rcases ends with ⟨-, -, plain⟩ | ⟨rfl, inside, -⟩
  · rw [left, List.drop_zero, special] at plain
    cases plain
  obtain ⟨h', raises, later⟩ := raises s[q.place]
  rw [← extract_one inside] at raises
  have below : ¬(s.size : Int) + 1 ≤ (start.count : Int) := by simp only [start]; omega
  refine ⟨h', fun context => ?_, later⟩
  have replaced : Raises depth (replacement s (.closure id) q.place (q.place + 1) [] context h)
    h' := raises _
  have rounds : Raises depth (replaceFrom s pattern false (.closure id) (s.size + 1) (s.size + 2)
      start context h) h' := by
    rw [replaceFrom_pass id (s.size + 1) below pass]
    exact replaced.first
  exact rounds.first

end Rounds

end SealedLua.Lua.Quoting
