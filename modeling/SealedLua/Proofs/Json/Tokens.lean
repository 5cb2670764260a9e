import SealedLua.Proofs.Json.Grammar

/-!
# The tokens of a JSON text

What the grammar says is a text, a number or a word is read as one token, whatever
comes after it, and blanks are passed over.  Of a list or an object the first token
is enough: a list of values or an object where a single value is expected is refused
at its first bracket.
-/

namespace SealedLua.Json

theorem hexDigit?_eq {v : Nat} {c : Char} (h : HexDigit v c) : hexDigit? c = some v := by
  obtain ⟨hv, hc⟩ := h
  have hall : ∀ v < 16, hexDigit? (Nat.digitChar v) = some v ∧
    hexDigit? (Nat.digitChar v).toUpper = some v := by decide
  rcases hc with rfl | rfl
  · exact (hall v hv).1
  · exact (hall v hv).2

namespace FourDigits

variable {ds : List Char} {n : Nat} (h : FourDigits ds n)

include h

theorem length : ds.length = 4 := by
  obtain ⟨_, _, _, _⟩ := h
  rfl

theorem read (rest : List Char) : fourDigits (ds ++ rest) = .ok n := by
  obtain ⟨ha, hb, hc, hd⟩ := h
  simp [fourDigits, hexDigit?_eq ha, hexDigit?_eq hb, hexDigit?_eq hc, hexDigit?_eq hd, Ascii.value]

end FourDigits

theorem readCode_whole {ds : List Char} {n : Nat} (h : FourDigits ds n)
    (whole : n < 0xD800 ∨ 0xE000 ≤ n)
    (rest : List Char) : readCode (ds ++ rest) = .ok (Char.ofNat n, 4) := by
  have hlow : isLow n = false := by
    simp only [isLow, Bool.and_eq_false_iff, decide_eq_false_iff_not]
    omega
  have hhigh : isHigh n = false := by
    simp only [isHigh, Bool.and_eq_false_iff, decide_eq_false_iff_not]
    omega
  simp [readCode, h.read, hlow, hhigh, bind, Except.bind]

theorem readCode_pair {high low : List Char} {m n : Nat} (first : FourDigits high m)
    (isHigh_m : 0xD800 ≤ m ∧ m < 0xDC00)
    (second : FourDigits low n) (isLow_n : 0xDC00 ≤ n ∧ n < 0xE000) (rest : List Char) :
    readCode (high ++ '\\' :: 'u' :: low ++ rest) =
      .ok (Char.ofNat (0x10000 + (m - 0xD800) * 0x400 + (n - 0xDC00)), 10) := by
  have hlow : isLow m = false := by
    simp only [isLow, Bool.and_eq_false_iff, decide_eq_false_iff_not]
    omega
  have hhigh : isHigh m = true := by
    simp only [isHigh, Bool.and_eq_true, decide_eq_true_eq]
    omega
  have hlow' : isLow n = true := by
    simp only [isLow, Bool.and_eq_true, decide_eq_true_eq]
    omega
  have hdrop : (high ++ '\\' :: 'u' :: low ++ rest).drop 4 = '\\' :: 'u' :: (low ++ rest) := by
    rw [← first.length, List.append_assoc, List.drop_left]
    rfl
  have hfirst := first.read ('\\' :: 'u' :: low ++ rest)
  rw [← List.append_assoc] at hfirst
  simp only [readCode, hfirst, bind, Except.bind, hlow, hhigh, hdrop, second.read, hlow']
  rfl

theorem readEscape_short {letter c : Char} (h : (letter, c) ∈ shortEscapes) (rest : List Char) :
    readEscape (letter :: rest) = .ok (c, 1) := by
  simp only [shortEscapes, List.mem_cons, Prod.mk.injEq, List.not_mem_nil, or_false] at h
  rcases h with ⟨rfl, rfl⟩ | ⟨rfl, rfl⟩ | ⟨rfl, rfl⟩ | ⟨rfl, rfl⟩ | ⟨rfl, rfl⟩ | ⟨rfl, rfl⟩ |
    ⟨rfl, rfl⟩ | ⟨rfl, rfl⟩ <;> rfl

theorem readEscape_code {s rest : List Char} {c : Char} {n : Nat}
    (h : readCode (s ++ rest) = .ok (c, n)) :
    readEscape ('u' :: s ++ rest) = .ok (c, n + 1) := by
  rw [List.cons_append, readEscape, h]

theorem readText_escape (s rest : List Char) {c : Char}
    (h : readEscape (s ++ rest) = .ok (c, s.length)) :
    readText ('\\' :: s ++ rest) = (readText rest).cons c := by
  rw [List.cons_append, readText, if_neg (by decide), if_pos rfl, h]
  simp only [List.drop_left]

theorem readText_eq {s t : List Char} (h : SpellsText s t) (rest : List Char) :
    readText (s ++ '"' :: rest) = .ok (t, rest) := by
  induction h with
  | nil =>
    rw [List.nil_append, readText, if_pos rfl]
  | @plain c s t ordinary _ ih =>
    obtain ⟨hquote, hslash, hcontrol⟩ := ordinary
    rw [List.cons_append, readText, if_neg hquote, if_neg hslash,
      if_neg (UInt32.not_lt.2 hcontrol), ih]
    rfl
  | @short letter c s t escape _ ih =>
    have hread := readEscape_short escape (s ++ '"' :: rest)
    have hgo := readText_escape [letter] (s ++ '"' :: rest) hread
    simp only [List.cons_append, List.nil_append] at hgo ⊢
    rw [hgo, ih]
    rfl
  | @code digits s t n escape whole _ ih =>
    have hread := readEscape_code (readCode_whole escape whole (s ++ '"' :: rest))
    have hgo := readText_escape ('u' :: digits) (s ++ '"' :: rest) (c := Char.ofNat n)
      (by rw [hread, List.length_cons, escape.length])
    simp only [List.cons_append, List.append_assoc] at hgo ⊢
    rw [hgo, ih]
    rfl
  | @pair high low s t m n first isHigh second isLow _ ih =>
    have hlength : (high ++ '\\' :: 'u' :: low).length = 10 := by
      simp [first.length, second.length]
    have hread := readEscape_code (s := high ++ '\\' :: 'u' :: low)
      (readCode_pair first isHigh second isLow (s ++ '"' :: rest))
    have hgo := readText_escape ('u' :: (high ++ '\\' :: 'u' :: low)) (s ++ '"' :: rest)
      (c := Char.ofNat (0x10000 + (m - 0xD800) * 0x400 + (n - 0xDC00)))
      (by rw [hread, List.length_cons, hlength])
    simp only [List.cons_append, List.append_assoc] at hgo ⊢
    rw [hgo, ih]
    rfl

/-- A text without quotes, backslashes and control characters spells itself. -/
theorem SpellsText.self {s : List Char} (h : ∀ c ∈ s, c ≠ '"' ∧ c ≠ '\\' ∧ 32 ≤ c.val) :
    SpellsText s s := by
  induction s with
  | nil => exact .nil
  | cons c s ih =>
    exact .plain (h c List.mem_cons_self) (ih fun d hd => h d (List.mem_cons_of_mem _ hd))

namespace Number

/-- What comes after a number does not belong to it. -/
def Ends (rest : List Char) : Prop := ∀ c ∈ rest.head?, c.isDigit = false ∧
    c ≠ '.' ∧ c ≠ 'e' ∧ c ≠ 'E'

/-- A number that is no whole one without a sign, or none at all. -/
def NotNatural (r : Reading NumberFault Number) : Prop := ∀ n rest, r ≠ .ok (.natural n, rest)

theorem notNatural_error (e : NumberFault × List Char) : NotNatural (.error e) := fun _ _ => nofun

theorem notNatural_double (x : Double) (rest : List Char) : NotNatural (.ok (.double x, rest)) :=
  fun _ _ => nofun

theorem notNatural_scaledAt (isNegative : Bool) (significand : Nat)
    (power : Int) (rest : List Char) :
    NotNatural (scaledAt isNegative significand power rest) := by
  unfold scaledAt
  split
  · exact notNatural_double _ _
  · exact notNatural_error _

theorem notNatural_readExponent (isNegative : Bool) (significand : Nat)
    (power : Int) (text : List Char) :
    NotNatural (readExponent isNegative significand power text) := by
  unfold readExponent
  dsimp only
  split
  · exact notNatural_error _
  · -- The sign decides the power, and not what kind of number comes out.
    repeat' split
    all_goals first
      | exact notNatural_error _
      | exact notNatural_double _ _
      | exact notNatural_scaledAt _ _ _ _

theorem notNatural_readAfterDigits (isNegative : Bool) (significand : Nat)
    (power : Int) (text : List Char) :
    NotNatural (readAfterDigits isNegative significand power text) := by
  unfold readAfterDigits
  split
  · exact notNatural_readExponent _ _ _ _
  · exact notNatural_readExponent _ _ _ _
  · exact notNatural_scaledAt _ _ _ _

theorem notNatural_readFraction (isNegative : Bool) (significand : Nat)
    (power : Int) (text : List Char) :
    NotNatural (readFraction isNegative significand power text) := by
  unfold readFraction
  dsimp only
  split
  · split <;> exact notNatural_error _
  · exact notNatural_readAfterDigits _ _ _ _

theorem notNatural_readLong (isNegative : Bool) (n : Nat) (text : List Char) :
    NotNatural (readLong isNegative n text) := by
  unfold readLong
  dsimp only
  split
  · exact notNatural_readFraction _ _ _ _
  · exact notNatural_readAfterDigits _ _ _ _

/-- A number with a sign, a fraction or an exponent is none without. -/
theorem notNatural_readAfterWhole {isNegative : Bool} {n : Nat} {text : List Char}
    (h : isNegative = true ∨ ∃ c rest, text = c :: rest ∧ (c = '.' ∨ c = 'e' ∨ c = 'E')) :
    NotNatural (readAfterWhole isNegative n text) := by
  unfold readAfterWhole
  split
  · exact notNatural_readFraction _ _ _ _
  · exact notNatural_readExponent _ _ _ _
  · exact notNatural_readExponent _ _ _ _
  · next point mark mark' =>
    rcases h with rfl | ⟨c, rest, rfl, rfl | rfl | rfl⟩
    · intro m rest h
      unfold ofWhole at h
      simp only [Bool.not_true, Bool.false_eq_true, if_false] at h
      split at h <;> cases h
    · exact absurd rfl (point rest)
    · exact absurd rfl (mark rest)
    · exact absurd rfl (mark' rest)

/-- A number that is long or has a sign, a fraction or an exponent is no whole one. -/
theorem notNatural_readUnsigned {isNegative : Bool} {text : List Char}
    (zero : ∀ rest, text = '0' :: rest → NotNatural (readAfterWhole isNegative 0 rest))
    (fits : startsWithDigit (takeFitting 0 0 text).rest = false →
      NotNatural (readAfterWhole isNegative (takeFitting 0 0 text).value
        (takeFitting 0 0 text).rest)) :
    NotNatural (readUnsigned isNegative text) := by
  unfold readUnsigned
  split
  · exact notNatural_error _
  · next rest =>
    split
    · split
      · exact notNatural_error _
      · exact zero _ rfl
    · exact zero _ rfl
  · split
    · exact notNatural_error _
    · dsimp only
      split
      · exact notNatural_readLong _ _ _
      · next short => exact fits (by simpa using short)

theorem notNatural_negative (text : List Char) : NotNatural (readUnsigned true text) :=
  notNatural_readUnsigned (fun _ _ => notNatural_readAfterWhole (.inl rfl)) fun _ =>
    notNatural_readAfterWhole (.inl rfl)

/-- The number that comes of more digits after a number. -/
def continued (value : Nat) (ds : List Char) : Nat :=
  ds.foldl (fun n c => n * 10 + (c.toNat - 48)) value

theorem decimal_eq (ds : List Char) : decimal ds = continued 0 ds := by
  rw [decimal, Ascii.value, List.foldl_map, continued]

theorem le_continued (value : Nat) (ds : List Char) : value ≤ continued value ds := by
  induction ds generalizing value with
  | nil => exact Nat.le_refl value
  | cons c ds ih =>
    have := ih (value * 10 + (c.toNat - 48))
    rw [continued, List.foldl_cons]
    rw [continued] at this
    omega

variable {ds rest : List Char}

theorem takeFitting_end {value count : Nat} (ends : ∀ c ∈ rest.head?, c.isDigit = false) :
    takeFitting value count rest = ⟨value, count, rest⟩ := by
  cases rest with
  | nil => rfl
  | cons c rest =>
    have hc : c.isDigit = false := ends c rfl
    simp [takeFitting, hc]

theorem takeFitting_fits (digits : ∀ c ∈ ds, c.isDigit = true)
    (ends : ∀ c ∈ rest.head?, c.isDigit = false)
    {value count : Nat} (fits : continued value ds < bound) :
    takeFitting value count (ds ++ rest) = ⟨continued value ds, count + ds.length, rest⟩ := by
  induction ds generalizing value count with
  | nil => exact takeFitting_end ends
  | cons c ds ih =>
    have hnext : value * 10 + (c.toNat - 48) < bound := Nat.lt_of_le_of_lt (le_continued _ ds) fits
    have hrest : takeFitting (value * 10 + (c.toNat - 48)) (count + 1) (ds ++ rest) =
        ⟨continued (value * 10 + (c.toNat - 48)) ds, count + 1 + ds.length, rest⟩ :=
      ih (fun d hd => digits d (List.mem_cons_of_mem _ hd)) fits
    rw [List.cons_append, takeFitting]
    simp only [digits c List.mem_cons_self, hnext, decide_true, Bool.and_self, if_true, hrest]
    rw [List.length_cons, continued, continued, List.foldl_cons, Nat.add_assoc, Nat.add_comm 1]

theorem takeFitting_long (digits : ∀ c ∈ ds, c.isDigit = true)
    {value count : Nat} (small : value < bound) (long : bound ≤ continued value ds) :
    startsWithDigit (takeFitting value count (ds ++ rest)).rest = true := by
  induction ds generalizing value count with
  | nil => exact absurd small (Nat.not_lt.2 long)
  | cons c ds ih =>
    have hc := digits c List.mem_cons_self
    rw [List.cons_append, takeFitting]
    by_cases hnext : value * 10 + (c.toNat - 48) < bound
    · simp only [hc, hnext, decide_true, Bool.and_self, if_true]
      exact ih (fun d hd => digits d (List.mem_cons_of_mem _ hd)) hnext long
    · simp only [hc, hnext, decide_false, Bool.and_false, Bool.false_eq_true, if_false]
      exact hc

theorem readAfterWhole_ends (ends : Ends rest) (n : Nat) :
    readAfterWhole false n rest = .ok (.natural n, rest) := by
  unfold readAfterWhole
  split
  · exact absurd rfl (ends _ rfl).2.1
  · exact absurd rfl (ends _ rfl).2.2.1
  · exact absurd rfl (ends _ rfl).2.2.2
  · rfl

theorem ne_minus {s : List Char} (digits : Digits s) (rest : List Char) :
    ∀ more, s ++ rest ≠ '-' :: more := by
  obtain ⟨hne, hdigits⟩ := digits
  obtain ⟨c, s, rfl⟩ := List.exists_cons_of_ne_nil hne
  intro more h
  cases h
  exact absurd (hdigits '-' List.mem_cons_self) (by decide)

theorem read_digits {s : List Char} (digits : Digits s) (rest : List Char) :
    read (s ++ rest) = readUnsigned false (s ++ rest) := by
  unfold read
  split
  · next more h => exact absurd h (ne_minus digits rest more)
  · rfl

theorem read_whole {s : List Char} (whole : Whole s) (ends : Ends rest) (fits : decimal s < bound) :
    read (s ++ rest) = .ok (.natural (decimal s), rest) := by
  have hends : ∀ c ∈ rest.head?, c.isDigit = false := fun c hc => (ends c hc).1
  rw [read_digits whole.1]
  obtain ⟨⟨hne, hdigits⟩, hzero⟩ := whole
  obtain ⟨c, s, rfl⟩ := List.exists_cons_of_ne_nil hne
  by_cases hc : c = '0'
  · subst hc
    obtain ⟨rfl⟩ : s = [] := by simpa using hzero rfl
    have hread := readAfterWhole_ends ends 0
    cases rest with
    | nil => exact hread
    | cons d rest =>
      have hd : d.isDigit = false := hends d rfl
      simp only [List.cons_append, List.nil_append, readUnsigned, hd, Bool.false_eq_true, if_false]
      exact hread
  · have htake : takeFitting 0 0 (c :: s ++ rest) =
        ⟨decimal (c :: s), 0 + (c :: s).length, rest⟩ := by
      rw [decimal_eq] at fits ⊢
      exact takeFitting_fits hdigits hends fits
    have hstart : startsWithDigit rest = false := by
      cases rest with
      | nil => rfl
      | cons d rest => exact hends d rfl
    rw [List.cons_append] at htake ⊢
    unfold readUnsigned
    split
    · next h => cases h
    · next h => exact absurd (List.cons.inj h).1 hc
    · next c' rest' _ h =>
      cases h
      simp only [hdigits c List.mem_cons_self, Bool.not_true, Bool.false_eq_true,
        if_false, htake, hstart]
      exact readAfterWhole_ends ends _

theorem notNatural_long {s : List Char} (whole : Whole s) (rest : List Char)
    (long : bound ≤ decimal s) :
    NotNatural (read (s ++ rest)) := by
  rw [read_digits whole.1]
  obtain ⟨⟨hne, hdigits⟩, hzero⟩ := whole
  rw [decimal_eq] at long
  refine notNatural_readUnsigned ?_ ?_
  · intro more h
    obtain ⟨c, s, rfl⟩ := List.exists_cons_of_ne_nil hne
    cases h
    have hs := hzero rfl
    rw [hs] at long
    exact absurd long (by decide)
  · intro h
    rw [takeFitting_long hdigits (by decide) long] at h
    cases h

/-- Digits that a fraction or an exponent follows are no whole number. -/
theorem notNatural_mixed {s : List Char} (whole : Whole s) {mark : Char} (more : List Char)
    (hmark : mark = '.' ∨ mark = 'e' ∨ mark = 'E') : NotNatural (read (s ++ mark :: more)) := by
  have hends : ∀ c ∈ (mark :: more).head?, c.isDigit = false := by
    rintro c ⟨⟩
    rcases hmark with rfl | rfl | rfl <;> decide
  rw [read_digits whole.1]
  obtain ⟨⟨hne, hdigits⟩, hzero⟩ := whole
  refine notNatural_readUnsigned ?_ ?_
  · intro rest h
    obtain ⟨c, s, rfl⟩ := List.exists_cons_of_ne_nil hne
    obtain ⟨rfl, hs⟩ := List.cons.inj h
    have hnil : s = [] := by simpa using hzero rfl
    rw [hnil, List.append_eq, List.nil_append] at hs
    exact notNatural_readAfterWhole (.inr ⟨mark, more, hs.symm, hmark⟩)
  · intro h
    by_cases fits : continued 0 s < bound
    · rw [takeFitting_fits hdigits hends fits]
      exact notNatural_readAfterWhole (.inr ⟨mark, more, rfl, hmark⟩)
    · rw [takeFitting_long hdigits (by decide) (Nat.not_lt.1 fits)] at h
      cases h

theorem notNatural_signed {s : List Char} (h : Signed s) (rest : List Char) :
    NotNatural (read (s ++ rest)) := by
  cases h with
  | negative => exact notNatural_negative _
  | @fraction whole fraction exponent digits part power =>
    obtain ⟨ds, -, rfl⟩ := part
    have := notNatural_mixed digits (ds ++ exponent ++ rest) (.inl (Eq.refl '.'))
    simpa [List.append_assoc] using this
  | @exponent whole exponent digits power =>
    obtain ⟨mark, sign, ds, hmark, -, -, rfl⟩ := power
    have := notNatural_mixed digits (sign ++ ds ++ rest) (.inr hmark)
    simpa [List.append_assoc] using this

end Number

/-- These are the tokens of a text that is the rest of another one. -/
def Streams (text : List Char) (ts : List Token) : Prop :=
  ∃ fuel index, text.length ≤ fuel ∧ ts = tokensFrom fuel index text

theorem streams_tokens (text : List Char) : Streams text (tokens text) :=
  ⟨text.length, 0, Nat.le_refl _, rfl⟩

theorem isBlank_iff (c : Char) : isBlank c = true ↔ c = ' ' ∨ c = '\n' ∨ c = '\t' ∨ c = '\r' := by
  simp only [isBlank, Bool.or_eq_true, decide_eq_true_eq, or_assoc]

namespace Streams

variable {text w rest left : List Char} {ts : List Token} {c : Char} {kind : TokenKind}

theorem nil (h : Streams [] ts) : ts = [] := by
  obtain ⟨fuel, index, -, rfl⟩ := h
  cases fuel <;> rfl

theorem blank (h : Streams (w ++ text) ts) (blank : Blank w) : Streams text ts := by
  induction w with
  | nil => exact h
  | cons c w ih =>
    refine ih ?_ fun d hd => blank d (List.mem_cons_of_mem _ hd)
    obtain ⟨fuel, index, hfuel, rfl⟩ := h
    rw [List.cons_append, List.length_cons] at hfuel
    obtain ⟨fuel, rfl⟩ : ∃ k, fuel = k + 1 := ⟨fuel - 1, by omega⟩
    refine ⟨fuel, index + 1, by omega, ?_⟩
    rw [List.cons_append, tokensFrom, if_pos ((isBlank_iff c).2 (blank c List.mem_cons_self))]

/-- A token comes first, and the tokens of what follows it come next. -/
theorem next (h : Streams (c :: rest) ts) (solid : isBlank c = false)
    (token : readToken c rest = (kind, left)) :
    ∃ t ts', ts = t :: ts' ∧ t.kind = kind ∧
      (kind.goesOn = true → left.length ≤ rest.length → Streams left ts') := by
  obtain ⟨fuel, index, hfuel, rfl⟩ := h
  rw [List.length_cons] at hfuel
  obtain ⟨fuel, rfl⟩ : ∃ k, fuel = k + 1 := ⟨fuel - 1, by omega⟩
  rw [tokensFrom, if_neg (by rw [solid]; exact Bool.false_ne_true), token]
  refine ⟨_, _, rfl, rfl, fun goesOn shorter => ?_⟩
  exact ⟨fuel, _, by omega, by rw [if_pos goesOn]⟩

theorem mark (kind : TokenKind) (h : Streams (c :: rest) ts) (solid : isBlank c = false)
    (token : ∀ rest, readToken c rest = (kind, rest))
    (goesOn : kind.goesOn = true) : ∃ t ts', ts = t :: ts' ∧ t.kind = kind ∧ Streams rest ts' := by
  obtain ⟨t, ts', hts, hkind, hrest⟩ := h.next solid (token rest)
  exact ⟨t, ts', hts, hkind, hrest goesOn (Nat.le_refl _)⟩

theorem quoted {s t : List Char} (spells : SpellsText s t)
    (h : Streams ('"' :: s ++ '"' :: rest) ts) :
    ∃ u ts', ts = u :: ts' ∧ u.kind = .text (String.ofList t) ∧ Streams rest ts' := by
  have token : readToken '"' (s ++ '"' :: rest) = (.text (String.ofList t), rest) := by
    simp [readToken, readText_eq spells]
  obtain ⟨u, ts', hts, hkind, hrest⟩ := h.next (by decide) token
  refine ⟨u, ts', hts, hkind, hrest rfl ?_⟩
  rw [List.append_eq, List.length_append, List.length_cons]
  omega

end Streams

namespace Value

def Unwanted : Value → Prop
  | .null | .text _ => False
  | .natural n => Number.bound ≤ n
  | .boolean _ | .number _ | .list _ | .object _ => True

end Value

/-- A token that is no text, no whole number and not `null`. -/
structure TokenKind.Unwanted (k : TokenKind) : Prop where
  text : ∀ s, k ≠ .text s
  natural : ∀ n, k ≠ .number (.natural n)
  null : k ≠ .null

/-- How a value is read: by one token, or not at all. -/
inductive ReadsAs (rest : List Char) : Value → List Token → Prop
  | null {t : Token} {ts : List Token} (kind : t.kind = .null) (others : Streams rest ts) :
  ReadsAs rest .null (t :: ts)
  | natural {t : Token} {ts : List Token} {n : Nat} (small : n < Number.bound)
      (kind : t.kind = .number (.natural n))
      (others : Streams rest ts) : ReadsAs rest (.natural n) (t :: ts)
  | text {t : Token} {ts : List Token} {s : String} (kind : t.kind = .text s)
      (others : Streams rest ts) :
      ReadsAs rest (.text s) (t :: ts)
  | unwanted {t : Token} {ts : List Token} {v : Value} (kind : t.kind.Unwanted)
      (value : v.Unwanted) :
      ReadsAs rest v (t :: ts)

namespace ReadsAs

variable {s rest left : List Char} {ts : List Token} {c : Char} {v : Value}

theorem refused {kind : TokenKind} (h : Streams (c :: rest) ts) (solid : isBlank c = false)
    (token : readToken c rest = (kind, left)) (unwanted : kind.Unwanted) (value : v.Unwanted) :
    ReadsAs s v ts := by
  obtain ⟨t, ts', rfl, rfl, -⟩ := h.next solid token
  exact .unwanted unwanted value

/-- A character that a number begins with is no mark and no letter of a word. -/
theorem readToken_number (rest : List Char) (h : (c == '-' || c.isDigit) = true) :
    isBlank c = false ∧ readToken c rest = match Number.read (c :: rest) with
      | .ok (n, rest) => (.number n, rest)
      | .error (fault, rest) => (.brokenValue (.ofNumber fault), rest) := by
  have hne : ∀ d, (d == '-' || d.isDigit) = false → c ≠ d := by
    rintro d hd rfl
    rw [hd] at h
    cases h
  have hc : (decide (c = '-') || c.isDigit) = true := h
  refine ⟨?_, ?_⟩
  · simp [isBlank, hne ' ' (by decide), hne '\n' (by decide),
      hne '\t' (by decide), hne '\r' (by decide)]
  · unfold readToken
    rcases Number.read (c :: rest) with ⟨fault, left⟩ | ⟨n, left⟩ <;>
      simp only [hne ',' (by decide), hne ':' (by decide), hne '[' (by decide),
        hne ']' (by decide), hne '\x7b' (by decide), hne '\x7d' (by decide), hne '"' (by decide),
        hne 'n' (by decide), hne 't' (by decide), hne 'f' (by decide), if_false, hc, if_true]

theorem ofNumber (h : Streams (c :: rest) ts) (first : (c == '-' || c.isDigit) = true)
    (notNatural : Number.NotNatural (Number.read (c :: rest))) (value : v.Unwanted) :
    ReadsAs s v ts := by
  obtain ⟨solid, token⟩ := readToken_number rest first
  cases hread : Number.read (c :: rest) with
  | ok r =>
    obtain ⟨x, left⟩ := r
    rw [hread] at token
    refine refused h solid token ⟨nofun, fun n hn => ?_, nofun⟩ value
    obtain rfl := TokenKind.number.inj hn
    exact notNatural n left hread
  | error e =>
    rw [hread] at token
    exact refused h solid token ⟨nofun, nofun, nofun⟩ value

theorem natural_of_streams (digits : Whole s) (ends : Number.Ends rest)
    (h : Streams (s ++ rest) ts) :
    ReadsAs rest (.natural (decimal s)) ts := by
  obtain ⟨c, s, rfl⟩ := List.exists_cons_of_ne_nil digits.1.1
  have first : (c == '-' || c.isDigit) = true := by simp [digits.1.2 c List.mem_cons_self]
  by_cases fits : decimal (c :: s) < Number.bound
  · obtain ⟨solid, token⟩ := readToken_number (s ++ rest) first
    have hread := Number.read_whole digits ends fits
    rw [List.cons_append] at hread h
    rw [hread] at token
    obtain ⟨t, ts', rfl, hkind, hrest⟩ := h.next solid token
    refine .natural fits hkind (hrest rfl ?_)
    rw [List.length_append]
    omega
  · have long := Nat.not_lt.1 fits
    exact ofNumber h first (Number.notNatural_long digits rest long) long

theorem number_of_streams (numeral : Signed s) (h : Streams (s ++ rest) ts) :
    ReadsAs rest (.number s) ts := by
  have hfirst : ∃ c more, s = c :: more ∧ (c == '-' || c.isDigit) = true := by
    cases numeral with
    | negative => exact ⟨'-', _, rfl, rfl⟩
    | @fraction whole _ _ digits | @exponent whole _ digits =>
      obtain ⟨c, ds, rfl⟩ := List.exists_cons_of_ne_nil digits.1.1
      exact ⟨c, _, rfl, by simp [digits.1.2 c List.mem_cons_self]⟩
  obtain ⟨c, more, rfl, first⟩ := hfirst
  exact ofNumber h first (Number.notNatural_signed numeral rest) trivial

theorem of_spells (spells : Spells s v) (ends : Number.Ends rest) (h : Streams (s ++ rest) ts) :
    ReadsAs rest v ts := by
  cases spells with
  | null =>
    have token : readToken 'n' ('u' :: 'l' :: 'l' :: rest) = (.null, rest) := rfl
    obtain ⟨t, ts', rfl, hkind, hrest⟩ := h.next (by decide) token
    exact .null hkind (hrest rfl (by simp +arith))
  | true =>
    have token : readToken 't' ('r' :: 'u' :: 'e' :: rest) = (.boolean true, rest) := rfl
    exact refused h (by decide) token ⟨nofun, nofun, nofun⟩ trivial
  | false =>
    have token : readToken 'f' ('a' :: 'l' :: 's' :: 'e' :: rest) = (.boolean false, rest) := rfl
    exact refused h (by decide) token ⟨nofun, nofun, nofun⟩ trivial
  | natural digits => exact natural_of_streams digits ends h
  | number numeral => exact number_of_streams numeral h
  | text spellsText =>
    rw [List.cons_append, List.cons_append, List.append_assoc] at h
    obtain ⟨u, ts', rfl, hkind, hrest⟩ := h.quoted spellsText
    exact .text hkind hrest
  | emptyList | list => exact refused h (by decide) rfl ⟨nofun, nofun, nofun⟩ trivial
  | emptyObject | object => exact refused h (by decide) rfl ⟨nofun, nofun, nofun⟩ trivial

end ReadsAs

end SealedLua.Json
