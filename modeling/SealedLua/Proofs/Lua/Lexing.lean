import SealedLua.Lua.Token
import SealedLua.Proofs.Lua.Rendering
import SealedLua.Proofs.Number.Reading

/-!
# The tokens of literals

What the reader of tokens makes of a text is told with the text that follows,
since a word, a numeral or a sign ends only where something else begins.
-/

namespace SealedLua.Lua

/-- A text without line ends starts with these tokens and goes on with `rest`. -/
structure Lexes (text : List UInt8) (ts : List Token) (rest : List UInt8) : Prop where
  read (fuel line : Nat) : Lexer.tokens (fuel + ts.length) text line =
    (Lexer.tokens fuel rest line).map fun us => ts.map (·, line) ++ us
  /-- No token is empty, so the fuel for a text is enough for its tokens. -/
  size : ts.length + rest.length ≤ text.length

namespace Lexes

variable {text middle rest : List UInt8} {ts us : List Token} {t : Token}

theorem nil (text : List UInt8) : Lexes text [] text := by
  refine ⟨fun fuel line => ?_, by simp⟩
  cases Lexer.tokens fuel text line <;> rfl

theorem one
    (read : ∀ fuel line, Lexer.tokens (fuel + 1) text line =
      (Lexer.tokens fuel rest line).map ((t, line) :: ·))
    (shorter : rest.length < text.length) : Lexes text [t] rest :=
  ⟨read, by rw [List.length_singleton]; omega⟩

theorem append (first : Lexes text ts middle) (second : Lexes middle us rest) :
    Lexes text (ts ++ us) rest := by
  refine ⟨fun fuel line => ?_, ?_⟩
  · rw [List.length_append, Nat.add_comm ts.length, ← Nat.add_assoc, first.read, second.read]
    cases Lexer.tokens fuel rest line with
    | error e => rfl
    | ok vs => simp [Except.map]
  · have := first.size
    have := second.size
    rw [List.length_append]
    omega

theorem cons (first : Lexes text [t] middle) (second : Lexes middle us rest) :
    Lexes text (t :: us) rest :=
  first.append second

end Lexes

/-- A word or a numeral before this text has ended. -/
def Ends (rest : List UInt8) : Prop := ∀ c ∈ rest.head?, Lexer.isNamePart c = false ∧ c ≠ 46

theorem Ends.cons {c : UInt8} (outside : Lexer.isNamePart c = false ∧ c ≠ 46) (rest : List UInt8) :
    Ends (c :: rest) := by
  rintro d ⟨⟩
  exact outside

namespace Lexer

open Ascii

variable {rest : List UInt8} {n v : Nat}

/-- Characters of a numeral other than the mark of its exponent. -/
def Plain (mark : UInt8) (cs : List UInt8) : Prop := ∀ c ∈ cs, (toLower c == mark) = false ∧
    (isHexDigit c || c == 46) = true

theorem takeNumeral_plain {mark : UInt8} {cs : List UInt8} (plain : Plain mark cs) (fuel : Nat)
    (rest gathered : List UInt8) :
    takeNumeral mark (cs.length + fuel) (cs ++ rest) gathered = takeNumeral mark fuel rest
      (cs.reverse ++ gathered) := by
  induction cs generalizing gathered with
  | nil => rw [List.length_nil, Nat.zero_add]; rfl
  | cons c cs ih =>
    have here := plain c List.mem_cons_self
    rw [List.length_cons, Nat.add_right_comm, List.cons_append, takeNumeral.eq_def]
    simp only [here.1, here.2, if_true, Bool.false_eq_true, if_false]
    rw [ih (fun d mem => plain d (List.mem_cons_of_mem _ mem)),
      List.reverse_cons, List.append_assoc]
    rfl

theorem isNamePart_of_isHexDigit {c : UInt8} (h : isHexDigit c = true) : isNamePart c = true := by
  unfold isHexDigit hexValue? at h
  unfold isNamePart isNameStart isAlpha isLower isUpper isDigit at *
  split at h
  · next decimal => simp [decimal]
  split at h
  · next lower => simp [UInt8.le_iff_toNat_le] at *; omega
  split at h
  · next upper => simp [UInt8.le_iff_toNat_le] at *; omega
  · cases h

/-- What is no part of a name is no mark of an exponent or of a base. -/
theorem toLower_apart {c mark : UInt8} (outside : isNamePart c = false)
    (letter : isNamePart mark = true) :
    (toLower c == mark) = false := by
  have lower : toLower c = c := by
    refine if_neg fun upper => ?_
    rw [isNamePart, isNameStart, isAlpha, upper] at outside
    simp at outside
  rw [lower, beq_eq_false_iff_ne]
  rintro rfl
  rw [letter] at outside
  cases outside

theorem isNamePart_of_isDigit {c : UInt8} (h : isDigit c = true) : isNamePart c = true := by
  rw [isNamePart, h, Bool.or_true]

theorem solid_of_isNamePart {c : UInt8} (h : isNamePart c = true) :
    isLineEnd c = false ∧ isSpace c = false := by
  unfold isNamePart isNameStart isAlpha isLower isUpper isDigit at h
  have high : 48 ≤ c.toNat := by
    simp [UInt8.le_iff_toNat_le, ← UInt8.toNat_inj] at h
    omega
  simp only [isLineEnd, isSpace, Bool.or_eq_false_iff, beq_eq_false_iff_ne,
    ne_eq, ← UInt8.toNat_inj, Bool.and_eq_false_iff, decide_eq_false_iff_not,
    UInt8.le_iff_toNat_le, UInt8.reduceToNat]
  omega

theorem isNameStart_of_isDigit {c : UInt8} (h : isDigit c = true) : isNameStart c = false := by
  unfold isDigit at h
  unfold isNameStart isAlpha isLower isUpper
  simp only [Bool.and_eq_true, decide_eq_true_eq, UInt8.le_iff_toNat_le, UInt8.reduceToNat] at h
  simp only [Bool.or_eq_false_iff, beq_eq_false_iff_ne, ne_eq, ← UInt8.toNat_inj,
    Bool.and_eq_false_iff, decide_eq_false_iff_not, UInt8.le_iff_toNat_le, UInt8.reduceToNat]
  omega

theorem takeNumeral_ends {mark : UInt8} (letter : isNamePart mark = true) (ends : Ends rest)
    (fuel : Nat) (gathered : List UInt8) :
    takeNumeral mark (fuel + 1) rest gathered = (gathered.reverse, rest) := by
  cases rest with
  | nil => rfl
  | cons c rest =>
    obtain ⟨outside, point⟩ := ends c rfl
    have digit : isHexDigit c = false := by
      by_contra inside
      rw [isNamePart_of_isHexDigit (Bool.of_not_eq_false inside)] at outside
      cases outside
    rw [takeNumeral.eq_def]
    simp [toLower_apart outside letter, digit, point]

/-- The characters of a numeral, decimal or hexadecimal, are read as a number. -/
theorem readNumeral_eq {text cs : List UInt8} (ends : Ends rest)
    (taken : (∀ x more, text = 48 :: x :: more → (toLower x == 120) = false) ∧
        takeNumeral 101 (text.length + 1) text [] = (cs, rest) ∨
      ∃ more, text = 48 :: 120 :: more ∧
        takeNumeral 112 (more.length + 1) more [120, 48] = (cs, rest)) :
    readNumeral text = (Number.read? cs).map (·, rest) := by
  unfold readNumeral
  split
  next numeral after parts =>
  have same : (numeral, after) = (cs, rest) := by
    rcases taken with ⟨plain, taken⟩ | ⟨more, rfl, taken⟩
    · rw [← parts, ← taken]
      split
      · next x more => rw [plain x more rfl, if_neg Bool.false_ne_true]
      · rfl
    · rw [← parts, ← taken]
      rfl
  cases same
  cases rest with
  | nil => rfl
  | cons c rest =>
    have outside := (ends c rfl).1
    rw [isNamePart, Bool.or_eq_false_iff] at outside
    simp only [outside.1, Bool.false_eq_true, if_false]

theorem plain_digits {mark : UInt8} {b : Nat} (vs : List Nat) (below : ∀ v ∈ vs, v < b)
    (few : b ≤ 16)
    (apart : ∀ v < b, (toLower (digit v) == mark) = false) : Plain mark (vs.map digit) := by
  intro c mem
  obtain ⟨v, listed, rfl⟩ := List.mem_map.1 mem
  refine ⟨apart v (below v listed), ?_⟩
  rw [isHexDigit, hexValue?_digit (Nat.lt_of_lt_of_le (below v listed) few)]
  rfl

theorem Plain.append {mark : UInt8} {cs ds : List UInt8} (first : Plain mark cs)
    (second : Plain mark ds) :
    Plain mark (cs ++ ds) := by
  intro c mem
  rcases List.mem_append.1 mem with mem | mem
  · exact first c mem
  · exact second c mem

theorem readNumeral_numeral (n : Nat) (ends : Ends rest) :
    readNumeral (numeral 10 n ++ rest) = (Number.read? (numeral 10 n)).map (·, rest) := by
  obtain ⟨vs, eq, digits, nonempty, -⟩ := exists_digits (by decide : 2 ≤ 10) n
  have plain : Plain 101 (vs.map digit) := plain_digits vs digits.below (by decide) (by decide)
  rw [eq]
  refine readNumeral_eq ends (.inl ⟨fun x more split => ?_, ?_⟩)
  · rcases vs with - | ⟨v, - | ⟨w, ws⟩⟩
    · exact absurd rfl nonempty
    · rw [List.map_singleton, List.singleton_append] at split
      have follows := (List.cons.inj split).2
      exact toLower_apart (ends x (by rw [follows]; rfl)).1 rfl
    · have all : ∀ w < 10, (toLower (digit w) == 120) = false := by decide
      rw [← (List.cons.inj (List.cons.inj split).2).1]
      exact all w (digits.below w (by simp))
  · rw [List.length_append, Nat.add_assoc, takeNumeral_plain plain, takeNumeral_ends rfl ends]
    simp

theorem readNumeral_infinity (ends : Ends rest) :
    readNumeral (ascii "1e9999" ++ rest) = some (.double (.infinity false), rest) := by
  have nines : Plain 101 (ascii "9999") :=
    plain_digits (b := 10) [9, 9, 9, 9] (by decide) (by decide) (by decide)
  have size : (ascii "1e9999" ++ rest).length + 1 = (ascii "9999").length +
      (rest.length + 1) + 2 := by
    rw [List.length_append]
    exact (by omega : 6 + rest.length + 1 = 4 + (rest.length + 1) + 2)
  have mark : takeNumeral 101 ((ascii "9999").length + (rest.length + 1) + 2)
      (ascii "1e9999" ++ rest) [] =
      takeNumeral 101 ((ascii "9999").length + (rest.length + 1))
        (ascii "9999" ++ rest) [101, 49] := rfl
  have taken : takeNumeral 101 ((ascii "1e9999" ++ rest).length + 1) (ascii "1e9999" ++ rest) [] =
      (ascii "1e9999", rest) := by
    rw [size, mark, takeNumeral_plain nines, takeNumeral_ends rfl ends]
    rfl
  have read : Number.read? (ascii "1e9999") = some (.double (.infinity false)) := by decide +kernel
  have plain : ∀ x more, ascii "1e9999" ++ rest = 48 :: x :: more → (toLower x == 120) = false := by
    intro x more split
    cases split
  rw [readNumeral_eq ends (.inl ⟨plain, taken⟩), read]
  rfl

theorem readNumeral_least (ends : Ends rest) :
    readNumeral (ascii "0x8000000000000000" ++ rest) = some (.integer Int64.minValue, rest) := by
  have digits : Plain 112 (ascii "8000000000000000") :=
    plain_digits (b := 16) (8 :: List.replicate 15 0) (by decide) (by decide) (by decide)
  have taken : takeNumeral 112 ((ascii "8000000000000000" ++ rest).length + 1)
      (ascii "8000000000000000" ++ rest) [120, 48] =
      (ascii "0x8000000000000000", rest) := by
    rw [List.length_append, Nat.add_assoc, takeNumeral_plain digits, takeNumeral_ends rfl ends]
    rfl
  have read : Number.read? (ascii "0x8000000000000000") = some (.integer Int64.minValue) := by
    decide +kernel
  have whole : readNumeral (ascii "0x8000000000000000" ++ rest) = _ :=
    readNumeral_eq ends (.inr ⟨_, rfl, taken⟩)
  rw [whole, read]
  rfl

theorem takeNumeral_signed {mark sign : UInt8} (lower : (toLower mark == mark) = true)
    (is_sign : sign = 43 ∨ sign = 45) (fuel : Nat) (more gathered : List UInt8) :
    takeNumeral mark (fuel + 1) (mark :: sign :: more) gathered = takeNumeral mark fuel more
      (sign :: mark :: gathered) := by
  rw [takeNumeral.eq_def]
  rcases is_sign with rfl | rfl <;> simp [lower]

theorem readNumeral_exactText {l : Nat} {vs : List Nat} (p : Int) (lead : l < 16)
    (below : ∀ v ∈ vs, v < 16) (ends : Ends rest) :
    readNumeral (Double.exactText l vs p ++ rest) =
      (Number.read? (Double.exactText l vs p)).map (·, rest) := by
  obtain ⟨ws, eq, digits, -⟩ := exists_digits (by decide : 2 ≤ 10) p.natAbs
  have apart : ∀ v < 16, (toLower (digit v) == 112) = false := by decide
  have first : Plain 112 [digit l] := plain_digits [l] (by simpa using lead) (Nat.le_refl 16) apart
  have exponent : Plain 112 (ws.map digit) := plain_digits ws digits.below (by decide) (by decide)
  obtain ⟨sign, is_sign, signed⟩ : ∃ sign : UInt8, (sign = 43 ∨ sign = 45) ∧
      Double.powerText p = 112 :: sign :: ws.map digit := by
    rw [Double.powerText, eq]
    by_cases negative : p < 0
    · exact ⟨45, .inr rfl, by rw [if_pos negative]⟩
    · exact ⟨43, .inl rfl, by rw [if_neg negative]⟩
  obtain ⟨mantissa, split, plain⟩ : ∃ mantissa, Double.exactText l vs p = 48 :: 120 ::
      (mantissa ++ Double.powerText p) ∧
      Plain 112 mantissa := by
    cases vs with
    | nil => exact ⟨[digit l], rfl, first⟩
    | cons v vs =>
      have point : Plain 112 [46] := by
        intro c mem
        rw [List.mem_singleton.1 mem]
        exact ⟨rfl, rfl⟩
      exact ⟨digit l :: 46 :: (v :: vs).map digit, rfl,
        first.append (point.append (plain_digits _ below (Nat.le_refl 16) apart))⟩
  refine readNumeral_eq ends (.inr ⟨mantissa ++ 112 :: sign :: (ws.map digit ++ rest), ?_, ?_⟩)
  · simp [split, signed]
  · have size : (mantissa ++ 112 :: sign :: (ws.map digit ++ rest)).length + 1 =
        mantissa.length + ((ws.map digit).length + (rest.length + 1 + 1) + 1) := by simp; omega
    rw [size, takeNumeral_plain plain, takeNumeral_signed rfl is_sign, takeNumeral_plain exponent,
      takeNumeral_ends rfl ends]
    simp [split, signed]

theorem takeEscape_digits (c : UInt8) (rest : List UInt8) :
    takeEscape (Quoting.digits c ++ rest) = .ok ([c], rest) := by
  have all : ∀ v < 10, digit v ≠ 120 ∧ digit v ≠ 117 ∧ simpleEscape? (digit v) = none ∧
      isDigit (digit v) = true ∧
      (digit v).toNat - 48 = v := by decide
  have small : c.toNat < 256 := c.toNat_lt
  obtain ⟨hex, unicode, simple, decimal, hundreds⟩ := all (c.toNat / 100) (by omega)
  obtain ⟨-, -, -, decimal', tens⟩ := all (c.toNat / 10 % 10) (by omega)
  obtain ⟨-, -, -, decimal'', ones⟩ := all (c.toNat % 10) (by omega)
  have shown : Quoting.digits c ++ rest =
      digit (c.toNat / 100) :: digit (c.toNat / 10 % 10) :: digit (c.toNat % 10) :: rest := rfl
  have value : Ascii.value 10 [c.toNat / 100, c.toNat / 10 % 10, c.toNat % 10] = c.toNat := by
    simp [Ascii.value]
    omega
  have taken : ((Quoting.digits c ++ rest).take 3).takeWhile isDigit = Quoting.digits c := by
    simp [Quoting.digits, decimal, decimal', decimal'']
  have values : (Quoting.digits c).map (fun d => d.toNat - 48) =
      [c.toNat / 100, c.toNat / 10 % 10, c.toNat % 10] := by
    simp [Quoting.digits, hundreds, tens, ones]
  unfold takeEscape
  split
  · next split => exact absurd (List.cons.inj split).1 hex
  · next split => exact absurd (List.cons.inj split).1 unicode
  · next d after _ _ split =>
    rw [← split, taken, ← (List.cons.inj (shown.symm.trans split)).1, simple]
    simp only [decimal, values, value, small, if_true, UInt8.ofNat_toNat]
    rfl
  · next split => cases split

theorem length_le_flatMap_byte (s : List UInt8) : s.length ≤ (s.flatMap Quoting.byte).length := by
  induction s with
  | nil => exact Nat.le_refl 0
  | cons c s ih =>
    have nonempty : 0 < (Quoting.byte c).length := by
      unfold Quoting.byte
      split <;> simp
    rw [List.length_cons, List.flatMap_cons, List.length_append]
    omega

theorem takeString_quoted (s rest gathered : List UInt8) (fuel line : Nat) :
    takeString 34 (s.length + (fuel + 1)) (s.flatMap Quoting.byte ++ 34 :: rest) gathered line =
      .ok (gathered.reverse ++ s, rest, line) := by
  induction s generalizing gathered with
  | nil =>
    rw [List.length_nil, Nat.zero_add, takeString.eq_def]
    simp
  | cons c s ih =>
    rw [List.length_cons, Nat.add_right_comm, List.flatMap_cons, List.append_assoc, Quoting.byte]
    by_cases escaped : Quoting.escapes c = true
    · have first : ∀ v < 10, digit v ≠ 122 ∧ isLineEnd (digit v) = false := by decide
      have small := c.toNat_lt
      obtain ⟨solid, flat⟩ := first (c.toNat / 100) (by omega)
      have read := takeEscape_digits c (s.flatMap Quoting.byte ++ 34 :: rest)
      rw [if_pos escaped, List.cons_append]
      obtain ⟨after, shown⟩ : ∃ after,
          Quoting.digits c ++ (s.flatMap Quoting.byte ++ 34 :: rest) =
            digit (c.toNat / 100) :: after :=
        ⟨_, rfl⟩
      rw [shown] at read ⊢
      rw [takeString, flat, if_neg Bool.false_ne_true, read]
      · simp only [List.reverse_singleton, List.singleton_append]
        rw [ih, List.reverse_cons, List.append_assoc, List.singleton_append]
      · exact solid
    · rw [if_neg escaped]
      simp only [Quoting.escapes, isControl, Bool.not_eq_true, Bool.or_eq_false_iff,
        decide_eq_false_iff_not] at escaped
      obtain ⟨⟨⟨⟨low, -⟩, quote⟩, slash⟩, -⟩ := escaped
      have flat : isLineEnd c = false := by
        rw [isLineEnd, Bool.or_eq_false_iff, beq_eq_false_iff_ne, beq_eq_false_iff_ne]
        constructor <;> rintro rfl <;> exact low (by decide)
      rw [List.singleton_append, takeString, quote, flat, if_neg Bool.false_ne_true,
        if_neg Bool.false_ne_true, ih, List.reverse_cons, List.append_assoc, List.singleton_append]
      rintro rfl
      cases slash

/-- The quotes are where the string ends, whatever follows, and there is fuel enough for it. -/
theorem takeString_text (s : ByteArray) (rest : List UInt8) (line : Nat) :
    takeString 34 (((codes s).flatMap Quoting.byte ++ 34 :: rest).length + 1)
      ((codes s).flatMap Quoting.byte ++ 34 :: rest) []
      line = .ok (codes s, rest, line) := by
  obtain ⟨spare, size⟩ : ∃ spare,
      ((codes s).flatMap Quoting.byte ++ 34 :: rest).length + 1 =
        (codes s).length + (spare + 1) := by
    have enough := length_le_flatMap_byte (codes s)
    exact ⟨((codes s).flatMap Quoting.byte ++ 34 :: rest).length - (codes s).length,
      by rw [List.length_append]; omega⟩
  rw [size, takeString_quoted, List.reverse_nil, List.nil_append]

/-- Bytes that begin neither a word nor a literal nor space. -/
def isMark (c : UInt8) : Bool :=
  !(isLineEnd c || isSpace c || isNameStart c || isDigit c || c == 46 || c == 34 || c == 39)

theorem takeSign_equals {c : UInt8} (rest : List UInt8) (apart : c ≠ 61) :
    takeSign (61 :: c :: rest) = some ("=", c :: rest) := by
  have other : (61 == c) = false := by simpa using apart.symm
  have found : (Token.signCodes.find? fun s => s.1.isPrefixOf (61 :: c :: rest)) =
      some ([61], "=") := by
    have codes : Token.signCodes = Token.signCodes.take 2 ++ ([61, 61], "==") ::
      Token.signCodes.drop 3 := rfl
    rw [codes, List.find?_append, List.find?_cons_of_neg (by simp [List.isPrefixOf, other])]
    rfl
  rw [takeSign, found]
  rfl

end Lexer

namespace Lexes

open Lexer Ascii

variable {rest text : List UInt8} {c : UInt8}

theorem sign {s : String} (mark : isMark c = true) (no_comment : c = 45 → rest.head? ≠ some 45)
    (no_bracket : c = 91 → rest.head? ≠ some 91 ∧ rest.head? ≠ some 61)
    (taken : takeSign (c :: rest) = some (s, rest)) :
    Lexes (c :: rest) [.sign s] rest := by
  refine .one (fun fuel line => ?_) (by simp)
  simp only [isMark, Bool.not_eq_true', Bool.or_eq_false_iff] at mark
  obtain ⟨⟨⟨⟨⟨⟨flat, solid⟩, letter⟩, digit⟩, point⟩, quote⟩, quote'⟩ := mark
  have comment : (c == 45 && rest.head? == some 45) = false := by
    rw [Bool.and_eq_false_iff, beq_eq_false_iff_ne, beq_eq_false_iff_ne]
    exact or_iff_not_imp_left.2 fun dash => no_comment (not_not.1 dash)
  have bracket : (c == 91 && (rest.head? == some 91 || rest.head? == some 61)) = false := by
    rw [Bool.and_eq_false_iff, Bool.or_eq_false_iff, beq_eq_false_iff_ne,
      beq_eq_false_iff_ne, beq_eq_false_iff_ne]
    exact or_iff_not_imp_left.2 fun opening => no_bracket (not_not.1 opening)
  rw [tokens]
  simp only [flat, solid, letter, digit, point, quote, quote', comment, bracket, taken,
    Bool.false_and, Bool.or_self, Bool.false_eq_true, if_false]

/-- A sign that is never the start of a comment or of a long bracket. -/
theorem plainSign {s : String} (mark : (isMark c && c != 45 && c != 91) = true)
    (taken : takeSign (c :: rest) = some (s, rest)) :
    Lexes (c :: rest) [.sign s] rest := by
  simp only [Bool.and_eq_true, bne_iff_ne] at mark
  exact .sign mark.1.1 (fun dash => absurd dash mark.1.2) (fun bracket =>
    absurd bracket mark.2) taken

theorem number {n : Number} (digit : isDigit c = true)
    (read : readNumeral (c :: text) = some (n, rest))
    (shorter : rest.length ≤ text.length) : Lexes (c :: text) [.number n] rest := by
  refine .one (fun fuel line => ?_) (Nat.lt_succ_of_le shorter)
  obtain ⟨flat, solid⟩ := solid_of_isNamePart (isNamePart_of_isDigit digit)
  rw [tokens]
  simp only [flat, solid, isNameStart_of_isDigit digit, digit, read, Bool.true_or,
    Bool.false_eq_true, if_false, if_true]

/-- The numeral of a natural number that is no more than the largest integer. -/
theorem natural {n : Nat} (fits : n < 2 ^ 63) (ends : Ends rest) :
    Lexes (numeral 10 n ++ rest) [.number (.integer (Int64.ofNat n))] rest := by
  obtain ⟨vs, eq, digits, nonempty, -⟩ := exists_digits (by decide : 2 ≤ 10) n
  have read := readNumeral_numeral n ends
  rw [Number.read?_numeral fits, Option.map_some] at read
  obtain ⟨v, vs, rfl⟩ := List.exists_cons_of_ne_nil nonempty
  rw [eq, List.map_cons, List.cons_append] at read ⊢
  exact .number (isDigit_digit (digits.below v List.mem_cons_self)) read (by simp)

theorem exact (x : Double) (finite : x.isFinite = true) (ends : Ends rest) :
    Lexes (x.hexadecimal none false ++ rest)
      [.number (.double (.ofFields false x.magnitude))] rest := by
  obtain ⟨vs, s, eq, below, -⟩ := x.exists_exactText
  have read :=
    readNumeral_exactText x.power (Nat.lt_trans x.lead_lt (by decide : 2 < 16)) below ends
  rw [← eq, Number.read?_hexadecimal x finite, Option.map_some, eq] at read
  rw [eq]
  exact .number rfl read (by simp; omega)

theorem word {w : String} (ends : Ends rest)
    (letters : ((ascii w).head?.any isNameStart && (ascii w).all isNamePart) = true)
    (listed : (Token.wordCodes.find? fun v => v.1 == bytes (ascii w)) = some (bytes (ascii w), w)) :
    Lexes (ascii w ++ rest) [.word w] rest := by
  rw [Bool.and_eq_true, List.all_eq_true] at letters
  obtain ⟨start, parts⟩ := letters
  obtain ⟨taken, dropped⟩ := takeWhile_append_of_stop parts fun c mem => (ends c mem).1
  generalize ascii w = text at *
  cases text with
  | nil => cases start
  | cons c cs =>
    obtain ⟨flat, solid⟩ := solid_of_isNamePart (parts c List.mem_cons_self)
    refine .one (fun fuel line => ?_)
      (by rw [List.cons_append, List.length_cons, List.length_append]; omega)
    rw [List.cons_append] at taken dropped ⊢
    rw [tokens]
    simp only [List.head?_cons, Option.any_some] at start
    simp only [flat, solid, start, taken, dropped, listed, Bool.false_eq_true, if_false, if_true]

theorem string (s : ByteArray) (rest : List UInt8) :
    Lexes (Quoting.text (codes s) ++ rest) [.string s] rest := by
  have shown : Quoting.text (codes s) ++ rest =
      34 :: ((codes s).flatMap Quoting.byte ++ 34 :: rest) := by
    simp [Quoting.text]
  have plain : isLineEnd 34 = false ∧ isSpace 34 = false ∧ isNameStart 34 = false ∧
      isDigit 34 = false ∧
      ((34 : UInt8) == 46) = false := by decide
  obtain ⟨flat, solid, letter, digit, point⟩ := plain
  rw [shown]
  refine .one (fun fuel line => ?_) (by simp; omega)
  rw [tokens]
  simp only [flat, solid, letter, digit, point, takeString_text, bytes_codes, BEq.rfl,
    Bool.false_and, Bool.true_or, Bool.or_self, Bool.false_eq_true, if_false, if_true]

end Lexes
end SealedLua.Lua
