import SealedLua.Json.Token

/-!
# The grammar of JSON

What it is for characters to spell a value, whatever reads them: any blanks between
tokens, any of the spellings of a character in a text, members of an object in any
order.  Of a number only that it is a whole one is told, and which; the others are
known by their numerals.
-/

namespace SealedLua.Json

/-- What a JSON text stands for. -/
inductive Value where
  | null
  | boolean (value : Bool)
  /-- A number written with digits only. -/
  | natural (n : Nat)
  /-- A number written with a sign, a fraction or an exponent. -/
  | number (numeral : List Char)
  | text (s : String)
  | list (items : List Value)
  | object (members : List (String × Value))

def HexDigit (value : Nat) (c : Char) : Prop :=
  value < 16 ∧ (c = Nat.digitChar value ∨ c = (Nat.digitChar value).toUpper)

/-- The four digits of an escape of a character by its code. -/
inductive FourDigits : List Char → Nat → Prop
  | intro {a b c d : Char} {i j k l : Nat} (first : HexDigit i a)
    (second : HexDigit j b) (third : HexDigit k c)
      (fourth : HexDigit l d) : FourDigits [a, b, c, d] (((i * 16 + j) * 16 + k) * 16 + l)

/-- The letters of the short escapes, and the characters that they stand for. -/
def shortEscapes : List (Char × Char) :=
  [('"', '"'), ('\\', '\\'), ('/', '/'), ('b', '\x08'), ('f', '\x0c'), ('n', '\n'),
    ('r', '\r'), ('t', '\t')]

/-- What may stand between quotes, and the text that it spells. -/
inductive SpellsText : List Char → List Char → Prop
  | nil : SpellsText [] []
  | plain {c : Char} {s t : List Char} (ordinary : c ≠ '"' ∧ c ≠ '\\' ∧ 32 ≤ c.val)
      (rest : SpellsText s t) :
      SpellsText (c :: s) (c :: t)
  | short {letter c : Char} {s t : List Char} (escape : (letter, c) ∈ shortEscapes)
      (rest : SpellsText s t) :
      SpellsText ('\\' :: letter :: s) (c :: t)
  | code {digits s t : List Char} {n : Nat} (escape : FourDigits digits n)
      (whole : n < 0xD800 ∨ 0xE000 ≤ n)
      (rest : SpellsText s t) : SpellsText ('\\' :: 'u' :: digits ++ s) (Char.ofNat n :: t)
  /-- A character beyond the first 65536 is written in two halves. -/
  | pair {high low s t : List Char} {m n : Nat} (first : FourDigits high m)
      (isHigh : 0xD800 ≤ m ∧ m < 0xDC00)
      (second : FourDigits low n) (isLow : 0xDC00 ≤ n ∧ n < 0xE000) (rest : SpellsText s t) :
      SpellsText ('\\' :: 'u' :: high ++ '\\' :: 'u' :: low ++ s)
        (Char.ofNat (0x10000 + (m - 0xD800) * 0x400 + (n - 0xDC00)) :: t)

def Digits (s : List Char) : Prop := s ≠ [] ∧ ∀ c ∈ s, c.isDigit = true

/-- Digits of which the first is no zero, or a zero alone. -/
def Whole (s : List Char) : Prop := Digits s ∧ (s.head? = some '0' → s = ['0'])

instance (s : List Char) : Decidable (Digits s) :=
  inferInstanceAs (Decidable (s ≠ [] ∧ ∀ c ∈ s, c.isDigit = true))

instance (s : List Char) : Decidable (Whole s) :=
  inferInstanceAs (Decidable (Digits s ∧ (s.head? = some '0' → s = ['0'])))

def Fraction (s : List Char) : Prop := ∃ ds, Digits ds ∧ s = '.' :: ds

def Exponent (s : List Char) : Prop :=
  ∃ mark sign ds, (mark = 'e' ∨ mark = 'E') ∧ sign ∈ [[], ['+'], ['-']] ∧
    Digits ds ∧ s = mark :: sign ++ ds

def decimal (s : List Char) : Nat := Ascii.value 10 (s.map fun c => c.toNat - 48)

/-- A numeral that holds more than digits. -/
inductive Signed : List Char → Prop
  | negative {whole fraction exponent : List Char} (digits : Whole whole)
    (part : fraction = [] ∨ Fraction fraction)
      (power : exponent = [] ∨ Exponent exponent) : Signed ('-' :: whole ++ fraction ++ exponent)
  | fraction {whole fraction exponent : List Char} (digits : Whole whole) (part : Fraction fraction)
      (power : exponent = [] ∨ Exponent exponent) : Signed (whole ++ fraction ++ exponent)
  | exponent {whole exponent : List Char} (digits : Whole whole) (power : Exponent exponent) :
    Signed (whole ++ exponent)

def Blank (s : List Char) : Prop := ∀ c ∈ s, c = ' ' ∨ c = '\n' ∨ c = '\t' ∨ c = '\r'

instance (s : List Char) : Decidable (Blank s) :=
  inferInstanceAs (Decidable (∀ c ∈ s, c = ' ' ∨ c = '\n' ∨ c = '\t' ∨ c = '\r'))

mutual

/-- The characters from the first one of a value to its last one. -/
inductive Spells : List Char → Value → Prop
  | null : Spells ['n', 'u', 'l', 'l'] .null
  | true : Spells ['t', 'r', 'u', 'e'] (.boolean true)
  | false : Spells ['f', 'a', 'l', 's', 'e'] (.boolean false)
  | natural {s : List Char} (digits : Whole s) : Spells s (.natural (decimal s))
  | number {s : List Char} (numeral : Signed s) : Spells s (.number s)
  | text {s t : List Char} (spells : SpellsText s t) : Spells ('"' :: s ++ ['"'])
    (.text (String.ofList t))
  | emptyList {w : List Char} (blank : Blank w) : Spells ('[' :: w ++ [']']) (.list [])
  | list {s : List Char} {items : List Value} (spells : SpellsItems s items) :
    Spells ('[' :: s ++ [']']) (.list items)
  | emptyObject {w : List Char} (blank : Blank w) : Spells ('\x7b' :: w ++ ['\x7d']) (.object [])
  | object {s : List Char} {members : List (String × Value)} (spells : SpellsMembers s members) :
      Spells ('\x7b' :: s ++ ['\x7d']) (.object members)

/-- What stands between the brackets of a list. -/
inductive SpellsItems : List Char → List Value → Prop
  | one {w s w' : List Char} {v : Value} (before : Blank w)
    (spells : Spells s v) (after : Blank w') :
      SpellsItems (w ++ s ++ w') [v]
  | more {w s w' rest : List Char} {v : Value} {items : List Value}
      (before : Blank w) (spells : Spells s v)
      (after : Blank w') (others : SpellsItems rest items) :
      SpellsItems (w ++ s ++ w' ++ ',' :: rest) (v :: items)

/-- What stands between the braces of an object. -/
inductive SpellsMembers : List Char → List (String × Value) → Prop
  | one {w k w' x s y key : List Char} {v : Value} (beforeKey : Blank w)
    (spellsKey : SpellsText k key)
      (afterKey : Blank w') (before : Blank x) (spells : Spells s v) (after : Blank y) :
      SpellsMembers (w ++ '"' :: k ++ '"' :: w' ++ ':' :: x ++ s ++ y) [(String.ofList key, v)]
  | more {w k w' x s y rest key : List Char} {v : Value} {members : List (String × Value)}
      (beforeKey : Blank w)
      (spellsKey : SpellsText k key) (afterKey : Blank w') (before : Blank x)
      (spells : Spells s v) (after : Blank y) (others : SpellsMembers rest members) :
      SpellsMembers (w ++ '"' :: k ++ '"' :: w' ++ ':' :: x ++ s ++ y ++ ',' :: rest)
      ((String.ofList key, v) :: members)

end

/-- A text that is an object with blanks around it. -/
def IsObject (text : String) (members : List (String × Value)) : Prop :=
  ∃ w s w', Blank w ∧ Spells s (.object members) ∧ Blank w' ∧ text.toList = w ++ s ++ w'

end SealedLua.Json
