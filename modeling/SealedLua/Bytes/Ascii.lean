/-!
# Bytes and their hexadecimal form

Byte strings are `ByteArray`; where text is taken apart or put together byte by
byte it is a `List UInt8`.  This module holds the classes of ASCII bytes (no
other byte is in any of them), numerals in a base, and the hexadecimal form of
a byte string, two lower-case digits a byte.  Reading that form accepts both
cases and says which digit it refuses.
-/

namespace SealedLua

-- Powers, the equality of byte strings and decisions on all members of a list are the built-in
-- ones, whatever else a module imports.
attribute [instance(2000), default_instance 20000] instPowNat
attribute [instance(2000)] ByteArray.instDecidableEq
attribute [instance(2000)] List.decidableBAll

/-- The codes of a text that holds ASCII characters only. -/
def ascii (text : String) : List UInt8 := text.toList.map fun c => c.val.toUInt8

/-- A byte string from the codes of its bytes. -/
def bytes (codes : List UInt8) : ByteArray := codes.toByteArray

/-- The codes of the bytes of a byte string. -/
def codes (b : ByteArray) : List UInt8 := b.data.toList

@[simp] theorem codes_bytes (l : List UInt8) : codes (bytes l) = l := by
  simp [codes, bytes]

@[simp] theorem bytes_codes (b : ByteArray) : bytes (codes b) = b := by
  simp [codes, bytes, ByteArray.ext_iff]

@[simp] theorem size_bytes (l : List UInt8) : (bytes l).size = l.length := by
  simp [bytes]

@[simp] theorem length_codes (b : ByteArray) : (codes b).length = b.size := by
  simp [codes]

@[simp] theorem codes_append (b c : ByteArray) : codes (b ++ c) = codes b ++ codes c := by
  simp [codes]

theorem drop_codes {b : ByteArray} {i : Nat} (h : i < b.size) :
    (codes b).drop i = b[i] :: (codes b).drop (i + 1) := by
  rw [List.drop_eq_getElem_cons (by simpa using h)]
  rfl

theorem codes_extract (b : ByteArray) (start stop : Nat) :
    codes (b.extract start stop) = ((codes b).drop start).take (stop - start) := by
  simp [codes, ByteArray.data_extract, Array.toList_extract, List.extract_eq_take_drop]

@[simp] theorem codes_push (b : ByteArray) (c : UInt8) : codes (b.push c) = codes b ++ [c] := by
  simp [codes]

@[simp] theorem bytes_append (l m : List UInt8) : bytes (l ++ m) = bytes l ++ bytes m := by
  simp [bytes]

@[simp] theorem bytes_nil_append (b : ByteArray) : bytes [] ++ b = b := by
  simp [bytes]

theorem codes_injective {b c : ByteArray} (h : codes b = codes c) : b = c := by
  rw [← bytes_codes b, h, bytes_codes]

namespace Ascii

def isDigit (c : UInt8) : Bool := 48 ≤ c && c ≤ 57

def isLower (c : UInt8) : Bool := 97 ≤ c && c ≤ 122

def isUpper (c : UInt8) : Bool := 65 ≤ c && c ≤ 90

def isAlpha (c : UInt8) : Bool := isLower c || isUpper c

def isAlnum (c : UInt8) : Bool := isAlpha c || isDigit c

/-- Space, tab, line feed, vertical tab, form feed and carriage return. -/
def isSpace (c : UInt8) : Bool := c == 32 || 9 ≤ c && c ≤ 13

def isControl (c : UInt8) : Bool := c < 32 || c == 127

def isGraph (c : UInt8) : Bool := 33 ≤ c && c ≤ 126

def isPunct (c : UInt8) : Bool := isGraph c && !isAlnum c

def toLower (c : UInt8) : UInt8 := if isUpper c then c + 32 else c

def toUpper (c : UInt8) : UInt8 := if isLower c then c - 32 else c

def hexValue? (c : UInt8) : Option Nat :=
  if isDigit c then some (c.toNat - 48)
  else if 97 ≤ c && c ≤ 102 then some (c.toNat - 87)
  else if 65 ≤ c && c ≤ 70 then some (c.toNat - 55)
  else none

def isHexDigit (c : UInt8) : Bool := (hexValue? c).isSome

/-- The digit of a value below thirty-six, in lower case. -/
def digit (value : Nat) : UInt8 := if value < 10 then UInt8.ofNat (48 + value)
    else UInt8.ofNat (87 + value)

/-- The numeral of `n` in a base of at least two, without leading zeros. -/
def numeral (base n : Nat) : List UInt8 :=
  if n < base ∨ base < 2 then [digit n]
  else numeral base (n / base) ++ [digit (n % base)]
termination_by n
decreasing_by exact Nat.div_lt_self (by omega) (by omega)

/-- The decimal numeral of an integer, with a minus sign if it is negative. -/
def decimal (n : Int) : List UInt8 := (if n < 0 then [45] else []) ++ numeral 10 n.natAbs

/-- The value of digits in a base; the digits are taken as they come. -/
def value (base : Nat) (digits : List Nat) : Nat := digits.foldl (fun n d => n * base + d) 0

/-- Text of ASCII codes as a `String`. -/
def text (codes : List UInt8) : String := String.ofList (codes.map fun c => Char.ofNat c.toNat)

end Ascii

namespace Hex

/-- Two lower-case digits for each byte. -/
def encode (b : ByteArray) : String :=
  Ascii.text (codes b |>.flatMap fun c => [Ascii.digit (c.toNat / 16), Ascii.digit (c.toNat % 16)])

/-- Why a text is no hexadecimal form. -/
inductive DecodeError where
  | oddLength
  /-- A byte that is no digit, and its place. -/
  | invalidByte (code : UInt8) (index : Nat)
deriving DecidableEq, Repr

/-- Reads pairs of digits; `index` is the place of the next one. -/
def decodeFrom (index : Nat) : List UInt8 → Except DecodeError (List UInt8)
  | [] => .ok []
  | [_] => .error .oddLength
  | a :: b :: rest =>
    match Ascii.hexValue? a, Ascii.hexValue? b with
    | none, _ => .error (.invalidByte a index)
    | some _, none => .error (.invalidByte b (index + 1))
    | some x, some y => do return UInt8.ofNat (16 * x + y) :: (← decodeFrom (index + 2) rest)

/-- Reads the hexadecimal form in a text.  An odd number of bytes is refused
before any digit is looked at. -/
def decode (text : String) : Except DecodeError ByteArray :=
  if text.utf8ByteSize % 2 = 1 then .error .oddLength
  else (decodeFrom 0 (codes text.toUTF8)).map bytes

end Hex
end SealedLua
