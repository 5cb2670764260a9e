import SealedLua.Lua.Native

/-!
# Formatted text

`format` goes through its format text and writes each argument under the
conversion that stands for it.  A conversion has flags, a width of at most two
digits, and a precision of at most two; which flags are allowed depends on its
letter.  The conversion `q` writes a value so that it can be read back as a
literal.
-/

namespace SealedLua.Lua.Format

open Native

/-- A conversion: its letter and what stands between `%` and the letter. -/
structure Spec where
  flags : List UInt8
  width : Nat
  precision : Option Nat
  letter : UInt8

namespace Spec

def left (s : Spec) : Bool := s.flags.contains 45

def plus (s : Spec) : Bool := s.flags.contains 43

def alternate (s : Spec) : Bool := s.flags.contains 35

def zero (s : Spec) : Bool := s.flags.contains 48

def space (s : Spec) : Bool := s.flags.contains 32

/-- Fills up to the width: on the right, with zeros after the sign, or on the left. -/
def pad (s : Spec) (zeros : Bool) (sign body : List UInt8) : List UInt8 :=
  let missing := s.width - (sign.length + body.length)
  if s.left then sign ++ body ++ List.replicate missing 32
  else if zeros && s.zero then sign ++ List.replicate missing 48 ++ body
  else List.replicate missing 32 ++ sign ++ body

def sign (s : Spec) (negative : Bool) : List UInt8 :=
  if negative then [45] else if s.plus then [43] else if s.space then [32] else []

/-- The digits of an integer, as many as the precision asks for; zero without
any digit has none. -/
def digits (s : Spec) (text : List UInt8) (isZero : Bool) : List UInt8 :=
  match s.precision with
  | none => text
  | some 0 => if isZero then [] else text
  | some p => List.replicate (p - text.length) 48 ++ text

def decimal (s : Spec) (n : Int64) : List UInt8 :=
  s.pad s.precision.isNone (s.sign (n < 0)) (s.digits (Ascii.numeral 10 n.toInt.natAbs) (n == 0))

def unsigned (s : Spec) (n : Int64) : List UInt8 :=
  let value := n.toUInt64.toNat
  let base := if s.letter == 111 then 8 else if s.letter == 117 then 10 else 16
  let text := Ascii.numeral base value
  let text := if s.letter == 88 then text.map Ascii.toUpper else text
  let body := s.digits text (value == 0)
  let mark : List UInt8 := if s.alternate && base = 16 && value != 0 then [48, s.letter] else []
  let body := if s.alternate && base = 8 && body.head? != some 48 then 48 :: body else body
  s.pad s.precision.isNone mark body

/-- A double in one of the forms `a`, `e`, `f` and `g`; an upper-case letter
makes all letters upper-case. -/
def double (s : Spec) (x : Double) : List UInt8 :=
  let letter := Ascii.toLower s.letter
  let places := s.precision.getD 6
  let body :=
    if x.isNaN then ascii "nan"
    else if x.isInfinite then ascii "inf"
    else if letter == 97 then (x.hexadecimal s.precision s.alternate).drop 2
    else if letter == 101 then x.scientific places s.alternate
    else if letter == 102 then x.fixed places s.alternate
    else x.general places s.alternate
  let mark := if letter == 97 && x.isFinite then ascii "0x" else []
  let fold := fun text => if Ascii.isUpper s.letter then text.map Ascii.toUpper else text
  s.pad x.isFinite (s.sign x.negative ++ fold mark) (fold body)

/-- A text, cut to the precision. -/
def text (s : Spec) (body : List UInt8) : List UInt8 :=
  s.pad false [] (match s.precision with | some p => body.take p | none => body)

end Spec

def integerFlags : List UInt8 := ascii "-+0 "
def unsignedFlags : List UInt8 := ascii "-0"
def digitFlags : List UInt8 := ascii "-#0"
def doubleFlags : List UInt8 := ascii "-+#0 "
def textFlags : List UInt8 := ascii "-"

/-- Up to two digits at the front of a text, and their value. -/
def takeTwoDigits (text : List UInt8) : Option Nat × List UInt8 :=
  let digits := (text.take 2).takeWhile Ascii.isDigit
  if digits.isEmpty then (none, text)
  else (some (Ascii.value 10 (digits.map fun d => d.toNat - 48)), text.drop digits.length)

/-- Reads what stands between `%` and the letter, if only these flags and, where
it is allowed, a precision are in it. -/
def readSpec (flags : List UInt8) (precise : Bool) (modifiers : List UInt8) (letter : UInt8) :
    Option Spec :=
  let given := modifiers.takeWhile flags.contains
  let rest := modifiers.dropWhile flags.contains
  if rest.head? == some 48 then none
  else
    let (width, rest) := takeTwoDigits rest
    let (precision, rest) := match rest with
      | 46 :: more =>
        if precise then
          let (p, rest) := takeTwoDigits more
          (some (p.getD 0), rest)
        else (none, rest)
      | _ => (none, rest)
    if rest.isEmpty && Ascii.isAlpha letter then some ⟨given, width.getD 0, precision, letter⟩
      else none

/-- A string as a literal: quotes, backslashes and line ends are escaped, and
control characters are written by their codes, with three digits if a digit follows. -/
def quoted : List UInt8 → List UInt8
  | [] => []
  | c :: rest =>
    let code :=
      if c == 34 || c == 92 || c == 10 then [92, c]
      else if Ascii.isControl c then
        let digits := Ascii.numeral 10 c.toNat
        if rest.head?.any Ascii.isDigit then
          92 :: (List.replicate (3 - digits.length) 48 ++ digits)
        else 92 :: digits
      else [c]
    code ++ quoted rest

/-- A double as a literal that reads back exactly. -/
def doubleLiteral (x : Double) : List UInt8 :=
  if x.isNaN then ascii "(0/0)"
  else if x.isInfinite then ascii (if x.negative then "-1e9999" else "1e9999")
  else x.signed fun x => x.hexadecimal none false

/-- An integer as a literal; the least one has no decimal literal. -/
def integerLiteral (n : Int64) : List UInt8 :=
  if n = Int64.minValue then ascii "0x8000000000000000" else Ascii.decimal n.toInt

def literal? : Value → Option (List UInt8)
  | .string s => some ([34] ++ quoted (codes s) ++ [34])
  | .integer n => some (integerLiteral n)
  | .double x => some (doubleLiteral x)
  | .nil => some (ascii "nil")
  | .boolean b => some (ascii (if b then "true" else "false"))
  | _ => none

def specLimit : Nat := 22

def convert (args : List Value) (number : Nat) (modifiers : List UInt8) (letter : UInt8) :
    Native ByteArray := do
  let shown := ascii "%" ++ modifiers ++ (if letter == 0 then [] else [letter])
  let spec := fun (flags : List UInt8) (precise : Bool) => (
    match readSpec flags precise modifiers letter with
    | some s => pure s
    | none =>
      fail (bytes (ascii "invalid conversion specification: '" ++ shown ++ ascii "'")) :
        Native Spec)
  match letter with
  | 99 =>
    let s ← spec textFlags false
    let n ← integerArg args number
    return bytes (s.text [UInt8.ofNat (n.toInt % 256).toNat])
  | 100 | 105 =>
    let n ← integerArg args number
    return bytes ((← spec integerFlags true).decimal n)
  | 117 =>
    let n ← integerArg args number
    return bytes ((← spec unsignedFlags true).unsigned n)
  | 111 | 120 | 88 =>
    let n ← integerArg args number
    return bytes ((← spec digitFlags true).unsigned n)
  | 97 | 65 =>
    let s ← spec doubleFlags true
    return bytes (s.double (← doubleArg args number))
  | 101 | 69 | 102 | 103 | 71 =>
    let x ← doubleArg args number
    return bytes ((← spec doubleFlags true).double x)
  | 112 =>
    let s ← spec textFlags false
    let v := arg args number
    let h ← Action.get
    let pointed := match v with
      | .nil | .boolean _ | .integer _ | .double _ => ascii "(null)"
      | _ => addressText h v
    return bytes (s.text pointed)
  | 113 =>
    if !modifiers.isEmpty then failText "specifier '%q' cannot have modifiers"
    match literal? (arg args number) with
    | some text => return bytes text
    | none => badArgumentText number "value has no literal form"
  | 115 =>
    let text ← display (arg args number)
    if modifiers.isEmpty then return text
    else
      if text.data.contains 0 then badArgumentText number "string contains zeros"
      let s ← spec textFlags true
      if s.precision.isNone && text.size ≥ 100 then return text
      else return bytes (s.text (codes text))
  | _ => fail (bytes (ascii "invalid conversion '" ++ shown ++ ascii "' to 'format'"))

/-- Whether a character can stand between `%` and the letter. -/
def isModifier (c : UInt8) : Bool := (ascii "-+#0 123456789.").contains c

/-- Writes a format text; `number` is the argument before the next conversion's. -/
def write (args : List Value) : Nat → List UInt8 → Nat → ByteArray → Native ByteArray
  | 0, _, _, written => return written
  | _ + 1, [], _, written => return written
  | budget + 1, 37 :: 37 :: rest, number, written => write args budget rest number (written.push 37)
  | budget + 1, 37 :: rest, number, written => do
    let number := number + 1
    if number > args.length then badArgumentText number "no value"
    let modifiers := rest.takeWhile isModifier
    let after := rest.dropWhile isModifier
    if modifiers.length + 1 ≥ specLimit then failText "invalid format string to 'format'"
    let text ← convert args number modifiers (after.headD 0)
    write args budget (after.drop 1) number (written ++ text)
  | budget + 1, c :: rest, number, written => write args budget rest number (written.push c)

def format (args : List Value) : Native (List Value) := do
  let text ← stringArg args 1
  return [.string (← write args (text.size + 1) (codes text) 1 (bytes []))]

end SealedLua.Lua.Format
