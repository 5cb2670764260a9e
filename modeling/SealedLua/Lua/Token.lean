import SealedLua.Lua.Syntax

/-!
# Tokens

The text of a chunk as a list of tokens, each with the line on which it ends.
The reader goes over a list of bytes; every function that takes something off
its front gives the rest of the list.  Loops are bounded by the length of the
text that they start from.
-/

namespace SealedLua.Lua

inductive Token where
  | name (n : ByteArray)
  /-- A reserved word. -/
  | word (w : String)
  | sign (s : String)
  | string (s : ByteArray)
  | number (n : Number)
  | finish
deriving DecidableEq

/-- Why a text is not a chunk: a line, a reason and the place as messages show
it, if they do.  Too deep a nesting is not an error of syntax. -/
inductive ChunkError where
  | malformed (line : Nat) (reason : String) (near : Option ByteArray)
  | tooDeep
  | binary
deriving DecidableEq

namespace Token

def words : List String :=
  ["and", "break", "do", "else", "elseif", "end", "false", "for", "function", "goto",
    "if", "in", "local", "nil", "not", "or", "repeat", "return", "then", "true", "until", "while"]

def signs : List String :=
  ["...", "..", "==", "~=", "<=", ">=", "//", "::", "<<", ">>", "+", "-", "*", "/", "%",
    "^", "#", "&", "~", "|", "<", ">", "=", "(", ")", "\x7b", "\x7d", "[", "]", ";", ":", ",", "."]

def signCodes : List (List UInt8 × String) := signs.map fun s => (ascii s, s)

def wordCodes : List (ByteArray × String) := words.map fun w => (bytes (ascii w), w)

def quoted (text : ByteArray) : ByteArray := bytes [39] ++ text ++ bytes [39]

def shown : Token → ByteArray
  | .name n => quoted n
  | .word w => quoted (bytes (ascii w))
  | .sign s => quoted (bytes (ascii s))
  | .string s => quoted (bytes [34] ++ s ++ bytes [34])
  | .number n => quoted (bytes n.text)
  | .finish => bytes (ascii "<eof>")

end Token

namespace Lexer

def isNameStart (c : UInt8) : Bool := Ascii.isAlpha c || c == 95

def isNamePart (c : UInt8) : Bool := isNameStart c || Ascii.isDigit c

def isLineEnd (c : UInt8) : Bool := c == 10 || c == 13

/-- Takes the end of a line off a text that starts with one.  A line feed and a
carriage return next to each other are one end, in either order. -/
def takeLineEnd : List UInt8 → List UInt8
  | 10 :: 13 :: rest => rest
  | 13 :: 10 :: rest => rest
  | _ :: rest => rest
  | [] => []

/-- The number of equals signs of a long bracket that opens (or closes) at the
front of a text, after its first bracket, and the text after the second. -/
def takeLongBracket (bracket : UInt8) (text : List UInt8) : Option (Nat × List UInt8) :=
  let level := (text.takeWhile (· == 61)).length
  match text.dropWhile (· == 61) with
  | c :: rest => if c == bracket then some (level, rest) else none
  | [] => none

/-- The contents of a long bracket up to its end, the text after it, and the
number of lines passed.  Contents are gathered the last byte first. -/
def takeLong (level : Nat) : Nat → List UInt8 → List UInt8 → Nat →
    Option (List UInt8 × List UInt8 × Nat)
  | 0, _, _, _ => none
  | _ + 1, [], _, _ => none
  | fuel + 1, 93 :: rest, gathered, lines =>
    match takeLongBracket 93 rest with
    | some (l, after) => if l = level then some (gathered.reverse, after, lines)
      else takeLong level fuel rest (93 :: gathered) lines
    | none => takeLong level fuel rest (93 :: gathered) lines
  | fuel + 1, c :: rest, gathered, lines =>
    if isLineEnd c then takeLong level fuel (takeLineEnd (c :: rest)) (10 :: gathered) (lines + 1)
    else takeLong level fuel rest (c :: gathered) lines

/-- The contents of a long bracket without a line end right after its start. -/
def takeLongBody (level : Nat) (text : List UInt8) : Option (List UInt8 × List UInt8 × Nat) :=
  match text with
  | c :: _ =>
    if isLineEnd c then takeLong level text.length (takeLineEnd text) [] 1
    else takeLong level (text.length + 1) text [] 0
  | [] => none

/-- The UTF-8 form of a number below `2 ^ 31`, in up to six bytes. -/
def utf8 (n : Nat) : List UInt8 :=
  if n < 0x80 then [UInt8.ofNat n]
  else tail 6 n 0x3f []
where
  /-- Splits off six bits at a time until the rest fits in the first byte. -/
  tail : Nat → Nat → Nat → List UInt8 → List UInt8
    | 0, _, _, done => done
    | fuel + 1, n, limit, done =>
      let done := UInt8.ofNat (0x80 + n % 64) :: done
      let n := n / 64
      let limit := limit / 2
      if n > limit then tail fuel n limit done
      else UInt8.ofNat ((255 - (2 * limit + 1)) + n) :: done

def simpleEscape? (c : UInt8) : Option UInt8 :=
  match c with
  | 97 => some 7
  | 98 => some 8
  | 102 => some 12
  | 110 => some 10
  | 114 => some 13
  | 116 => some 9
  | 118 => some 11
  | 92 => some 92
  | 34 => some 34
  | 39 => some 39
  | _ => none

/-- Reads what follows a backslash other than a line end or `z`. -/
def takeEscape (text : List UInt8) : Except String (List UInt8 × List UInt8) :=
  match text with
  | 120 :: a :: b :: rest =>
    match Ascii.hexValue? a, Ascii.hexValue? b with
    | some x, some y => .ok ([UInt8.ofNat (16 * x + y)], rest)
    | _, _ => .error "hexadecimal digit expected"
  | 117 :: 123 :: rest =>
    let (digits, rest) := Number.takeDigits 16 rest
    let n := Ascii.value 16 digits
    if digits.isEmpty then .error "hexadecimal digit expected"
    else if 2 ^ 31 ≤ n then .error "UTF-8 value too large"
    else
      match rest with
      | 125 :: rest => .ok (utf8 n, rest)
      | _ => .error "missing '\x7d'"
  | c :: rest =>
    match simpleEscape? c with
    | some e => .ok ([e], rest)
    | none =>
      if Ascii.isDigit c then
        let digits := ((c :: rest).take 3).takeWhile Ascii.isDigit
        let n := Ascii.value 10 (digits.map fun d => d.toNat - 48)
        if n < 256 then .ok ([UInt8.ofNat n], (c :: rest).drop digits.length)
          else .error "decimal escape too large"
      else .error "invalid escape sequence"
  | [] => .error "unfinished string"

/-- Takes white space off a text and counts the lines passed. -/
def skipSpace : Nat → List UInt8 → Nat → List UInt8 × Nat
  | 0, text, lines => (text, lines)
  | _ + 1, [], lines => ([], lines)
  | fuel + 1, c :: rest, lines =>
    if isLineEnd c then skipSpace fuel (takeLineEnd (c :: rest)) (lines + 1)
    else if Ascii.isSpace c then skipSpace fuel rest lines
    else (c :: rest, lines)

/-- The value of a quoted string after its opening quote, the text after its
closing quote, and the number of lines passed. -/
def takeString (quote : UInt8) : Nat → List UInt8 → List UInt8 → Nat →
    Except String (List UInt8 × List UInt8 × Nat)
  | 0, _, _, _ => .error "unfinished string"
  | _ + 1, [], _, _ => .error "unfinished string"
  | fuel + 1, 92 :: rest, gathered, lines =>
    match rest with
    | 122 :: rest =>
      let (rest, lines) := skipSpace (rest.length + 1) rest lines
      takeString quote fuel rest gathered lines
    | c :: _ =>
      if isLineEnd c then takeString quote fuel (takeLineEnd rest) (10 :: gathered) (lines + 1)
      else
        match takeEscape rest with
        | .ok (value, rest) => takeString quote fuel rest (value.reverse ++ gathered) lines
        | .error e => .error e
    | [] => .error "unfinished string"
  | fuel + 1, c :: rest, gathered, lines =>
    if c == quote then .ok (gathered.reverse, rest, lines)
    else if isLineEnd c then .error "unfinished string"
    else takeString quote fuel rest (c :: gathered) lines

/-- The characters of a numeral at the front of a text: digits of any base,
points, and exponents with their signs. -/
def takeNumeral (mark : UInt8) : Nat → List UInt8 → List UInt8 → List UInt8 × List UInt8
  | 0, text, gathered => (gathered.reverse, text)
  | _ + 1, [], gathered => (gathered.reverse, [])
  | fuel + 1, c :: rest, gathered =>
    if Ascii.toLower c == mark then
      match rest with
      | s :: more =>
        if s == 43 || s == 45 then takeNumeral mark fuel more (s :: c :: gathered)
        else takeNumeral mark fuel rest (c :: gathered)
      | [] => ((c :: gathered).reverse, [])
    else if Ascii.isHexDigit c || c == 46 then takeNumeral mark fuel rest (c :: gathered)
    else (gathered.reverse, c :: rest)

/-- A numeral token; a letter right after it spoils it. -/
def readNumeral (text : List UInt8) : Option (Number × List UInt8) :=
  let (numeral, rest) := match text with
    | 48 :: x :: rest =>
      if Ascii.toLower x == 120 then takeNumeral 112 (rest.length + 1) rest [x, 48]
      else takeNumeral 101 (text.length + 1) text []
    | _ => takeNumeral 101 (text.length + 1) text []
  match rest with
  | c :: _ => if isNameStart c then none else (Number.read? numeral).map fun n => (n, rest)
  | [] => (Number.read? numeral).map fun n => (n, rest)

def takeSign (text : List UInt8) : Option (String × List UInt8) :=
  (Token.signCodes.find? fun s => s.1.isPrefixOf text).map fun s => (s.2, text.drop s.1.length)

def shownByte (c : UInt8) : ByteArray :=
  if Ascii.isGraph c || c == 32 then Token.quoted (bytes [c])
  else Token.quoted (bytes (ascii "<\\" ++ Ascii.numeral 10 c.toNat ++ ascii ">"))

def tokens : Nat → List UInt8 → Nat → Except ChunkError (List (Token × Nat))
  | 0, _, line => .ok [(.finish, line)]
  | _ + 1, [], line => .ok [(.finish, line)]
  | fuel + 1, c :: rest, line =>
    let text := c :: rest
    let after := fun (t : Token) (line : Nat) (rest : List UInt8) =>
      (tokens fuel rest line).map fun ts => (t, line) :: ts
    if isLineEnd c then tokens fuel (takeLineEnd text) (line + 1)
    else if Ascii.isSpace c then tokens fuel rest line
    else if isNameStart c then
      let name := bytes (text.takeWhile isNamePart)
      let rest := text.dropWhile isNamePart
      match Token.wordCodes.find? fun w => w.1 == name with
      | some (_, w) => after (.word w) line rest
      | none => after (.name name) line rest
    else if Ascii.isDigit c || c == 46 && (rest.head?.any Ascii.isDigit) then
      match readNumeral text with
      | some (n, rest) => after (.number n) line rest
      | none => .error (.malformed line "malformed number" none)
    else if c == 34 || c == 39 then
      match takeString c (rest.length + 1) rest [] line with
      | .ok (value, rest, line) => after (.string (bytes value)) line rest
      | .error reason => .error (.malformed line reason none)
    else if c == 45 && rest.head? == some 45 then
      let comment := rest.drop 1
      let lineComment := fun (_ : Unit) =>
        tokens fuel (comment.dropWhile fun c => !isLineEnd c) line
      match comment with
      | 91 :: body =>
        match takeLongBracket 91 body with
        | some (level, body) =>
          match takeLongBody level body with
          | some (_, rest, lines) => tokens fuel rest (line + lines)
          | none => .error (.malformed line "unfinished long comment" none)
        | none => lineComment ()
      | _ => lineComment ()
    else if c == 91 && (rest.head? == some 91 || rest.head? == some 61) then
      match takeLongBracket 91 rest with
      | some (level, body) =>
        match takeLongBody level body with
        | some (value, rest, lines) => after (.string (bytes value)) (line + lines) rest
        | none => .error (.malformed line "unfinished long string" none)
      | none => .error (.malformed line "invalid long string delimiter" none)
    else
      match takeSign text with
      | some (s, rest) => after (.sign s) line rest
      | none => .error (.malformed line "unexpected symbol" (some (shownByte c)))

/-- The tokens of a chunk, closed by `finish`. -/
def run (source : ByteArray) : Except ChunkError (List (Token × Nat)) :=
  tokens (source.size + 1) (codes source) 1

end Lexer
end SealedLua.Lua
