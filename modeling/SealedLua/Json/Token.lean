import SealedLua.Json.Number
import SealedLua.Text.Quoted

/-!
# JSON text in tokens

A JSON text is a sequence of tokens with white space between them.  A token
says where it begins and ends in the text.  What begins like a value but is
none is a token as well: whether that matters is up to whoever wants a value
there.  Nothing is read after such a token.
-/

namespace SealedLua.Json

/-- Why a text is refused. -/
inductive Fault where
  | endInList | endInObject | endInText | endInValue
  | colonExpected | listEndExpected | objectEndExpected | wordExpected | valueExpected
  | wrongEscape | wrongNumber | numberOutOfRange | controlCharacter
  | keyNotText | loneSurrogate | unfinishedSurrogate | trailingComma | trailingText
  | wrongType (found expected : String)
  | wrongValue (found expected : String)
  | wrongLength (found : Nat) (expected : String)
  | unknownField (name : String) (known : List String)
  | duplicateField (name : String)
  | missingField (name : String)
  /-- A value that is refused for a reason of its own. -/
  | refused (reason : String)
deriving DecidableEq, Repr

namespace Fault

def mark : Char := '\x60'

def marked (s : String) : String := String.ofList (mark :: s.toList ++ [mark])

def message : Fault → String
  | .endInList => "EOF while parsing a list"
  | .endInObject => "EOF while parsing an object"
  | .endInText => "EOF while parsing a string"
  | .endInValue => "EOF while parsing a value"
  | .colonExpected => "expected " ++ marked ":"
  | .listEndExpected => "expected " ++ marked "," ++ " or " ++ marked "]"
  | .objectEndExpected => "expected " ++ marked "," ++ " or " ++ marked "\x7d"
  | .wordExpected => "expected ident"
  | .valueExpected => "expected value"
  | .wrongEscape => "invalid escape"
  | .wrongNumber => "invalid number"
  | .numberOutOfRange => "number out of range"
  | .controlCharacter => "control character (\\u0000-\\u001F) found while parsing a string"
  | .keyNotText => "key must be a string"
  | .loneSurrogate => "lone leading surrogate in hex escape"
  | .unfinishedSurrogate => "unexpected end of hex escape"
  | .trailingComma => "trailing comma"
  | .trailingText => "trailing characters"
  | .wrongType found expected => "invalid type: " ++ found ++ ", expected " ++ expected
  | .wrongValue found expected => "invalid value: " ++ found ++ ", expected " ++ expected
  | .wrongLength found expected => "invalid length " ++ toString found ++ ", expected " ++ expected
  | .unknownField name known =>
    "unknown field " ++ marked name ++ ", expected one of " ++ ", ".intercalate (known.map marked)
  | .duplicateField name => "duplicate field " ++ marked name
  | .missingField name => "missing field " ++ marked name
  | .refused reason => reason

def ofNumber : NumberFault → Fault
  | .unfinished => .endInValue
  | .malformed => .wrongNumber
  | .outOfRange => .numberOutOfRange

end Fault

inductive TokenKind where
  | comma | colon | listStart | listEnd | objectStart | objectEnd
  | null
  | boolean (value : Bool)
  | number (n : Number)
  | text (s : String)
  /-- What begins like a text and is none. -/
  | brokenText (fault : Fault)
  /-- What begins like another value and is none. -/
  | brokenValue (fault : Fault)
  /-- A character that begins nothing. -/
  | stray
deriving DecidableEq, Repr

/-- A token, and the numbers of characters up to its beginning and its end. -/
structure Token where
  kind : TokenKind
  start : Nat
  stop : Nat
deriving DecidableEq, Repr

def hexDigit? (c : Char) : Option Nat := if c.val < 128 then Ascii.hexValue? c.val.toUInt8 else none

def byteLength (s : List Char) : Nat := s.foldl (fun n c => n + c.utf8Size) 0

/-- Four hexadecimal digits, or what is wrong and how many characters it takes to see it. -/
def fourDigits (s : List Char) : Except (Fault × Nat) Nat :=
  match s.take 4 |>.mapM hexDigit? with
  | some [a, b, c, d] => .ok (Ascii.value 16 [a, b, c, d])
  | _ =>
    let size := byteLength (s.take 4)
    if size < 4 then .error (.endInText, s.length) else .error (.wrongEscape, min 4 s.length)

/-- Whether a number is the first or the second half of a character. -/
def isHigh (n : Nat) : Bool := 0xD800 ≤ n && n < 0xDC00
def isLow (n : Nat) : Bool := 0xDC00 ≤ n && n < 0xE000

/-- Reads an escape of a character by its code, in one half or two. -/
def readCode (s : List Char) : Except (Fault × Nat) (Char × Nat) := do
  let n ← fourDigits s
  if isLow n then .error (.loneSurrogate, 4)
  else if !isHigh n then .ok (Char.ofNat n, 4)
  else
    match s.drop 4 with
    | [] => .error (.endInText, 4)
    | ['\\'] => .error (.endInText, 5)
    | '\\' :: 'u' :: more =>
      match fourDigits more with
      | .error (fault, seen) => .error (fault, seen + 6)
      | .ok m =>
        if isLow m then .ok (Char.ofNat (0x10000 + (n - 0xD800) * 0x400 + (m - 0xDC00)), 10)
        else .error (.loneSurrogate, 10)
    | '\\' :: _ => .error (.unfinishedSurrogate, 6)
    | _ => .error (.unfinishedSurrogate, 5)

/-- Reads an escape after its backslash: the character and the length of the escape. -/
def readEscape : List Char → Except (Fault × Nat) (Char × Nat)
  | [] => .error (.endInText, 0)
  | 'u' :: rest =>
    match readCode rest with
    | .ok (c, n) => .ok (c, n + 1)
    | .error (fault, n) => .error (fault, n + 1)
  | '"' :: _ => .ok ('"', 1)
  | '\\' :: _ => .ok ('\\', 1)
  | '/' :: _ => .ok ('/', 1)
  | 'b' :: _ => .ok ('\x08', 1)
  | 'f' :: _ => .ok ('\x0c', 1)
  | 'n' :: _ => .ok ('\n', 1)
  | 'r' :: _ => .ok ('\r', 1)
  | 't' :: _ => .ok ('\t', 1)
  | _ :: _ => .error (.wrongEscape, 1)

/-- A reading with one more character in front of the text. -/
def Reading.cons (c : Char) : Reading Fault (List Char) → Reading Fault (List Char)
  | .ok (text, rest) => .ok (c :: text, rest)
  | .error e => .error e

def readText : List Char → Reading Fault (List Char)
  | [] => .error (.endInText, [])
  | c :: rest =>
    if c = '"' then .ok ([], rest)
    else if c = '\\' then
      match readEscape rest with
      | .error (fault, n) => .error (fault, rest.drop n)
      | .ok (c, n) => (readText (rest.drop n)).cons c
    else if c.val < 32 then .error (.controlCharacter, rest)
    else (readText rest).cons c
termination_by s => s.length
decreasing_by all_goals simp +arith

def readWord (kind : TokenKind) : List Char → List Char → Reading Fault TokenKind
  | [], text => .ok (kind, text)
  | _ :: _, [] => .error (.endInValue, [])
  | w :: word, c :: rest => if c = w then readWord kind word rest else .error (.wordExpected, rest)

def isBlank (c : Char) : Bool := c = ' ' || c = '\n' || c = '\t' || c = '\r'

/-- Reads the token that begins with a character.  What is no token is given
with the text behind the place where that shows. -/
def readToken (c : Char) (rest : List Char) : TokenKind × List Char :=
  let value := fun (r : Reading Fault TokenKind) => match r with
    | .ok r => r
    | .error (fault, rest) => (.brokenValue fault, rest)
  if c = ',' then (.comma, rest)
  else if c = ':' then (.colon, rest)
  else if c = '[' then (.listStart, rest)
  else if c = ']' then (.listEnd, rest)
  else if c = '\x7b' then (.objectStart, rest)
  else if c = '\x7d' then (.objectEnd, rest)
  else if c = '"' then
    match readText rest with
    | .ok (text, rest) => (.text (String.ofList text), rest)
    | .error (fault, rest) => (.brokenText fault, rest)
  else if c = 'n' then value (readWord .null ['u', 'l', 'l'] rest)
  else if c = 't' then value (readWord (.boolean true) ['r', 'u', 'e'] rest)
  else if c = 'f' then value (readWord (.boolean false) ['a', 'l', 's', 'e'] rest)
  else if c = '-' || c.isDigit then
    match Number.read (c :: rest) with
    | .ok (n, rest) => (.number n, rest)
    | .error (fault, rest) => (.brokenValue (.ofNumber fault), rest)
  else (.stray, rest)

def TokenKind.goesOn : TokenKind → Bool
  | .brokenText _ | .brokenValue _ | .stray => false
  | _ => true

/-- The tokens of a text of at most `fuel` characters, `index` characters into the whole. -/
def tokensFrom : Nat → Nat → List Char → List Token
  | 0, _, _ | _, _, [] => []
  | fuel + 1, index, c :: rest =>
    if isBlank c then tokensFrom fuel (index + 1) rest
    else
      let (kind, left) := readToken c rest
      let stop := index + 1 + (rest.length - left.length)
      ⟨kind, index, stop⟩ :: if kind.goesOn then tokensFrom fuel stop left else []

def tokens (text : List Char) : List Token := tokensFrom text.length 0 text

/-- A refusal of a text, and how many of its characters had been looked at; all
of them, if there is no number. -/
structure Refusal where
  fault : Fault
  seen : Option Nat := none
deriving DecidableEq, Repr

namespace Refusal

/-- A refusal in full, with the line and the column of the last byte that had
been looked at. -/
def message (text : List Char) (r : Refusal) : String :=
  let seen := match r.seen with
    | some n => text.take n
    | none => text
  let column := byteLength (seen.reverse.takeWhile (· ≠ '\n'))
  r.fault.message ++ " at line " ++ toString (seen.count '\n' + 1) ++ " column " ++ toString column

end Refusal

namespace Token

def described : TokenKind → String
  | .null => "null"
  | .boolean value => "boolean " ++ Fault.marked (if value then "true" else "false")
  | .number (.double x) => "floating point " ++ Fault.marked (Number.doubleText x)
  | .number n => "integer " ++ Fault.marked n.shown
  | .text s => "string " ++ Quoted.text s
  | .listStart => "sequence"
  | .objectStart => "map"
  | _ => ""

def refuse (t : Token) (fault : Fault) : Refusal := ⟨fault, some (t.start + 1)⟩

def refuseWhole (t : Token) (fault : Fault) : Refusal := ⟨fault, some t.stop⟩

/-- The refusal of a token where another value is expected. -/
def unexpected (t : Token) (expected : String) : Refusal :=
  match t.kind with
  | .brokenText fault | .brokenValue fault => t.refuseWhole fault
  | .comma | .colon | .listEnd | .objectEnd | .stray => t.refuse .valueExpected
  | .listStart | .objectStart => ⟨.wrongType (described t.kind) expected, some t.start⟩
  | _ => t.refuseWhole (.wrongType (described t.kind) expected)

end Token
end SealedLua.Json
