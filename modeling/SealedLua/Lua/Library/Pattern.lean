import SealedLua.Bytes.Ascii

/-!
# Patterns

A pattern is read as it is matched, item by item from its front.  Each item is
either a class of bytes with an optional repetition, a capture, a balanced
stretch, a frontier, a reference to an earlier capture, or the end of the
subject.  Every step shortens the pattern, so matching ends; how deep it may
recurse is limited besides, and a pattern that needs more is refused.
-/

namespace SealedLua.Lua.Pattern

/-- Why a pattern cannot be used. -/
inductive PatternError where
  | tooComplex
  | endsWithEscape
  | missingBracket
  | missingBalanceArguments
  | missingFrontierSet
  | tooManyCaptures
  | invalidCapture
  | unfinishedCapture
  | captureIndex (n : Int)
  | replacementIndex (n : Nat)
  | replacementEscape
deriving DecidableEq

namespace PatternError

def message : PatternError → String
  | .tooComplex => "pattern too complex"
  | .endsWithEscape => "malformed pattern (ends with '%')"
  | .missingBracket => "malformed pattern (missing ']')"
  | .missingBalanceArguments => "malformed pattern (missing arguments to '%b')"
  | .missingFrontierSet => "missing '[' after '%f' in pattern"
  | .tooManyCaptures => "too many captures"
  | .invalidCapture => "invalid pattern capture"
  | .unfinishedCapture => "unfinished capture"
  | .captureIndex n => "invalid capture index %" ++ toString n
  | .replacementIndex n => "invalid capture index %" ++ toString n ++ " in replacement string"
  | .replacementEscape => "invalid use of '%' in replacement string"

end PatternError

def captureLimit : Nat := 32

/-- How deep matching may recurse. -/
def depthLimit : Nat := 200

/-- A capture: still open, a position, or a stretch of the subject. -/
inductive Capture where
  | opened (start : Nat)
  | position (start : Nat)
  | stretch (start length : Nat)
deriving DecidableEq, Inhabited

/-- The captures so far, in the order of their opening parentheses. -/
abbrev Captures := List Capture

/-- A set of bytes that is the first part of an item. -/
inductive Class where
  | any
  | escaped (c : UInt8)
  | set (body : List UInt8)
  | byte (c : UInt8)

/-- Whether a byte is in the class of a letter; an upper-case letter is the
complement of its class, and any other character is itself. -/
def inClass (c letter : UInt8) : Bool :=
  let test := match Ascii.toLower letter with
    | 97 => some (Ascii.isAlpha c)
    | 99 => some (Ascii.isControl c)
    | 100 => some (Ascii.isDigit c)
    | 103 => some (Ascii.isGraph c)
    | 108 => some (Ascii.isLower c)
    | 112 => some (Ascii.isPunct c)
    | 115 => some (Ascii.isSpace c)
    | 117 => some (Ascii.isUpper c)
    | 119 => some (Ascii.isAlnum c)
    | 120 => some (Ascii.isHexDigit c)
    | _ => none
  match test with
  | some b => if Ascii.isUpper letter then !b else b
  | none => letter == c

/-- Whether a byte is among the members of a set, written between its brackets. -/
def inMembers (c : UInt8) : List UInt8 → Bool
  | [] => false
  | 37 :: letter :: rest => inClass c letter || inMembers c rest
  | low :: 45 :: high :: rest => (low ≤ c && c ≤ high) || inMembers c rest
  | member :: rest => member == c || inMembers c rest

def inSet (c : UInt8) : List UInt8 → Bool
  | 94 :: members => !inMembers c members
  | members => inMembers c members

namespace Class

def test (k : Class) (c : UInt8) : Bool :=
  match k with
  | .any => true
  | .escaped letter => inClass c letter
  | .set body => inSet c body
  | .byte b => b == c

/-- Whether the subject has a byte of the class at a place. -/
def testAt (k : Class) (subject : ByteArray) (i : Nat) : Bool :=
  if h : i < subject.size then k.test subject[i] else false

end Class

/-- The members of a set up to its closing bracket, which cannot be the first
member's place, and what follows. -/
def takeSet : List UInt8 → Bool → Except PatternError (List UInt8 × List UInt8)
  | [], _ => .error .missingBracket
  | 93 :: rest, false => .ok ([], rest)
  | 37 :: c :: rest, _ => (takeSet rest false).map fun (body, rest) => (37 :: c :: body, rest)
  | c :: rest, _ => (takeSet rest false).map fun (body, rest) => (c :: body, rest)

/-- The class at the front of a pattern and the rest of the pattern. -/
def takeClass : List UInt8 → Except PatternError (Class × List UInt8)
  | 37 :: rest =>
    match rest with
    | c :: rest => .ok (.escaped c, rest)
    | [] => .error .endsWithEscape
  | 91 :: 94 :: rest => (takeSet rest true).map fun (body, rest) => (.set (94 :: body), rest)
  | 91 :: rest => (takeSet rest true).map fun (body, rest) => (.set body, rest)
  | 46 :: rest => .ok (.any, rest)
  | c :: rest => .ok (.byte c, rest)
  | [] => .error .endsWithEscape

/-- How many bytes of a class there are in a row from a place. -/
def runLength (k : Class) (subject : ByteArray) (i : Nat) : Nat :=
  if _h : i < subject.size then
    if k.test subject[i] then runLength k subject (i + 1) + 1 else 0
  else 0
termination_by subject.size - i

/-- The end of the balanced stretch that starts at a place. -/
def balanceEnd (opening closing : UInt8) (subject : ByteArray) (i depth : Nat) : Option Nat :=
  if _h : i < subject.size then
    let c := subject[i]
    if c == closing then if depth = 1 then some (i + 1)
      else balanceEnd opening closing subject (i + 1) (depth - 1)
    else if c == opening then balanceEnd opening closing subject (i + 1) (depth + 1)
    else balanceEnd opening closing subject (i + 1) depth
  else none
termination_by subject.size - i

def closeCapture (captures : Captures) (i : Nat) : Except PatternError Captures :=
  let rec close : Captures → Option Captures
    | [] => none
    | .opened start :: rest => some (.stretch start (i - start) :: rest)
    | c :: rest => (close rest).map (c :: ·)
  match close captures.reverse with
  | some closed => .ok closed.reverse
  | none => .error .invalidCapture

/-- Whether the subject has at a place the same bytes as in an earlier stretch. -/
def repeatsAt (subject : ByteArray) (start length i : Nat) : Bool :=
  i + length ≤ subject.size && subject.extract start (start + length) ==
    subject.extract i (i + length)

abbrev Match := Except PatternError (Option (Nat × Captures))

/-- Tries a longest run first and gives back one byte at a time. -/
def longest (i : Nat) (attempt : Nat → Match) : Nat → Match
  | 0 => attempt i
  | n + 1 => do
    match ← attempt (i + n + 1) with
    | some m => return some m
    | none => longest i attempt n

/-- Tries an empty run first and adds one byte at a time, up to `n`. -/
def shortest (i : Nat) (attempt : Nat → Match) : Nat → Match
  | 0 => attempt i
  | n + 1 => do
    match ← attempt i with
    | some m => return some m
    | none => shortest (i + 1) attempt n

/-- The byte before a place, zero at the start. -/
def before (subject : ByteArray) (i : Nat) : UInt8 :=
  if i = 0 then 0 else subject.data[i - 1]?.getD 0

def byteAt (subject : ByteArray) (i : Nat) : UInt8 := subject.data[i]?.getD 0

/-- Matches a pattern at a place of the subject: where the match ends and what
it captures.  The budget is larger than the length of the pattern. -/
def matchHere (subject : ByteArray) : Nat → Nat → List UInt8 → Nat → Captures → Match
  | 0, _, _, _, _ => .error .tooComplex
  | budget + 1, depth, pattern, i, captures =>
    -- A step deeper, as opposed to going on at the same depth.
    let deeper := fun (pattern : List UInt8) (i : Nat) (captures : Captures) =>
      match depth with
      | 0 => (.error .tooComplex : Match)
      | depth + 1 => matchHere subject budget depth pattern i captures
    match pattern with
    | [] => .ok (some (i, captures))
    | 40 :: 41 :: rest =>
      if captures.length ≥ captureLimit then .error .tooManyCaptures
      else deeper rest i (captures ++ [.position i])
    | 40 :: rest =>
      if captures.length ≥ captureLimit then .error .tooManyCaptures
      else deeper rest i (captures ++ [.opened i])
    | 41 :: rest => do deeper rest i (← closeCapture captures i)
    | [36] => .ok (if i = subject.size then some (i, captures) else none)
    | 37 :: 98 :: rest =>
      match rest with
      | opening :: closing :: rest =>
        if Class.testAt (.byte opening) subject i then
          match balanceEnd opening closing subject (i + 1) 1 with
          | some j => matchHere subject budget depth rest j captures
          | none => .ok none
        else .ok none
      | _ => .error .missingBalanceArguments
    | 37 :: 102 :: rest =>
      match rest with
      | 91 :: _ => do
        let (k, rest) ← takeClass rest
        if !k.test (before subject i) && k.test (byteAt subject i) then
          matchHere subject budget depth rest i captures
        else return none
      | _ => .error .missingFrontierSet
    | _ =>
      let reference? := match pattern with
        | 37 :: d :: rest => if Ascii.isDigit d then some (d, rest) else none
        | _ => none
      match reference? with
      | some (d, rest) =>
        match captures[d.toNat - 49]? with
        | some (.stretch start length) =>
          if d == 48 then .error (.captureIndex 0)
          else if repeatsAt subject start length i then matchHere subject budget
            depth rest (i + length) captures
          else .ok none
        | some (.position _) => if d == 48 then .error (.captureIndex 0) else .ok none
        | _ => .error (.captureIndex ((d.toNat : Int) - 48))
      | none => do
        let (k, rest) ← takeClass pattern
        match rest with
        | 63 :: rest =>
          if k.testAt subject i then
            match ← deeper rest (i + 1) captures with
            | some m => return some m
            | none => matchHere subject budget depth rest i captures
          else matchHere subject budget depth rest i captures
        | 43 :: rest =>
          let n := runLength k subject i
          if n = 0 then return none
          else longest (i + 1) (fun j => deeper rest j captures) (n - 1)
        | 42 :: rest => longest i (fun j => deeper rest j captures) (runLength k subject i)
        | 45 :: rest => shortest i (fun j => deeper rest j captures) (runLength k subject i)
        | rest =>
          if k.testAt subject i then matchHere subject budget depth rest (i + 1) captures
            else return none

def matchAt (subject : ByteArray) (pattern : List UInt8) (i : Nat) : Match :=
  matchHere subject (pattern.length + 2) (depthLimit - 1) pattern i []

/-- The first place from `i` on, `more` places at most after it, where a pattern matches. -/
def firstMatch (subject : ByteArray) (pattern : List UInt8) (i : Nat) :
    Nat → Except PatternError (Option (Nat × Nat × Captures))
  | 0 => do return (← matchAt subject pattern i).map fun (e, c) => (i, e, c)
  | more + 1 => do
    match ← matchAt subject pattern i with
    | some (e, c) => return some (i, e, c)
    | none => firstMatch subject pattern (i + 1) more

/-- Whether a pattern has a character with a meaning of its own. -/
def hasSpecials (pattern : List UInt8) : Bool :=
  pattern.any fun c => (ascii "^$*+?.([%-").contains c

/-- The first place from `i` on, `more` places at most after it, where some bytes stand. -/
def firstPlain (subject text : ByteArray) (i : Nat) : Nat → Option Nat
  | 0 => if here i then some i else none
  | more + 1 => if here i then some i else firstPlain subject text (i + 1) more
where
  here (i : Nat) : Bool := i + text.size ≤ subject.size && subject.extract i (i + text.size) == text

/-- What a match gives to the script: a stretch of the subject or a position. -/
inductive Piece where
  | text (s : ByteArray)
  | position (n : Nat)

def piece (subject : ByteArray) : Capture → Except PatternError Piece
  | .opened _ => .error .unfinishedCapture
  | .position start => .ok (.position (start + 1))
  | .stretch start length => .ok (.text (subject.extract start (start + length)))

/-- The captures of a match; without any, the whole match. -/
def pieces (subject : ByteArray) (start stop : Nat) (captures : Captures) :
    Except PatternError (List Piece) :=
  if captures.isEmpty then .ok [.text (subject.extract start stop)]
  else captures.mapM (piece subject)

end SealedLua.Lua.Pattern
