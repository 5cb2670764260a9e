import SealedLua.Lua.Library.Format
import SealedLua.Lua.Library.Pattern

/-!
# The string functions

Functions on byte strings.  Positions count from one, and negative positions
from the end.  Operators on strings that spell numbers are functions of the
strings' metatable.
-/

namespace SealedLua.Lua.Text

open Native Pattern

/-- A starting position as a number from one; zero and positions before the
start are one. -/
def startPosition (position : Int64) (size : Nat) : Nat :=
  let p := position.toInt
  if 0 < p then p.toNat
  else if p = 0 then 1
  else if p < -(size : Int) then 1
  else (size + p + 1).toNat

def endPosition (position : Int64) (size : Nat) : Nat :=
  let p := position.toInt
  if (size : Int) < p then size
  else if 0 ≤ p then p.toNat
  else if p < -(size : Int) then 0
  else (size + p + 1).toNat

/-- The largest size of a string that is made by repetition. -/
def sizeLimit : Nat := 2 ^ 31 - 1

def len (args : List Value) : Native (List Value) := do
  return [.integer (Int64.ofNat (← stringArg args 1).size)]

def sub (args : List Value) : Native (List Value) := do
  let s ← stringArg args 1
  let start := startPosition (← integerArg args 2) s.size
  let stop := endPosition (← integerArgOr args 3 (-1)) s.size
  return [.string (s.extract (start - 1) stop)]

def mapped (f : UInt8 → UInt8) (args : List Value) : Native (List Value) := do
  let s ← stringArg args 1
  return [.string ⟨s.data.map f⟩]

def reverse (args : List Value) : Native (List Value) := do
  let s ← stringArg args 1
  return [.string ⟨s.data.reverse⟩]

/-- A text followed by `n` times a separator and another text. -/
def extended (separator s : ByteArray) : Nat → ByteArray → ByteArray
  | 0, text => text
  | n + 1, text => extended separator s n (text ++ separator ++ s)

/-- A text `n` times, with a separator between. -/
def repeated (s separator : ByteArray) : Nat → ByteArray
  | 0 => bytes []
  | n + 1 => extended separator s n s

def rep (args : List Value) : Native (List Value) := do
  let s ← stringArg args 1
  let n ← integerArg args 2
  let separator ← stringArgOr args 3 (bytes [])
  if n ≤ 0 then return [.string (bytes [])]
  else if s.size + separator.size > sizeLimit / n.toInt.toNat then
    failText "resulting string too large"
  else return [.string (repeated s separator n.toInt.toNat)]

def byte (args : List Value) : Native (List Value) := do
  let s ← stringArg args 1
  let first ← integerArgOr args 2 1
  let start := startPosition first s.size
  let stop := endPosition (← integerArgOr args 3 (Int64.ofNat start)) s.size
  return (codes (s.extract (start - 1) stop)).map fun c => .integer (Int64.ofNat c.toNat)

def char (args : List Value) : Native (List Value) := do
  let codes ← (List.range args.length).mapM fun i => do
    let n ← integerArg args (i + 1)
    if 0 ≤ n && n ≤ 255 then pure (UInt8.ofNat n.toInt.toNat)
      else badArgumentText (i + 1) "value out of range"
  return [.string (bytes codes)]

/-- A result of matching, or the failure that a pattern gives. -/
def orFail {α : Type} : Except PatternError α → Native α
  | .ok a => pure a
  | .error e => failText e.message

namespace Piece

def value : Pattern.Piece → Value
  | .text s => .string s
  | .position n => .integer (Int64.ofNat n)

end Piece

/-- Looks for a pattern.  `find` gives the place of the match besides its captures. -/
def search (find : Bool) (args : List Value) : Native (List Value) := do
  let s ← stringArg args 1
  let p ← stringArg args 2
  let start := startPosition (← integerArgOr args 3 1) s.size - 1
  if start > s.size then return [.nil]
  let pattern := codes p
  let place := fun (i e : Nat) => [Value.integer (Int64.ofNat (i + 1)), .integer (Int64.ofNat e)]
  if find && ((arg args 4).truthy || !hasSpecials pattern) then
    match firstPlain s p start (s.size - start) with
    | some i => return place i (i + p.size)
    | none => return [.nil]
  else
    let (pattern, more) := match pattern with
      | 94 :: rest => (rest, 0)
      | pattern => (pattern, s.size - start)
    match ← orFail (firstMatch s pattern start more) with
    | none => return [.nil]
    | some (i, e, captures) =>
      if find then
        let captured ← orFail (captures.mapM (piece s))
        return place i e ++ captured.map Piece.value
      else
        let captured ← orFail (pieces s i e captures)
        return captured.map Piece.value

def gmatch (args : List Value) : Native (List Value) := do
  let s ← stringArg args 1
  let p ← stringArg args 2
  let start := startPosition (← integerArgOr args 3 1) s.size - 1
  let id ←
    Action.modifyGet (·.newMatcher ⟨s, p, if start > s.size then s.size + 1 else start, none⟩)
  return [.matcher id]

/-- The first match from a place on that does not end where the last one did. -/
def nextMatch (s : ByteArray) (pattern : List UInt8) (lastEnd : Option Nat) (i : Nat) :
    Nat → Except PatternError (Option (Nat × Nat × Captures))
  | 0 => .ok none
  | more + 1 => do
    match ← matchAt s pattern i with
    | some (e, c) =>
      if lastEnd == some e then nextMatch s pattern lastEnd (i + 1) more else return some (i, e, c)
    | none => nextMatch s pattern lastEnd (i + 1) more

def iterate (id : MatcherId) : Native (List Value) := do
  let m ← Action.gets (·.matcher id)
  match ←
    orFail (nextMatch m.subject (codes m.pattern) m.lastEnd m.position
    (m.subject.size + 1 - m.position)) with
  | none => return []
  | some (i, e, captures) =>
    Action.modify (·.setMatcher id { m with position := e, lastEnd := some e })
    let captured ← orFail (pieces m.subject i e captures)
    return captured.map Piece.value

/-- The replacement text for a match, with its references to captures filled in. -/
def fillIn (s : ByteArray) (start stop : Nat) (captures : Captures) :
    Nat → List UInt8 → ByteArray → Except PatternError ByteArray
  | 0, _, written => .ok written
  | _ + 1, [], written => .ok written
  | budget + 1, 37 :: rest, written =>
    match rest with
    | 37 :: rest => fillIn s start stop captures budget rest (written.push 37)
    | 48 :: rest => fillIn s start stop captures budget rest (written ++ s.extract start stop)
    | d :: rest =>
      if Ascii.isDigit d then
        let n := d.toNat - 49
        let filled : Except PatternError ByteArray :=
          match captures[n]? with
          | some c => do
            match ← piece s c with
            | .text t => return t
            | .position p => return bytes (Ascii.numeral 10 p)
          | none => if n = 0 then .ok (s.extract start stop) else .error (.replacementIndex (n + 1))
        match filled with
        | .ok t => fillIn s start stop captures budget rest (written ++ t)
        | .error e => .error e
      else .error .replacementEscape
    | [] => .error .replacementEscape
  | budget + 1, c :: rest, written => fillIn s start stop captures budget rest (written.push c)

/-- What a match is replaced by; `none` keeps it. -/
def replacement (s : ByteArray) (replacer : Value) (start stop : Nat) (captures : Captures) :
    Native (Option ByteArray) := do
  let chosen := fun (v : Value) => (
    if !v.truthy then pure none
    else
      match v.text? with
      | some t => pure (some t)
      | none => failText ("invalid replacement value (a " ++ v.typeName ++ ")") :
        Native (Option ByteArray))
  match replacer with
  | .table _ =>
    let captured ← orFail (pieces s start stop captures)
    chosen (← lookup replacer ((captured.head?.map Piece.value).getD .nil))
  | _ =>
    if replacer.isFunction then
      let captured ← orFail (pieces s start stop captures)
      chosen (← call₁ replacer (captured.map Piece.value))
    else
      let text := codes (replacer.text?.getD (bytes []))
      return some (← orFail (fillIn s start stop captures (text.length + 1) text (bytes [])))

/-- The state of a replacement: the place in the subject, the end of the last
match, the text so far, and the number of matches. -/
structure Progress where
  place : Nat
  lastEnd : Option Nat
  written : ByteArray
  count : Nat

/-- Passes bytes up to the next match that does not end where the last one
did, in any case a single place of an anchored pattern. -/
def passToMatch (s : ByteArray) (pattern : List UInt8) (anchored : Bool) :
    Nat → Progress → Except PatternError (Progress × Option (Nat × Captures))
  | 0, p => .ok (p, none)
  | budget + 1, p => do
    let matched ← matchAt s pattern p.place
    match matched.filter fun m => p.lastEnd != some m.1 with
    | some m => return (p, some m)
    | none =>
      if h : p.place < s.size then
        let p : Progress := { p with place := p.place + 1, written := p.written.push s[p.place] }
        if anchored then return (p, none) else passToMatch s pattern anchored budget p
      else return (p, none)

/-- Replaces matches from a place on, one in each round. -/
def replaceFrom (s : ByteArray) (pattern : List UInt8) (anchored : Bool)
    (replacer : Value) (limit : Int) :
    Nat → Progress → Native Progress
  | 0, p => return p
  | budget + 1, p => do
    if limit ≤ p.count then return p
    else
      match ← orFail (passToMatch s pattern anchored (s.size + 2) p) with
      | (p, none) => return p
      | (p, some (e, captures)) =>
        let text ← replacement s replacer p.place e captures
        let written := p.written ++ text.getD (s.extract p.place e)
        let p : Progress := ⟨e, some e, written, p.count + 1⟩
        if anchored then return p else replaceFrom s pattern anchored replacer limit budget p

def gsub (args : List Value) : Native (List Value) := do
  let s ← stringArg args 1
  let p ← stringArg args 2
  let replacer := arg args 3
  let limit ← if absent args 4 then pure (s.size + 1 : Int) else Int64.toInt <$> integerArg args 4
  match replacer with
  | .integer _ | .double _ | .string _ | .table _ => pure ()
  | _ => if !replacer.isFunction then wrongType args 3 "string/function/table"
  let (pattern, anchored) := match codes p with
    | 94 :: rest => (rest, true)
    | pattern => (pattern, false)
  let done ← replaceFrom s pattern anchored replacer limit (s.size + 2) ⟨0, none, bytes [], 0⟩
  return [.string (done.written ++ s.extract done.place s.size), .integer (Int64.ofNat done.count)]

/-- An operand of arithmetic on strings: a number or a string that spells one. -/
def operand? (v : Value) : Option Value := v.coerced?.map Value.ofNumber

/-- Fails over an operator on operands that are no numbers, unless the second
has a metamethod of its own. -/
def arithFallback (event : String) (a b : Value) : Native (List Value) := do
  let f ← Action.gets fun h => match b with
    | .string _ => .nil
    | _ => h.metamethod b (eventKey event)
  if f.isNil then
    failText ("attempt to " ++ event ++ " a '" ++ a.typeName ++ "' with a '" ++ b.typeName ++ "'")
  else return [← call₁ f [a, b]]

def arithmetic (op : ArithOp) (args : List Value) : Native (List Value) := do
  let a := arg args 1
  let b := arg args 2
  match operand? a, operand? b with
  | some x, some y => return [← arith none op x y none none]
  | _, _ => arithFallback op.event a b

def negation (args : List Value) : Native (List Value) := do
  let a := arg args 1
  match operand? a with
  | some x => return [← negate none x none]
  | none => arithFallback "unm" a (arg args 2)

end SealedLua.Lua.Text
