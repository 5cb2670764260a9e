import SealedLua.Bytes.Ascii

/-!
# Text of bytes that may not be text

Bytes as UTF-8 with a replacement character for each stretch that is no part of
a valid sequence.  A stretch is as long as the bytes could still have become a
valid sequence, and at least one byte.
-/

namespace SealedLua.Lossy

/-- What a first byte asks of its successors: the range of the second, and how
many more there are. -/
def expectation (c : UInt8) : Option (UInt8 × UInt8 × Nat) :=
  if 0xC2 ≤ c && c ≤ 0xDF then some (0x80, 0xBF, 0)
  else if c == 0xE0 then some (0xA0, 0xBF, 1)
  else if c == 0xED then some (0x80, 0x9F, 1)
  else if 0xE1 ≤ c && c ≤ 0xEF then some (0x80, 0xBF, 1)
  else if c == 0xF0 then some (0x90, 0xBF, 2)
  else if 0xF1 ≤ c && c ≤ 0xF3 then some (0x80, 0xBF, 2)
  else if c == 0xF4 then some (0x80, 0x8F, 2)
  else none

/-- How many of the next `limit` bytes continue a sequence. -/
def continuations (limit : Nat) (codes : List UInt8) : Nat :=
  ((codes.take limit).takeWhile fun c => 0x80 ≤ c && c ≤ 0xBF).length

/-- How many bytes after the first belong to the sequence at the front, and
whether it is valid. -/
def measure (first : UInt8) (rest : List UInt8) : Nat × Bool :=
  if first < 0x80 then (0, true)
  else
    match expectation first, rest with
    | some (low, high, more), second :: rest =>
      if low ≤ second && second ≤ high then
        let n := continuations more rest
        (n + 1, n == more)
      else (0, false)
    | _, _ => (0, false)

/-- The bytes with all that is no valid sequence replaced. -/
def mended : List UInt8 → List UInt8
  | [] => []
  | c :: rest =>
    let (n, valid) := measure c rest
    (if valid then c :: rest.take n else [0xEF, 0xBF, 0xBD]) ++ mended (rest.drop n)
termination_by codes => codes.length
decreasing_by
  simp only [List.length_drop, List.length_cons]
  omega

def text (b : ByteArray) : String :=
  match String.fromUTF8? b with
  | some s => s
  | none => (String.fromUTF8? (bytes (mended (codes b)))).getD ""

end SealedLua.Lossy
