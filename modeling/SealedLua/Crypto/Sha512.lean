/-!
# SHA-512

The constants are the leading 64 bits after the point of square and cube roots
of the first primes, and are computed as such.
-/

namespace SealedLua.Sha512

/-- The largest `r` below `2 ^ bits` with `r ^ k ≤ n`, found bit by bit. -/
def root (k n : Nat) : Nat → Nat → Nat
  | 0, r => r
  | bits + 1, r =>
    let r' := r + 2 ^ bits
    if r' ^ k ≤ n then root k n bits r' else root k n bits r

def isPrime (n : Nat) : Bool := 2 ≤ n && (List.range n).all fun d => d < 2 || n % d != 0

def primes : List Nat := (List.range 410).filter isPrime

/-- The first 64 bits after the point of the `k`-th root of `n`. -/
def fraction (k n : Nat) : UInt64 := UInt64.ofNat (root k (n * 2 ^ (64 * k)) 70 0)

def roundConstants : List UInt64 := primes.map (fraction 3)

/-- Eight words that a block of the message changes. -/
structure State where
  a : UInt64
  b : UInt64
  c : UInt64
  d : UInt64
  e : UInt64
  f : UInt64
  g : UInt64
  h : UInt64

def initial : State :=
  ⟨fraction 2 2, fraction 2 3, fraction 2 5, fraction 2 7, fraction 2 11, fraction 2 13,
    fraction 2 17, fraction 2 19⟩

def rotate (x n : UInt64) : UInt64 := (x >>> n) ||| (x <<< (64 - n))

namespace State

def add (s t : State) : State :=
  ⟨s.a + t.a, s.b + t.b, s.c + t.c, s.d + t.d, s.e + t.e, s.f + t.f, s.g + t.g, s.h + t.h⟩

/-- One of the eighty rounds, with a round constant and a word of the schedule. -/
def round (s : State) (k w : UInt64) : State :=
  let s1 := rotate s.e 14 ^^^ rotate s.e 18 ^^^ rotate s.e 41
  let choice := (s.e &&& s.f) ^^^ (~~~s.e &&& s.g)
  let t1 := s.h + s1 + choice + k + w
  let s0 := rotate s.a 28 ^^^ rotate s.a 34 ^^^ rotate s.a 39
  let majority := (s.a &&& s.b) ^^^ (s.a &&& s.c) ^^^ (s.b &&& s.c)
  ⟨t1 + s0 + majority, s.a, s.b, s.c, s.d + t1, s.e, s.f, s.g⟩

end State

def wordBytes (w : UInt64) : List UInt8 :=
  [(w >>> 56).toUInt8, (w >>> 48).toUInt8, (w >>> 40).toUInt8,
    (w >>> 32).toUInt8, (w >>> 24).toUInt8,
    (w >>> 16).toUInt8, (w >>> 8).toUInt8, w.toUInt8]

def ofBytes (codes : List UInt8) : UInt64 := codes.foldl (fun w c => (w <<< 8) ||| c.toUInt64) 0

/-- The next word of a schedule whose last words, the latest first, are `recent`. -/
def nextWord (recent : Array UInt64) : UInt64 :=
  let word := fun (back : Nat) => recent[recent.size - back]?.getD 0
  let x := word 15
  let y := word 2
  word 16 + (rotate x 1 ^^^ rotate x 8 ^^^ (x >>> 7)) + word 7 +
    (rotate y 19 ^^^ rotate y 61 ^^^ (y >>> 6))

/-- The eighty words of a block's schedule: its own sixteen and those that follow from them. -/
def schedule (block : List UInt64) : List UInt64 :=
  ((List.range 64).foldl (fun words _ => words.push (nextWord words)) block.toArray).toList

def compress (s : State) (block : List UInt64) : State :=
  s.add ((roundConstants.zip (schedule block)).foldl (fun s (k, w) => s.round k w) s)

/-- A message with a one bit, zeros and its length, in whole blocks of 128 bytes. -/
def padded (message : List UInt8) : List UInt8 :=
  let n := message.length
  let zeros := (239 - n % 128) % 128
  message ++ 0x80 :: List.replicate zeros 0 ++ wordBytes (UInt64.ofNat (8 * n / 2 ^ 64)) ++
    wordBytes (UInt64.ofNat (8 * n))

def words (codes : List UInt8) : List UInt64 :=
  match codes with
  | [] => []
  | c :: rest => ofBytes ((c :: rest).take 8) :: words ((c :: rest).drop 8)
termination_by codes.length

/-- Changes the state by all blocks of a sequence of words. -/
def absorb (s : State) (ws : List UInt64) : State :=
  match ws with
  | [] => s
  | w :: rest => absorb (compress s ((w :: rest).take 16)) ((w :: rest).drop 16)
termination_by ws.length

def digest (message : List UInt8) : List UInt8 :=
  let s := absorb initial (words (padded message))
  wordBytes s.a ++ wordBytes s.b ++ wordBytes s.c ++ wordBytes s.d ++
    wordBytes s.e ++ wordBytes s.f ++
    wordBytes s.g ++ wordBytes s.h

@[simp] theorem length_digest (message : List UInt8) : (digest message).length = 64 := by
  simp [digest, wordBytes]

end SealedLua.Sha512
