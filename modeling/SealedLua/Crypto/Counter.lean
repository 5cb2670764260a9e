import SealedLua.Crypto.Aes

/-!
# Encryption with a counter

A text is encrypted by adding a keystream, whose blocks are encryptions of a
counter.  The counter is a number that fills a block: it starts at a given block
and grows by one from block to block.  Decryption is the same.
-/

namespace SealedLua.Counter

/-- The number with these bytes, the most significant first. -/
def value (codes : List UInt8) : Nat := codes.foldl (fun n c => 256 * n + c.toNat) 0

/-- The lowest bytes of a number, so many of them, the most significant first. -/
def bigEndian : Nat → Nat → List UInt8
  | 0, _ => []
  | length + 1, n => bigEndian length (n / 256) ++ [UInt8.ofNat n]

/-- The block of the keystream that comes `i` blocks after the one for `first`. -/
def streamBlock (keys : List Aes.State) (first : List UInt8) (i : Nat) : List UInt8 :=
  Aes.encryptWith keys (bigEndian 16 (value first + i))

def applyFrom (keys : List Aes.State) (first : List UInt8) (i : Nat)
    (codes : List UInt8) : List UInt8 :=
  match codes with
  | [] => []
  | c :: rest =>
    List.zipWith (· ^^^ ·) ((c :: rest).take 16) (streamBlock keys first i) ++
      applyFrom keys first (i + 1) ((c :: rest).drop 16)
termination_by codes.length

/-- Adds the keystream of a key and a first block of the counter. -/
def apply (key first codes : List UInt8) : List UInt8 := applyFrom (Aes.roundKeys key) first 0 codes

/-- Adds the keystream of a key of 32 bytes and a first block of sixteen; others are refused. -/
def encipher? (key first codes : List UInt8) : Option (List UInt8) :=
  if key.length = 32 ∧ first.length = 16 then some (apply key first codes) else none

end SealedLua.Counter
