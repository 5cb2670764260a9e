import SealedLua.Crypto.Sha512

/-!
# Authentication codes and derived keys

The keyed hash of a message, and the derivation of key material from a secret
and a salt by extracting and expanding with that hash.
-/

namespace SealedLua.Hmac

def block (key : List UInt8) : List UInt8 :=
  let key := if 128 < key.length then Sha512.digest key else key
  key ++ List.replicate (128 - key.length) 0

def code (key message : List UInt8) : List UInt8 :=
  let key := block key
  Sha512.digest (key.map (· ^^^ 0x5C) ++ Sha512.digest (key.map (· ^^^ 0x36) ++ message))

@[simp] theorem length_code (key message : List UInt8) : (code key message).length = 64 := by
  simp [code]

end SealedLua.Hmac

namespace SealedLua.Hkdf

/-- The blocks of key material from number `i` on, each made from the one before. -/
def blocks (key info : List UInt8) : Nat → Nat → List UInt8 → List UInt8
  | 0, _, _ => []
  | count + 1, i, last =>
    let next := Hmac.code key (last ++ info ++ [UInt8.ofNat i])
    next ++ blocks key info count (i + 1) next

/-- How many bytes of key material there are: the blocks are numbered by a byte. -/
def limit : Nat := 255 * 64

def derive? (secret salt info : List UInt8) (length : Nat) : Option (List UInt8) :=
  if length ≤ limit then
    some ((blocks (Hmac.code salt secret) info ((length + 63) / 64) 1 []).take length)
  else none

end SealedLua.Hkdf
