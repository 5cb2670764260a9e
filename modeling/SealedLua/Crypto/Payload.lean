import SealedLua.Bytes.Ascii
import SealedLua.Crypto.Counter
import SealedLua.Crypto.Hmac

/-!
# Sealed payloads

A payload is a salt, an authentication code, a nonce and a ciphertext, one
after the other.  From the secret and the salt come two keys; the first
encrypts, the second authenticates the nonce and the ciphertext.  A payload
whose code is wrong is not decrypted.
-/

namespace SealedLua

inductive CryptoError where
  /-- A payload that is too short to hold its header. -/
  | format (size header : Nat)
  | authentication
  /-- A primitive that failed. -/
  | backend (operation : String)
  | keyLength (expected found : Nat)
deriving DecidableEq, Repr

namespace CryptoError

def message : CryptoError → String
  | .format size header =>
    "CryptoError: payload of " ++ toString size ++ " bytes is shorter than the " ++
      toString header ++ "-byte header."
  | .authentication => "CryptoError: MAC verification failed."
  | .backend operation => "CryptoError: crypto backend failure in " ++ operation ++ "."
  | .keyLength expected found =>
    "CryptoError: expected a " ++ toString expected ++ "-byte key, got " ++
      toString found ++ " bytes."

end CryptoError

/-- The secret that payloads are sealed under. -/
structure MasterSecret where
  key : ByteArray
  size_key : key.size = 32

namespace MasterSecret

/-- The number of bytes of a secret. -/
def length : Nat := 32

def ofBytes (key : ByteArray) : Except CryptoError MasterSecret :=
  if h : key.size = 32 then .ok ⟨key, h⟩ else .error (.keyLength length key.size)

/-- A secret is never shown. -/
def shown : String := "MasterSecret(<redacted>)"

end MasterSecret

namespace Payload

def saltLength : Nat := 16
def codeLength : Nat := 64
def nonceLength : Nat := 8
def headerLength : Nat := saltLength + codeLength + nonceLength

/-- The keys for one payload. -/
structure Keys where
  cipher : List UInt8
  authentication : List UInt8

def subkeyLength : Nat := 32

/-- What a primitive gives; one that refuses its input is a failure. -/
def checked (operation : String) : Option (List UInt8) → Except CryptoError (List UInt8)
  | some result => .ok result
  | none => .error (.backend operation)

namespace Keys

def derive (secret : MasterSecret) (salt : List UInt8) : Except CryptoError Keys := do
  let material ← checked "HKDF-SHA512 expand"
    (Hkdf.derive? (codes secret.key) salt [] (2 * subkeyLength))
  return ⟨material.take subkeyLength, material.drop subkeyLength⟩

/-- The first block of the counter: the nonce, and zeros. -/
def firstBlock (nonce : List UInt8) : List UInt8 := nonce ++ List.replicate (16 - nonceLength) 0

def applyStream (keys : Keys) (nonce text : List UInt8) : Except CryptoError (List UInt8) :=
  checked "AES-256-CTR key setup" (Counter.encipher? keys.cipher (firstBlock nonce) text)

end Keys

/-- The parts of a payload. -/
structure Parts where
  salt : List UInt8
  code : List UInt8
  nonce : List UInt8
  ciphertext : List UInt8
deriving DecidableEq

namespace Parts

/-- What the authentication code covers. -/
def authenticated (p : Parts) : List UInt8 := p.nonce ++ p.ciphertext

def toBytes (p : Parts) : ByteArray := bytes (p.salt ++ p.code ++ p.nonce ++ p.ciphertext)

end Parts

def split (payload : ByteArray) : Except CryptoError Parts :=
  if payload.size < headerLength then .error (.format payload.size headerLength)
  else
    let all := codes payload
    let afterSalt := all.drop saltLength
    let afterCode := afterSalt.drop codeLength
    .ok ⟨all.take saltLength, afterSalt.take codeLength, afterCode.take nonceLength,
      afterCode.drop nonceLength⟩

/-- Recovers the plaintext of a payload that was sealed under the secret. -/
def decrypt (secret : MasterSecret) (payload : ByteArray) : Except CryptoError ByteArray := do
  let p ← split payload
  let keys ← Keys.derive secret p.salt
  if Hmac.code keys.authentication p.authenticated = p.code then
    return bytes (← keys.applyStream p.nonce p.ciphertext)
  else throw .authentication

/-- Seals a plaintext with a salt and a nonce.  The payload is laid out with an
empty code, encrypted in place, and given its code last. -/
def encrypt? (secret : MasterSecret) (salt nonce : List UInt8) (plaintext : ByteArray) :
    Except CryptoError ByteArray := do
  let keys ← Keys.derive secret salt
  let layout := salt ++ List.replicate codeLength 0 ++ nonce ++ codes plaintext
  let ciphertext ← keys.applyStream nonce (layout.drop headerLength)
  let encrypted := layout.take headerLength ++ ciphertext
  let code := Hmac.code keys.authentication (encrypted.drop (saltLength + codeLength))
  return bytes (encrypted.take saltLength ++ code ++ encrypted.drop (saltLength + codeLength))

/-- Seals a plaintext with a salt of sixteen and a nonce of eight bytes, which never fails. -/
def encrypt (secret : MasterSecret) (salt nonce : List UInt8) (plaintext : ByteArray) : ByteArray :=
  ((encrypt? secret salt nonce plaintext).toOption).getD (bytes [])

/-- The words for bytes at random that could not be drawn. -/
def randomSource : String := "OS random number generator"

/-- Seals a plaintext with a salt and a nonce that are drawn at random.
`draw n` gives so many bytes, if it can. -/
def encryptFresh {m : Type → Type} [Monad m] (draw : Nat → m (Option (List UInt8)))
    (secret : MasterSecret) (plaintext : ByteArray) : m (Except CryptoError ByteArray) := do
  let some salt ← draw saltLength | return .error (.backend randomSource)
  let some nonce ← draw nonceLength | return .error (.backend randomSource)
  return encrypt? secret salt nonce plaintext

end Payload
end SealedLua
