import SealedLua.Proofs.Crypto.Opening

/-!
# Sealed payloads in closed form

Every byte of a sealed payload is known from the keys: the salt, the code, the
nonce, and a ciphertext of which each byte is a byte of the plaintext with a byte
of the keystream.  The keystream does not depend on the plaintext, so what stands
in front of a plaintext is encrypted to what stands in front of its ciphertext.
-/

namespace SealedLua.Payload

/-- Each byte of a ciphertext of fewer than `2 ^ 68` bytes, from the plaintext,
the key and the nonce. -/
theorem getElem?_ciphertext (key : List UInt8) {nonce text : List UInt8}
    (hnonce : nonce.length = nonceLength)
    (hsize : text.length < 2 ^ 68) {i : Nat} {c : UInt8} (h : text[i]? = some c) :
    ∃ k, (Aes.encrypt key (nonce ++ Counter.bigEndian 8 (i / 16)))[i % 16]? = some k ∧
      (Counter.apply key (Keys.firstBlock nonce) text)[i]? = some (c ^^^ k) := by
  have hblock : i / 16 < 2 ^ 64 := by
    have := (List.getElem?_eq_some_iff.1 h).1
    omega
  obtain ⟨k, hk, hsum⟩ :=
    Counter.getElem?_applyFrom (Aes.roundKeys key) (Keys.firstBlock nonce) 0 text h
  have hfirst : Keys.firstBlock nonce = nonce ++ List.replicate 8 0 := rfl
  rw [Nat.zero_add, hfirst, Counter.streamBlock_of_zeros _ hnonce hblock] at hk
  exact ⟨k, hk, hsum⟩

/-- Sealing in closed form.  The key material has 64 bytes and depends on the
secret and the salt only.  The ciphertext is as long as the plaintext, and its
byte at a place is that of the plaintext with a byte of the keystream, which is
the encryption, under the first 32 bytes of the material, of the nonce and the
number of the block.  The payload is the salt, the code of nonce and ciphertext
under the last 32 bytes, the nonce and the ciphertext.  What stands in front of
the plaintext is sealed with what stands in front of this ciphertext. -/
theorem sealing_has_closed_form (secret : MasterSecret) {salt nonce : List UInt8}
    (hsalt : salt.length = 16)
    (hnonce : nonce.length = 8) (plaintext : ByteArray) (hsize : plaintext.size < 2 ^ 68) :
    ∃ material ciphertext : List UInt8,
      let laidOut := fun c =>
        bytes (salt ++ Hmac.code (material.drop 32) (nonce ++ c) ++ nonce ++ c)
      Hkdf.derive? (codes secret.key) salt [] 64 = some material ∧ material.length = 64 ∧
        encrypt? secret salt nonce plaintext = .ok (laidOut ciphertext) ∧
        ciphertext.length = plaintext.size ∧
        (∀ i (h : i < plaintext.size), ∃ k,
          (Aes.encrypt (material.take 32) (nonce ++ Counter.bigEndian 8 (i / 16)))[i % 16]? =
              some k ∧
            ciphertext[i]? = some (plaintext[i] ^^^ k)) ∧
        ∀ n, encrypt? secret salt nonce (plaintext.extract 0 n) =
          .ok (laidOut (ciphertext.take n)) := by
  obtain ⟨material, hmaterial, hlength, hkeys⟩ := Keys.derive_eq_halves secret salt
  have hcipher : (material.take 32).length = 32 := by
    rw [List.length_take, hlength]
    rfl
  have hsealed : ∀ text : ByteArray, encrypt? secret salt nonce text = .ok (bytes (salt ++
      Hmac.code (material.drop 32)
      (nonce ++ Counter.apply (material.take 32) (Keys.firstBlock nonce) (codes text)) ++
        nonce ++ Counter.apply (material.take 32) (Keys.firstBlock nonce) (codes text))) := by
    intro text
    rw [encrypt?_eq_ok text hsalt hnonce hkeys hcipher, sealedParts, Parts.toBytes]
  refine ⟨material, Counter.apply (material.take 32) (Keys.firstBlock nonce) (codes plaintext),
    hmaterial, hlength,
    hsealed plaintext, ?_, ?_, ?_⟩
  · rw [Counter.length_apply, length_codes]
  · intro i h
    have hlong : (codes plaintext).length < 2 ^ 68 := by rwa [length_codes]
    have hplace : (codes plaintext)[i]? = some plaintext[i] := by
      rw [← List.head?_drop, drop_codes h, List.head?_cons]
    exact getElem?_ciphertext _ hnonce hlong hplace
  · intro n
    have hfront : codes (plaintext.extract 0 n) = (codes plaintext).take n :=
      codes_extract plaintext 0 n
    have htake :
    Counter.apply (material.take 32) (Keys.firstBlock nonce) ((codes plaintext).take n) =
        (Counter.apply (material.take 32) (Keys.firstBlock nonce) (codes plaintext)).take n :=
      Counter.applyFrom_take _ _ _ _ _
    rw [hsealed, hfront, htake]

/-- In a plaintext of three blocks, the byte at place 20 is encrypted with the
second block of the keystream. -/
theorem second_block_has_closed_form :
    let secret : MasterSecret := ⟨bytes (List.replicate 32 0), size_bytes _⟩
    let salt : List UInt8 := List.replicate 16 7
    let nonce : List UInt8 := List.replicate 8 9
    let plaintext := bytes (ascii "return internal_TA_call('f', arg)")
    salt.length = 16 ∧ nonce.length = 8 ∧ plaintext.size < 2 ^ 68 ∧
      ∃ material ciphertext : List UInt8, ∃ k,
        Hkdf.derive? (codes secret.key) salt [] 64 = some material ∧
          encrypt? secret salt nonce plaintext = .ok (bytes (salt ++
            Hmac.code (material.drop 32) (nonce ++ ciphertext) ++ nonce ++ ciphertext)) ∧
          (Aes.encrypt (material.take 32) [9, 9, 9, 9, 9, 9, 9, 9, 0, 0, 0, 0, 0, 0, 0, 1])[4]? =
              some k ∧
          ciphertext[20]? = some (97 ^^^ k) := by
  intro secret salt nonce plaintext
  have hsalt : salt.length = 16 := rfl
  have hnonce : nonce.length = 8 := rfl
  have hsize : plaintext.size < 2 ^ 68 := by decide
  obtain ⟨material, ciphertext, hmaterial, -, hsealed, -, hbytes, -⟩ :=
    sealing_has_closed_form secret hsalt hnonce plaintext hsize
  obtain ⟨k, hk, hbyte⟩ := hbytes 20 (by decide)
  exact ⟨hsalt, hnonce, hsize, material, ciphertext, k, hmaterial, hsealed, hk, hbyte⟩

end SealedLua.Payload
