import SealedLua.Crypto.Payload
import SealedLua.Proofs.Crypto.Keystream

/-!
# Opening undoes sealing

The payloads that open are those that were sealed.  Both directions go through
the parts of a payload: parts of the right lengths are laid out and split again
without loss, sealing lays out the parts `sealedParts`, and opening looks only
at the parts.  A salt of sixteen bytes and a nonce of eight keep every
primitive within what it accepts, so no other failure is left.
-/

namespace SealedLua.Payload

/-- The parts have the lengths of the format. -/
structure Parts.WellFormed (p : Parts) : Prop where
  salt : p.salt.length = saltLength
  code : p.code.length = codeLength
  nonce : p.nonce.length = nonceLength

theorem Parts.size_toBytes {p : Parts} (hp : p.WellFormed) :
    p.toBytes.size = headerLength + p.ciphertext.length := by
  simp only [toBytes, size_bytes, List.length_append, hp.salt, hp.code, hp.nonce, headerLength]

theorem split_toBytes {p : Parts} (hp : p.WellFormed) : split p.toBytes = .ok p := by
  have hsize : ¬p.toBytes.size < headerLength := by
    rw [Parts.size_toBytes hp]
    omega
  obtain ⟨salt, code, nonce, ciphertext⟩ := p
  obtain ⟨hsalt, hcode, hnonce⟩ := hp
  simp only at hsalt hcode hnonce
  rw [split, if_neg hsize]
  simp only [Parts.toBytes, codes_bytes, List.append_assoc, List.take_left' hsalt,
    List.drop_left' hsalt, List.take_left' hcode, List.drop_left' hcode, List.take_left' hnonce,
    List.drop_left' hnonce]

theorem split_short {payload : ByteArray} (h : payload.size < headerLength) :
    split payload = .error (.format payload.size headerLength) :=
  if_pos h

theorem split_long {payload : ByteArray} (h : headerLength ≤ payload.size) :
    ∃ p : Parts, split payload = .ok p ∧ p.WellFormed ∧ p.toBytes = payload := by
  have hlength : headerLength ≤ (codes payload).length := by rwa [length_codes]
  simp only [headerLength, saltLength, codeLength, nonceLength] at hlength
  refine ⟨_, if_neg (Nat.not_lt.2 h), ⟨?_, ?_, ?_⟩, ?_⟩
  · rw [List.length_take, saltLength]
    omega
  · rw [List.length_take, List.length_drop, saltLength, codeLength]
    omega
  · rw [List.length_take, List.length_drop, List.length_drop, saltLength, codeLength, nonceLength]
    omega
  · simp only [Parts.toBytes, List.append_assoc, List.take_append_drop, bytes_codes]

/-- The keys are the two halves of the key material, which has 64 bytes. -/
theorem Keys.derive_eq_halves (secret : MasterSecret) (salt : List UInt8) :
    ∃ material, Hkdf.derive? (codes secret.key) salt [] 64 = some material ∧ material.length = 64 ∧
      Keys.derive secret salt = .ok ⟨material.take 32, material.drop 32⟩ := by
  obtain ⟨material, hmaterial, hlength⟩ :=
    Hkdf.derive?_eq_some (codes secret.key) salt [] 64 (by decide)
  refine ⟨material, hmaterial, hlength, ?_⟩
  rw [Keys.derive, subkeyLength, hmaterial]
  rfl

theorem Keys.derive_eq_ok (secret : MasterSecret) (salt : List UInt8) :
    ∃ keys, Keys.derive secret salt = .ok keys ∧ keys.cipher.length = 32 := by
  obtain ⟨material, -, hlength, hkeys⟩ := Keys.derive_eq_halves secret salt
  refine ⟨_, hkeys, ?_⟩
  rw [List.length_take, hlength]
  rfl

theorem Keys.applyStream_eq_ok {keys : Keys} {nonce : List UInt8} (text : List UInt8)
    (hkey : keys.cipher.length = 32) (hnonce : nonce.length = nonceLength) :
    keys.applyStream nonce text = .ok (Counter.apply keys.cipher (Keys.firstBlock nonce) text) := by
  have hblock : (Keys.firstBlock nonce).length = 16 := by
    rw [Keys.firstBlock, List.length_append, List.length_replicate, hnonce]
    rfl
  rw [Keys.applyStream, Counter.encipher?, if_pos ⟨hkey, hblock⟩]
  rfl

/-- The parts of a payload that is sealed with these keys. -/
def sealedParts (keys : Keys) (salt nonce text : List UInt8) : Parts :=
  let ciphertext := Counter.apply keys.cipher (Keys.firstBlock nonce) text
  ⟨salt, Hmac.code keys.authentication (nonce ++ ciphertext), nonce, ciphertext⟩

theorem sealedParts_wellFormed (keys : Keys) {salt nonce : List UInt8} (text : List UInt8)
    (hsalt : salt.length = saltLength) (hnonce : nonce.length = nonceLength) :
    (sealedParts keys salt nonce text).WellFormed :=
  ⟨hsalt, Hmac.length_code _ _, hnonce⟩

/-- The buffer that is filled in place holds the sealed parts in the end. -/
theorem encrypt?_eq_ok {secret : MasterSecret} {salt nonce : List UInt8} {keys : Keys}
    (plaintext : ByteArray) (hsalt : salt.length = saltLength) (hnonce : nonce.length = nonceLength)
    (hkeys : Keys.derive secret salt = .ok keys) (hcipher : keys.cipher.length = 32) :
    encrypt? secret salt nonce plaintext =
      .ok (sealedParts keys salt nonce (codes plaintext)).toBytes := by
  set header := salt ++ List.replicate codeLength 0 ++ nonce with hheader
  have hlength : header.length = headerLength := by
    simp only [hheader, List.length_append, List.length_replicate, hsalt, hnonce, headerLength]
  have hstart : (salt ++ List.replicate codeLength (0 : UInt8)).length =
      saltLength + codeLength := by
    rw [List.length_append, List.length_replicate, hsalt]
  rw [encrypt?, hkeys]
  simp only [bind, Except.bind, ← hheader, List.drop_left' hlength, List.take_left' hlength,
    Keys.applyStream_eq_ok _ hcipher hnonce]
  rw [hheader, List.append_assoc _ nonce, List.drop_left' hstart, List.append_assoc salt,
    List.take_left' hsalt]
  simp [sealedParts, Parts.toBytes, pure, Except.pure]

theorem decrypt_eq_of_split {secret : MasterSecret} {payload : ByteArray} {p : Parts} {keys : Keys}
    (hsplit : split payload = .ok p) (hp : p.WellFormed)
    (hkeys : Keys.derive secret p.salt = .ok keys) (hcipher : keys.cipher.length = 32) :
    decrypt secret payload =
      if Hmac.code keys.authentication p.authenticated = p.code then
        .ok (bytes (Counter.apply keys.cipher (Keys.firstBlock p.nonce) p.ciphertext))
      else .error .authentication := by
  rw [decrypt, hsplit]
  simp only [bind, Except.bind, hkeys, Keys.applyStream_eq_ok _ hcipher hp.nonce]
  rfl

/-- A payload with the right code is the sealing of what it decrypts to. -/
theorem sealedParts_of_code {keys : Keys} {p : Parts}
    (hcode : Hmac.code keys.authentication p.authenticated = p.code) :
    sealedParts keys p.salt p.nonce
      (Counter.apply keys.cipher (Keys.firstBlock p.nonce) p.ciphertext) = p := by
  obtain ⟨salt, code, nonce, ciphertext⟩ := p
  simp only [Parts.authenticated] at hcode
  simp only [sealedParts, Counter.apply_apply, hcode]

theorem decrypt_of_encrypt? {secret : MasterSecret} {salt nonce : List UInt8}
    {plaintext payload : ByteArray} (hsalt : salt.length = saltLength)
    (hnonce : nonce.length = nonceLength) (h : encrypt? secret salt nonce plaintext = .ok payload) :
    decrypt secret payload = .ok plaintext := by
  obtain ⟨keys, hkeys, hcipher⟩ := Keys.derive_eq_ok secret salt
  have hp := sealedParts_wellFormed keys (codes plaintext) hsalt hnonce
  rw [encrypt?_eq_ok plaintext hsalt hnonce hkeys hcipher] at h
  cases h
  have hcode : Hmac.code keys.authentication
      (sealedParts keys salt nonce (codes plaintext)).authenticated =
      (sealedParts keys salt nonce (codes plaintext)).code := rfl
  rw [decrypt_eq_of_split (split_toBytes hp) hp hkeys hcipher, if_pos hcode]
  simp only [sealedParts, Counter.apply_apply, bytes_codes]

/-- What opening can come to: a malformed payload, a sealed one or one that fails its check. -/
theorem decrypt_cases (secret : MasterSecret) (payload : ByteArray) :
    (payload.size < headerLength ∧
        decrypt secret payload = .error (.format payload.size headerLength)) ∨
      (headerLength ≤ payload.size ∧ ∃ (salt nonce : List UInt8) (plaintext : ByteArray),
        salt.length = saltLength ∧ nonce.length = nonceLength ∧
          encrypt? secret salt nonce plaintext = .ok payload ∧
          decrypt secret payload = .ok plaintext) ∨
      (headerLength ≤ payload.size ∧ decrypt secret payload = .error .authentication) := by
  rcases Nat.lt_or_ge payload.size headerLength with h | h
  · refine .inl ⟨h, ?_⟩
    rw [decrypt, split_short h]
    rfl
  right
  obtain ⟨p, hsplit, hp, hbytes⟩ := split_long h
  obtain ⟨keys, hkeys, hcipher⟩ := Keys.derive_eq_ok secret p.salt
  have hopen := decrypt_eq_of_split hsplit hp hkeys hcipher
  by_cases hcode : Hmac.code keys.authentication p.authenticated = p.code
  · left
    rw [if_pos hcode] at hopen
    refine ⟨h, p.salt, p.nonce, _, hp.salt, hp.nonce, ?_, hopen⟩
    rw [encrypt?_eq_ok _ hp.salt hp.nonce hkeys hcipher, codes_bytes, sealedParts_of_code hcode,
      hbytes]
  · right
    rw [hopen, if_neg hcode]
    exact ⟨h, rfl⟩

/-- Sealing with a salt and a nonce of the right lengths never fails. -/
theorem encrypt?_eq_encrypt (secret : MasterSecret) {salt nonce : List UInt8}
    (plaintext : ByteArray) (hsalt : salt.length = saltLength)
    (hnonce : nonce.length = nonceLength) :
    encrypt? secret salt nonce plaintext = .ok (encrypt secret salt nonce plaintext) := by
  obtain ⟨keys, hkeys, hcipher⟩ := Keys.derive_eq_ok secret salt
  rw [encrypt, encrypt?_eq_ok plaintext hsalt hnonce hkeys hcipher]
  rfl

/-- Opening is exactly the inverse of sealing: a payload opens to a plaintext if
it is a sealing of that plaintext; one without a whole header is malformed, any
other fails its check, and no primitive ever refuses. -/
theorem decrypt_inverts_encrypt (secret : MasterSecret) (payload : ByteArray) :
    (∀ plaintext, decrypt secret payload = .ok plaintext ↔
        ∃ salt nonce : List UInt8, salt.length = 16 ∧ nonce.length = 8 ∧
          encrypt? secret salt nonce plaintext = .ok payload) ∧
      (payload.size < 88 → decrypt secret payload = .error (.format payload.size 88)) ∧
      (88 ≤ payload.size →
        (¬∃ (salt nonce : List UInt8) (plaintext : ByteArray), salt.length = 16 ∧
          nonce.length = 8 ∧ encrypt? secret salt nonce plaintext = .ok payload) →
        decrypt secret payload = .error .authentication) ∧
      (∀ operation, decrypt secret payload ≠ .error (.backend operation)) ∧
      ∀ expected found, decrypt secret payload ≠ .error (.keyLength expected found) := by
  have hcases := decrypt_cases secret payload
  have hheader : headerLength = 88 := rfl
  rw [hheader] at hcases
  refine ⟨fun plaintext => ⟨fun hopen => ?_, ?_⟩, fun h => ?_, fun h hnone => ?_,
    fun operation hopen => ?_, fun expected found hopen => ?_⟩
  · rcases hcases with ⟨-, hd⟩ | ⟨-, salt, nonce, t, hsalt, hnonce, hseal, hd⟩ | ⟨-, hd⟩
    · simp [hd] at hopen
    · rw [hd] at hopen
      cases hopen
      exact ⟨salt, nonce, hsalt, hnonce, hseal⟩
    · simp [hd] at hopen
  · rintro ⟨salt, nonce, hsalt, hnonce, hseal⟩
    exact decrypt_of_encrypt? hsalt hnonce hseal
  · rcases hcases with ⟨-, hd⟩ | ⟨hlong, -⟩ | ⟨hlong, -⟩
    · exact hd
    · omega
    · omega
  · rcases hcases with ⟨hshort, -⟩ | ⟨-, salt, nonce, t, hsalt, hnonce, hseal, -⟩ | ⟨-, hd⟩
    · omega
    · exact absurd ⟨salt, nonce, t, hsalt, hnonce, hseal⟩ hnone
    · exact hd
  · rcases hcases with ⟨-, hd⟩ | ⟨-, salt, nonce, t, -, -, -, hd⟩ | ⟨-, hd⟩ <;> simp [hd] at hopen
  · rcases hcases with ⟨-, hd⟩ | ⟨-, salt, nonce, t, -, -, -, hd⟩ | ⟨-, hd⟩ <;> simp [hd] at hopen

end SealedLua.Payload
