import SealedLua.Proofs.Crypto.Opening

/-!
# Payloads that were tampered with

A payload that opens is changed in any way that leaves its salt, and so the keys.
The code covers exactly the bytes that decryption uses: the nonce has a fixed
length, so it and the ciphertext can be read off the bytes that are covered.  A
change of these bytes is thus a change of the message, and whoever gets it past
the check with the same code has two messages with one code.  Nothing is assumed
of the code; a collision is part of what is concluded.
-/

namespace SealedLua

/-- Two different messages with one code. -/
def Hmac.Collision (key first second : List UInt8) : Prop :=
  first ≠ second ∧ Hmac.code key first = Hmac.code key second

namespace Payload

variable {secret : MasterSecret} {p q : Parts}

theorem Parts.eq_of_toBytes (hp : p.WellFormed) (hq : q.WellFormed)
    (h : p.toBytes = q.toBytes) : p = q := by
  have hsplit := split_toBytes hp
  rw [h, split_toBytes hq] at hsplit
  exact (Except.ok.inj hsplit).symm

/-- The nonce and the ciphertext can be told apart in what the code covers. -/
theorem Parts.authenticated_eq_iff (hp : p.WellFormed) (hq : q.WellFormed) :
    p.authenticated = q.authenticated ↔ p.nonce = q.nonce ∧ p.ciphertext = q.ciphertext := by
  have hlength : p.nonce.length = q.nonce.length := hp.nonce.trans hq.nonce.symm
  constructor
  · exact fun h => List.append_inj h hlength
  · rintro ⟨hnonce, hciphertext⟩
    rw [authenticated, authenticated, hnonce, hciphertext]

theorem Parts.take_salt (hp : p.WellFormed) : (codes p.toBytes).take 16 = p.salt := by
  have hlength : p.salt.length = 16 := hp.salt
  rw [toBytes, codes_bytes, List.append_assoc, List.append_assoc, List.take_left' hlength]

/-- With the keys of its salt, a payload is refused if its code is wrong, and opens otherwise. -/
theorem decrypt_toBytes {keys : Keys} (hp : p.WellFormed)
    (hkeys : Keys.derive secret p.salt = .ok keys) :
    if Hmac.code keys.authentication p.authenticated = p.code
    then ∃ plaintext, decrypt secret p.toBytes = .ok plaintext
    else decrypt secret p.toBytes = .error .authentication := by
  obtain ⟨keys', hkeys', hcipher⟩ := Keys.derive_eq_ok secret p.salt
  obtain rfl : keys = keys' := Except.ok.inj (hkeys.symm.trans hkeys')
  rw [decrypt_eq_of_split (split_toBytes hp) hp hkeys hcipher]
  split
  · exact ⟨_, rfl⟩
  · rfl

theorem code_eq_of_decrypt {keys : Keys} {plaintext : ByteArray} (hp : p.WellFormed)
    (hkeys : Keys.derive secret p.salt = .ok keys)
    (hopens : decrypt secret p.toBytes = .ok plaintext) :
    Hmac.code keys.authentication p.authenticated = p.code := by
  by_contra hwrong
  have hrefused := decrypt_toBytes hp hkeys
  rw [if_neg hwrong, hopens] at hrefused
  cases hrefused

/-- A payload is refused exactly if its code is wrong. -/
theorem decrypt_eq_error_iff {keys : Keys} (hp : p.WellFormed)
    (hkeys : Keys.derive secret p.salt = .ok keys) :
    decrypt secret p.toBytes = .error .authentication ↔
      Hmac.code keys.authentication p.authenticated ≠ p.code := by
  have hcases := decrypt_toBytes hp hkeys
  split at hcases
  · next hright =>
    obtain ⟨plaintext, hopens⟩ := hcases
    rw [hopens]
    exact ⟨nofun, fun hwrong => absurd hright hwrong⟩
  · next hwrong => exact ⟨fun _ => hwrong, fun _ => hcases⟩

theorem exists_parts {payload : ByteArray} (h : 88 ≤ payload.size) :
    ∃ p : Parts, p.WellFormed ∧ p.toBytes = payload := by
  obtain ⟨p, -, hp, hbytes⟩ := split_long h
  exact ⟨p, hp, hbytes⟩

theorem exists_parts_of_decrypt {payload plaintext : ByteArray}
    (h : decrypt secret payload = .ok plaintext) :
    ∃ p : Parts, p.WellFormed ∧ p.toBytes = payload := by
  apply exists_parts
  by_contra hshort
  rw [decrypt, split_short (Nat.lt_of_not_le hshort)] at h
  cases h

/-- A payload that opens cannot be changed without a collision.  Let `original`
open, and let `changed` have the length of a header at least and the same salt.
Both have parts.  If only the code was changed, the change is refused.  If the
code was not changed but the nonce or the ciphertext was, in bytes or in length,
then the change is refused unless what the code covers collides, under the key of
the salt, with what it covered before.  Whatever was changed, what opens has the
code of its own nonce and ciphertext. -/
theorem changes_are_refused_or_collide (secret : MasterSecret)
    {original changed plaintext : ByteArray}
    (hopens : decrypt secret original = .ok plaintext) (hsize : 88 ≤ changed.size)
    (hsalt : (codes changed).take 16 = (codes original).take 16) :
    ∃ (p q : Parts) (keys : Keys), p.WellFormed ∧ p.toBytes = original ∧
      q.WellFormed ∧ q.toBytes = changed ∧
      Keys.derive secret p.salt = .ok keys ∧
      (q.nonce = p.nonce → q.ciphertext = p.ciphertext → q.code ≠ p.code →
        decrypt secret changed = .error .authentication) ∧
      (q.code = p.code → (q.nonce ≠ p.nonce ∨ q.ciphertext ≠ p.ciphertext) →
        (decrypt secret changed = .error .authentication ↔
          ¬Hmac.Collision keys.authentication p.authenticated q.authenticated)) ∧
      ∀ result, decrypt secret changed = .ok result →
        Hmac.code keys.authentication q.authenticated = q.code := by
  obtain ⟨p, hp, rfl⟩ := exists_parts_of_decrypt hopens
  obtain ⟨q, hq, rfl⟩ := exists_parts hsize
  obtain ⟨keys, hkeys, -⟩ := Keys.derive_eq_ok secret p.salt
  have hcode : Hmac.code keys.authentication p.authenticated = p.code :=
    code_eq_of_decrypt hp hkeys hopens
  have hkeys' : Keys.derive secret q.salt = .ok keys := by
    rw [Parts.take_salt hq, Parts.take_salt hp] at hsalt
    rwa [hsalt]
  refine ⟨p, q, keys, hp, rfl, hq, rfl, hkeys, ?_, ?_, fun result h =>
    code_eq_of_decrypt hq hkeys' h⟩
  · intro hnonce hciphertext hother
    have hsame : q.authenticated = p.authenticated :=
      (Parts.authenticated_eq_iff hq hp).2 ⟨hnonce, hciphertext⟩
    rw [decrypt_eq_error_iff hq hkeys', hsame, hcode]
    exact hother.symm
  · intro hsame hother
    have hne : p.authenticated ≠ q.authenticated := by
      intro heq
      obtain ⟨hnonce, hciphertext⟩ := (Parts.authenticated_eq_iff hp hq).1 heq
      rcases hother with hother | hother
      · exact hother hnonce.symm
      · exact hother hciphertext.symm
    rw [decrypt_eq_error_iff hq hkeys', hsame, ← hcode, Hmac.Collision]
    constructor
    · exact fun hwrong hcollision => hwrong hcollision.2.symm
    · exact fun hnone hequal => hnone ⟨hne, hequal.symm⟩

/-- A payload with one byte more at its end is refused unless that byte makes a collision. -/
theorem longer_payload_is_refused_or_collides :
    let secret : MasterSecret := ⟨bytes (List.replicate 32 0), size_bytes _⟩
    let original :=
      encrypt secret (List.replicate 16 7) (List.replicate 8 9) (bytes (ascii "return arg * 2"))
    let changed := bytes (codes original ++ [0])
    decrypt secret original = .ok (bytes (ascii "return arg * 2")) ∧ 88 ≤ changed.size ∧
      (codes changed).take 16 = (codes original).take 16 ∧
      ∃ (p : Parts) (keys : Keys), p.WellFormed ∧ p.toBytes = original ∧
        Keys.derive secret p.salt = .ok keys ∧
        (decrypt secret changed = .error .authentication ↔
          ¬Hmac.Collision keys.authentication p.authenticated (p.authenticated ++ [0])) := by
  intro secret original changed
  have hopens : decrypt secret original = .ok (bytes (ascii "return arg * 2")) :=
    decrypt_of_encrypt? rfl rfl (encrypt?_eq_encrypt secret _ rfl rfl)
  obtain ⟨p, hp, hbytes⟩ := exists_parts_of_decrypt hopens
  let longer : Parts := { p with ciphertext := p.ciphertext ++ [0] }
  have hlonger : longer.WellFormed := ⟨hp.salt, hp.code, hp.nonce⟩
  have hchanged : longer.toBytes = changed := by
    simp only [changed, ← hbytes, longer, Parts.toBytes, codes_bytes, List.append_assoc]
  have hsize : 88 ≤ changed.size := by
    rw [← hchanged, Parts.size_toBytes hlonger]
    exact Nat.le_add_right _ _
  have hsalt : (codes changed).take 16 = (codes original).take 16 := by
    rw [← hchanged, ← hbytes, Parts.take_salt hlonger, Parts.take_salt hp]
  refine ⟨hopens, hsize, hsalt, ?_⟩
  obtain ⟨p', q, keys, hp', hbytes', hq, hqbytes, hkeys, -, hcollides, -⟩ :=
    changes_are_refused_or_collide secret hopens hsize hsalt
  obtain rfl : p' = p := Parts.eq_of_toBytes hp' hp (hbytes'.trans hbytes.symm)
  obtain rfl : q = longer := Parts.eq_of_toBytes hq hlonger (hqbytes.trans hchanged.symm)
  refine ⟨p', keys, hp', hbytes', hkeys, ?_⟩
  rw [hcollides rfl (.inr (by simp [longer])), Parts.authenticated,
    Parts.authenticated, List.append_assoc]

end Payload
end SealedLua
