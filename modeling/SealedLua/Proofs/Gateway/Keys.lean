import SealedLua.Gateway.Configuration
import SealedLua.Proofs.Json.Grammar
import SealedLua.Proofs.Engine.RoundTrip

/-!
# The digits of a secret

A secret is written with two hexadecimal digits a byte, of either case, and white
space around all of them.  These texts are read as the secret, and no others are.
-/

namespace SealedLua

open Json (HexDigit)

/-- Pairs of hexadecimal digits of either case spell bytes. -/
inductive SpellsBytes : List Char → List UInt8 → Prop
  | nil : SpellsBytes [] []
  | cons {a b : Char} {i j : Nat} {s : List Char} {codes : List UInt8}
      (first : HexDigit i a) (second : HexDigit j b)
      (rest : SpellsBytes s codes) : SpellsBytes (a :: b :: s) (UInt8.ofNat (16 * i + j) :: codes)

/-- The digits of a secret with white space around them. -/
def MasterSecret.Spelled (secret : MasterSecret) (text : String) : Prop :=
  ∃ w s w', (∀ c ∈ w, Unicode.isWhiteSpace c = true) ∧ SpellsBytes s (codes secret.key) ∧
    (∀ c ∈ w', Unicode.isWhiteSpace c = true) ∧ text.toList = w ++ s ++ w'

def HasDigits (text : String) : Prop :=
  (Unicode.trim text.toList).length = 64 ∧ ∀ c ∈ Unicode.trim text.toList, ∃ v, HexDigit v c

def byteOf (c : Char) : UInt8 := UInt8.ofNat c.toNat

theorem hexDigit_byte {v : Nat} {c : Char} (h : HexDigit v c) :
    Ascii.hexValue? (byteOf c) = some v ∧ byteOf c < 128 ∧ Char.ofNat (byteOf c).toNat = c ∧
      Unicode.isWhiteSpace c = false := by
  obtain ⟨hv, hc⟩ := h
  have hall : ∀ v < 16, ∀ c ∈ [Nat.digitChar v, (Nat.digitChar v).toUpper],
      Ascii.hexValue? (byteOf c) = some v ∧ byteOf c < 128 ∧ Char.ofNat (byteOf c).toNat = c ∧
        Unicode.isWhiteSpace c = false := by
    decide +kernel
  exact hall v hv c (by simpa using hc)

theorem hexDigit_of_hexValue? {b : UInt8} {v : Nat} (h : Ascii.hexValue? b = some v) :
    HexDigit v (Char.ofNat b.toNat) ∧ b < 128 := by
  have hall : ∀ n < 256, ∀ v ∈ Ascii.hexValue? (UInt8.ofNat n),
      (v < 16 ∧ (Char.ofNat n = Nat.digitChar v ∨ Char.ofNat n = (Nat.digitChar v).toUpper)) ∧
        UInt8.ofNat n < 128 := by
    decide +kernel
  have hb := hall b.toNat b.toNat_lt v
  rw [UInt8.ofNat_toNat] at hb
  exact hb h

namespace SpellsBytes

variable {s : List Char} {bs : List UInt8}

theorem notSpace (h : SpellsBytes s bs) : ∀ c ∈ s, Unicode.isWhiteSpace c = false := by
  induction h with
  | nil => exact fun _ => nofun
  | cons first second _ ih =>
    intro c hc
    rcases List.mem_cons.1 hc with rfl | hc
    · exact (hexDigit_byte first).2.2.2
    rcases List.mem_cons.1 hc with rfl | hc
    · exact (hexDigit_byte second).2.2.2
    exact ih c hc

theorem digits (h : SpellsBytes s bs) : s.length = 2 * bs.length ∧ ∀ c ∈ s, ∃ v, HexDigit v c := by
  induction h with
  | nil => exact ⟨rfl, fun _ => nofun⟩
  | @cons a b i j s codes first second _ ih =>
    refine ⟨by simp only [List.length_cons]; omega, ?_⟩
    rintro c (_ | ⟨_, _ | ⟨_, hc⟩⟩)
    · exact ⟨i, first⟩
    · exact ⟨j, second⟩
    · exact ih.2 c hc

theorem decodeFrom (h : SpellsBytes s bs) (index : Nat) :
    ∃ ds : List UInt8, (∀ d ∈ ds, d < 128) ∧ s = ds.map (fun d => Char.ofNat d.toNat) ∧
      ds.length % 2 = 0 ∧
      Hex.decodeFrom index ds = .ok bs := by
  induction h generalizing index with
  | nil => exact ⟨[], fun _ => nofun, rfl, rfl, rfl⟩
  | @cons a b i j s codes first second _ ih =>
    obtain ⟨ds, hlow, hs, heven, hread⟩ := ih (index + 2)
    obtain ⟨hi, ha, ha', -⟩ := hexDigit_byte first
    obtain ⟨hj, hb, hb', -⟩ := hexDigit_byte second
    refine ⟨byteOf a :: byteOf b :: ds, ?_, ?_, ?_, ?_⟩
    · simpa [ha, hb] using hlow
    · rw [List.map_cons, List.map_cons, ha', hb', ← hs]
    · rw [List.length_cons, List.length_cons]
      omega
    · simp only [Hex.decodeFrom, hi, hj, hread]
      rfl

theorem of_decodeFrom {ds : List UInt8} {index : Nat} (h : Hex.decodeFrom index ds = .ok bs) :
    SpellsBytes (ds.map fun d => Char.ofNat d.toNat) bs ∧ ∀ d ∈ ds, d < 128 := by
  induction index, ds using Hex.decodeFrom.induct generalizing bs with
  | case1 index =>
    cases h
    exact ⟨nil, fun _ => nofun⟩
  | case2 index a => cases h
  | case3 index a b rest ha =>
    simp only [Hex.decodeFrom, ha] at h
    cases h
  | case4 index a b rest i ha hb =>
    simp only [Hex.decodeFrom, ha, hb] at h
    cases h
  | case5 index a b rest i j hb ha ih =>
    simp only [Hex.decodeFrom, ha, hb] at h
    cases hrest : Hex.decodeFrom (index + 2) rest with
    | error e =>
      rw [hrest] at h
      cases h
    | ok more =>
      rw [hrest] at h
      obtain rfl := Except.ok.inj h
      obtain ⟨hspells, hlow⟩ := ih hrest
      obtain ⟨hfirst, hfirstLow⟩ := hexDigit_of_hexValue? ha
      obtain ⟨hsecond, hsecondLow⟩ := hexDigit_of_hexValue? hb
      exact ⟨cons hfirst hsecond hspells, by simpa [hfirstLow, hsecondLow] using hlow⟩

end SpellsBytes

namespace Unicode

/-- Trimming takes white space away at both ends, and nothing else. -/
theorem trim_spec (s : List Char) :
    ∃ w w', (∀ c ∈ w, isWhiteSpace c = true) ∧ (∀ c ∈ w', isWhiteSpace c = true) ∧
      s = w ++ trim s ++ w' := by
  refine ⟨s.takeWhile isWhiteSpace,
    (((s.dropWhile isWhiteSpace).reverse.takeWhile isWhiteSpace)).reverse, ?_, ?_, ?_⟩
  · exact fun c hc => List.all_eq_true.1 List.all_takeWhile c hc
  · exact fun c hc => List.all_eq_true.1 List.all_takeWhile c (List.mem_reverse.1 hc)
  · rw [trim, List.append_assoc, ← List.reverse_append, List.takeWhile_append_dropWhile,
      List.reverse_reverse, List.takeWhile_append_dropWhile]

theorem dropWhile_space {w s : List Char} (space : ∀ c ∈ w, isWhiteSpace c = true)
    (first : ∀ c ∈ s.head?, isWhiteSpace c = false) : (w ++ s).dropWhile isWhiteSpace = s := by
  rw [List.dropWhile_append_of_pos space]
  cases s with
  | nil => rfl
  | cons c s => rw [List.dropWhile_cons, first c rfl]; rfl

/-- What has no white space in it is left when the white space around it is taken away. -/
theorem trim_eq {w s w' : List Char} (before : ∀ c ∈ w, isWhiteSpace c = true)
    (inside : ∀ c ∈ s, isWhiteSpace c = false) (after : ∀ c ∈ w', isWhiteSpace c = true) :
    trim (w ++ s ++ w') = s := by
  have hafter : ∀ c ∈ w'.reverse, isWhiteSpace c = true := fun c hc =>
    after c (List.mem_reverse.1 hc)
  cases s with
  | nil =>
    have hall : ∀ c ∈ w ++ w', isWhiteSpace c = true := fun c hc =>
      (List.mem_append.1 hc).elim (before c) (after c)
    have hdrop := dropWhile_space (s := []) hall (fun _ => nofun)
    rw [List.append_nil] at hdrop ⊢
    rw [trim, hdrop]
    rfl
  | cons c s =>
    have hfirst : ∀ d ∈ (c :: s ++ w').head?, isWhiteSpace d = false := by
      rintro d ⟨⟩
      exact inside c List.mem_cons_self
    have hlast : ∀ d ∈ (c :: s).reverse.head?, isWhiteSpace d = false := fun d hd =>
      inside d (List.mem_reverse.1 (List.mem_of_head? hd))
    rw [trim, List.append_assoc, dropWhile_space before hfirst, List.reverse_append,
      dropWhile_space hafter hlast, List.reverse_reverse]

end Unicode

theorem MasterSecret.Spelled.hasDigits {secret : MasterSecret} {text : String}
    (h : secret.Spelled text) : HasDigits text := by
  obtain ⟨w, s, w', hw, hs, hw', htext⟩ := h
  obtain ⟨hlength, hdigits⟩ := hs.digits
  rw [HasDigits, htext, Unicode.trim_eq hw hs.notSpace hw', hlength, length_codes, secret.size_key]
  exact ⟨rfl, hdigits⟩

namespace Configuration

theorem decode_ok_iff {text : String} {key : ByteArray} :
    Hex.decode text = .ok key ↔ SpellsBytes text.toList (codes key) := by
  constructor
  · intro h
    unfold Hex.decode at h
    split at h
    · cases h
    cases hread : Hex.decodeFrom 0 (codes text.toUTF8) with
    | error e => rw [hread] at h; cases h
    | ok bs =>
      rw [hread] at h
      obtain rfl : bytes bs = key := Except.ok.inj h
      obtain ⟨hspells, hlow⟩ := SpellsBytes.of_decodeFrom hread
      have htext : Ascii.text (codes text.toUTF8) = text :=
        Parcel.toUTF8_injective ((Ascii.toUTF8_text hlow).trans (bytes_codes _))
      rw [← htext, Ascii.text, String.toList_ofList, codes_bytes]
      exact hspells
  · intro h
    obtain ⟨ds, hlow, hs, heven, hread⟩ := h.decodeFrom 0
    have htext : text.toUTF8 = bytes ds := by
      rw [← Ascii.toUTF8_text hlow, Ascii.text, ← hs, String.ofList_toList]
    have hsize : text.utf8ByteSize = ds.length := by
      rw [← String.size_toByteArray, ← String.toUTF8_eq_toByteArray, htext, size_bytes]
    rw [Hex.decode, if_neg (by rw [hsize, heven]; decide), htext, codes_bytes, hread]
    simp [Except.map]

theorem readKey_ok_iff {text : String} {secret : MasterSecret} : readKey text = .ok secret ↔
    secret.Spelled text := by
  constructor
  · intro h
    unfold readKey at h
    split at h
    · cases h
    next key hkey =>
    unfold MasterSecret.ofBytes at h
    split at h
    · next size =>
      cases h
      obtain ⟨w, w', hw, hw', htext⟩ := Unicode.trim_spec text.toList
      rw [decode_ok_iff, String.toList_ofList] at hkey
      exact ⟨w, _, w', hw, hkey, hw', htext⟩
    · cases h
  · rintro ⟨w, s, w', hw, hs, hw', htext⟩
    have hkey : Hex.decode (String.ofList (Unicode.trim text.toList)) = .ok secret.key := by
      rw [decode_ok_iff, String.toList_ofList, htext, Unicode.trim_eq hw hs.notSpace hw']
      exact hs
    rw [readKey, hkey]
    simp [MasterSecret.ofBytes, secret.size_key, Except.mapError]

end Configuration
end SealedLua
