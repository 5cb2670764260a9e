import Mathlib.Tactic.Common
import SealedLua.Engine.Parcel

/-!
# Parcels in slots

A parcel that fits is laid in slots and read back without loss.  `content` and
`word` say what lies in the buffer and beside it; what is proved later about
slots goes through them.
-/

namespace SealedLua.Parcel

/-- The text that lies in the buffer of a parcel. -/
def content : Parcel → String
  | .number _ => ""
  | .text s | .code s => s

def word : Parcel → UInt64
  | .number n => n.toUInt64
  | .text s | .code s => UInt64.ofNat s.toUTF8.size

@[simp] theorem content_number (n : Int64) : (number n).content = "" := rfl

@[simp] theorem content_text (s : String) : (text s).content = s := rfl

@[simp] theorem content_code (s : String) : (code s).content = s := rfl

theorem tag_cases (p : Parcel) : p.tag = 0 ∨ p.tag = 1 ∨ p.tag = 2 := by
  cases p with
  | number n => exact .inl rfl
  | text s => exact .inr (.inl rfl)
  | code s => exact .inr (.inr rfl)

theorem fromUTF8?_toUTF8 (s : String) : String.fromUTF8? s.toUTF8 = some s := by
  rw [String.fromUTF8?, String.toUTF8_eq_toByteArray, dif_pos s.isValidUTF8]
  rfl

theorem toUTF8_injective {s t : String} (same : s.toUTF8 = t.toUTF8) : s = t := by
  have read := fromUTF8?_toUTF8 s
  rw [same, fromUTF8?_toUTF8] at read
  exact (Option.some.inj read).symm

theorem toUTF8_of_fromUTF8? {s : ByteArray} {t : String} (valid : String.fromUTF8? s = some t) :
    t.toUTF8 = s := by
  unfold String.fromUTF8? at valid
  split at valid <;> cases valid
  rfl

/-- A parcel is laid out unless it is too long. -/
theorem toSlots_eq (p : Parcel) (capacity : Nat) :
    p.toSlots capacity = if capacity < p.content.toUTF8.size then .error
      (.capacity p.content.toUTF8.size capacity)
      else .ok ⟨p.tag, p.word, p.content.toUTF8⟩ := by
  cases p with
  | number n => exact (if_neg (Nat.not_lt_zero capacity)).symm
  | text s => rfl
  | code s => rfl

theorem toSlots_eq_ok {p : Parcel} {capacity : Nat} {x : Slots} (h : p.toSlots capacity = .ok x) :
    x = ⟨p.tag, p.word, p.content.toUTF8⟩ ∧ p.content.toUTF8.size ≤ capacity := by
  rw [toSlots_eq] at h
  split_ifs at h with long
  cases h
  exact ⟨rfl, Nat.le_of_not_lt long⟩

theorem readBuffer_toUTF8 {s : String} {capacity : Nat} (h : s.toUTF8.size ≤ capacity) :
    readBuffer s.toUTF8 capacity = .ok s := by
  rw [readBuffer, if_neg (Nat.not_lt.2 h), fromUTF8?_toUTF8]

theorem ofSlots_layout {p : Parcel} {capacity : Nat} (h : p.content.toUTF8.size ≤ capacity) :
    ofSlots ⟨p.tag, p.word, p.content.toUTF8⟩ capacity = .ok p := by
  cases p with
  | number n =>
    have hn : n.toUInt64.toInt64 = n := by simp
    simp [ofSlots, tag, word, hn]
  | text s =>
    have hread : readBuffer s.toByteArray capacity = .ok s := readBuffer_toUTF8 h
    simp [ofSlots, tag, numberTag, textTag, hread, Except.map]
  | code s =>
    have hread : readBuffer s.toByteArray capacity = .ok s := readBuffer_toUTF8 h
    simp [ofSlots, tag, numberTag, textTag, codeTag, hread, Except.map]

theorem toSlots_eq_error {p : Parcel} {capacity : Nat} {e : EngineError} :
    p.toSlots capacity = .error e ↔
    capacity < p.content.toUTF8.size ∧ e = .capacity p.content.toUTF8.size capacity := by
  rw [toSlots_eq]
  split_ifs with long
  · exact ⟨fun same => ⟨long, (Except.error.inj same).symm⟩, fun same =>
      congrArg Except.error same.2.symm⟩
  · exact ⟨nofun, fun same => absurd same.1 long⟩

section Reading

variable {buffer : ByteArray} {capacity : Nat} {s : String} {e : EngineError} {x : Slots}

theorem readBuffer_eq_ok : readBuffer buffer capacity = .ok s ↔ buffer.size ≤ capacity ∧
    s.toUTF8 = buffer := by
  constructor
  · intro read
    unfold readBuffer at read
    split_ifs at read with long
    split at read
    · next valid =>
      cases read
      exact ⟨Nat.le_of_not_lt long, toUTF8_of_fromUTF8? valid⟩
    · cases read
  · rintro ⟨fits, rfl⟩
    exact readBuffer_toUTF8 fits

theorem exists_readBuffer_iff :
    (∃ s, readBuffer buffer capacity = .ok s) ↔ buffer.size ≤ capacity ∧ buffer.IsValidUTF8 := by
  constructor
  · rintro ⟨s, read⟩
    obtain ⟨fits, rfl⟩ := readBuffer_eq_ok.1 read
    exact ⟨fits, s.isValidUTF8⟩
  · rintro ⟨fits, valid⟩
    exact ⟨⟨buffer, valid⟩, readBuffer_eq_ok.2 ⟨fits, rfl⟩⟩

theorem readBuffer_eq_error : readBuffer buffer capacity = .error e ↔
    capacity < buffer.size ∧ e = .capacity buffer.size capacity ∨
      buffer.size ≤ capacity ∧ ¬buffer.IsValidUTF8 ∧ e = .invalidText := by
  unfold readBuffer
  by_cases long : capacity < buffer.size
  · simp [long, Nat.not_le.2 long, eq_comm]
  by_cases valid : buffer.IsValidUTF8
  · simp [long, valid, String.fromUTF8?]
  · simp [long, valid, String.fromUTF8?, Nat.le_of_not_lt long, eq_comm]

theorem ofSlots_of_number (tagged : x.tag = 0) (capacity : Nat) :
    ofSlots x capacity = .ok (.number x.number.toInt64) :=
  if_pos tagged

theorem ofSlots_of_buffer (tagged : x.tag = 1 ∨ x.tag = 2) (capacity : Nat) :
    ∃ make : String → Parcel, ofSlots x capacity = (readBuffer x.buffer capacity).map make ∧
      ∀ s, (make s).tag = x.tag ∧ (make s).content = s ∧
        (make s).word = UInt64.ofNat s.toUTF8.size := by
  rcases tagged with is_text | is_code
  · exact ⟨.text, by simp [ofSlots, is_text, numberTag, textTag], fun s => ⟨is_text.symm, rfl, rfl⟩⟩
  · exact ⟨.code,
      by simp [ofSlots, is_code, numberTag, textTag, codeTag], fun s => ⟨is_code.symm, rfl, rfl⟩⟩

theorem ofSlots_of_unknown (number : x.tag ≠ 0) (tagged : ¬(x.tag = 1 ∨ x.tag = 2))
    (capacity : Nat) :
    ofSlots x capacity = .error (.unknownTag x.tag) :=
  (if_neg number).trans
    ((if_neg fun one => tagged (.inl one)).trans (if_neg fun two => tagged (.inr two)))

theorem exists_ofSlots_iff : (∃ p, ofSlots x capacity = .ok p) ↔
    x.tag = 0 ∨ (x.tag = 1 ∨ x.tag = 2) ∧ x.buffer.size ≤ capacity ∧ x.buffer.IsValidUTF8 := by
  by_cases number : x.tag = 0
  · simp [ofSlots_of_number number, number]
  by_cases tagged : x.tag = 1 ∨ x.tag = 2
  · obtain ⟨make, reads, -⟩ := ofSlots_of_buffer tagged capacity
    rw [reads, ← exists_readBuffer_iff]
    cases readBuffer x.buffer capacity <;> simp [Except.map, number, tagged]
  · simp [ofSlots_of_unknown number tagged, number, tagged]

theorem ofSlots_eq_error : ofSlots x capacity = .error e ↔
    (x.tag ≠ 0 ∧ ¬(x.tag = 1 ∨ x.tag = 2)) ∧ e = .unknownTag x.tag ∨
      (x.tag = 1 ∨ x.tag = 2) ∧ (capacity < x.buffer.size ∧ e = .capacity x.buffer.size capacity ∨
        x.buffer.size ≤ capacity ∧ ¬x.buffer.IsValidUTF8 ∧ e = .invalidText) := by
  by_cases number : x.tag = 0
  · simp [ofSlots_of_number number, number]
  by_cases tagged : x.tag = 1 ∨ x.tag = 2
  · obtain ⟨make, reads, -⟩ := ofSlots_of_buffer tagged capacity
    rw [reads, ← readBuffer_eq_error]
    cases readBuffer x.buffer capacity <;> simp [Except.map, tagged]
  · simp [ofSlots_of_unknown number tagged, number, tagged, eq_comm]

/-- What was read is laid out as it lay there, apart from the buffer beside a
number and the number beside a buffer, which are not looked at. -/
theorem toSlots_of_ofSlots {p : Parcel} (read : ofSlots x capacity = .ok p) :
    p.toSlots capacity = .ok (if x.tag = 0 then ⟨0, x.number, bytes []⟩
      else ⟨x.tag, UInt64.ofNat x.buffer.size, x.buffer⟩) := by
  by_cases number : x.tag = 0
  · rw [ofSlots_of_number number] at read
    cases read
    have whole : x.number.toInt64.toUInt64 = x.number := by simp
    rw [if_pos number, toSlots, whole]
    rfl
  by_cases tagged : x.tag = 1 ∨ x.tag = 2
  · obtain ⟨make, reads, parts⟩ := ofSlots_of_buffer tagged capacity
    rw [reads] at read
    cases text : readBuffer x.buffer capacity with
    | error e =>
      rw [text] at read
      cases read
    | ok s =>
      rw [text] at read
      cases read
      obtain ⟨fits, same⟩ := readBuffer_eq_ok.1 text
      obtain ⟨tag, content, word⟩ := parts s
      rw [toSlots_eq, tag, content, word, same, if_neg (Nat.not_lt.2 fits), if_neg number]
  · rw [ofSlots_of_unknown number tagged] at read
    cases read

end Reading

/-- Slots and parcels are one format.

A parcel is laid out unless it is a text or code of more bytes than the capacity,
and what is laid out is read as the parcel.  Slots are read if they hold a number,
or a text or code that is within the capacity and is valid UTF-8; the tag is looked
at first, then the length and then the text.  What is read is laid out as it lay
in the slots. -/
theorem slots_keep_parcels (capacity : Nat) :
    (∀ (p : Parcel) (e : EngineError), p.toSlots capacity = .error e ↔
      ∃ s, (p = .text s ∨ p = .code s) ∧ capacity < s.toUTF8.size ∧
        e = .capacity s.toUTF8.size capacity) ∧
    (∀ (p : Parcel) (x : Slots), p.toSlots capacity = .ok x → ofSlots x capacity = .ok p) ∧
    ∀ x : Slots,
      ((∃ p, ofSlots x capacity = .ok p) ↔
        x.tag = 0 ∨ (x.tag = 1 ∨ x.tag = 2) ∧ x.buffer.size ≤ capacity ∧ x.buffer.IsValidUTF8) ∧
      (∀ e, ofSlots x capacity = .error e ↔
        (x.tag ≠ 0 ∧ ¬(x.tag = 1 ∨ x.tag = 2)) ∧ e = .unknownTag x.tag ∨
        (x.tag = 1 ∨ x.tag = 2) ∧ (capacity < x.buffer.size ∧ e = .capacity x.buffer.size capacity ∨
          x.buffer.size ≤ capacity ∧ ¬x.buffer.IsValidUTF8 ∧ e = .invalidText)) ∧
      ∀ p, ofSlots x capacity = .ok p →
        p.toSlots capacity = .ok (if x.tag = 0 then ⟨0, x.number, bytes []⟩
          else ⟨x.tag, UInt64.ofNat x.buffer.size, x.buffer⟩) := by
  refine ⟨fun p e => toSlots_eq_error.trans ?_, fun p x laid => ?_,
    fun x => ⟨exists_ofSlots_iff, fun e => ofSlots_eq_error, fun p read => toSlots_of_ofSlots read⟩⟩
  · cases p with
    | number n =>
      exact ⟨fun long => absurd long.1 (Nat.not_lt_zero capacity),
        fun ⟨_, kind, _⟩ => by simp at kind⟩
    | text s => simp
    | code s => simp
  · obtain ⟨rfl, fits⟩ := toSlots_eq_ok laid
    exact ofSlots_layout fits

end SealedLua.Parcel
