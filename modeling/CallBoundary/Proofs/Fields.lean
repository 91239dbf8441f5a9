import CallBoundary.Wire
import Mathlib
/-! Numbers, fields and lists of fields read back as they were written, whatever follows them. A number has to fit its
width, or be below 2^64 where that is variable, and a byte string so short that its length is such a number; no byte
string in memory is longer. Only the two forms of payload that messages are written with are covered. -/
namespace CallBoundary

namespace Bytes

theorem readLeBounded (width value : Nat) (bound : value < 256 ^ width) :
    readLe (le width value) = value := by
  induction width generalizing value with
  | zero => simp at bound; subst bound; rfl
  | succ width ih =>
    have low : value / 256 < 256 ^ width :=
      Nat.div_lt_of_lt_mul (by rw [Nat.pow_succ] at bound; omega)
    simp only [le, readLe, ih _ low, UInt8.toNat_ofNat']
    omega

theorem readBeBounded (width value : Nat) (bound : value < 256 ^ width) :
    readBe (be width value) = value := by
  simp [readBe, be, readLeBounded width value bound]

theorem readLeLt (raw : Bytes) : readLe raw < 256 ^ raw.length := by
  induction raw with
  | nil => decide
  | cons b rest ih =>
    have head := b.toNat_lt
    simp only [readLe, List.length_cons, Nat.pow_succ]
    omega

theorem readBeLt (raw : Bytes) : readBe raw < 256 ^ raw.length := by
  simpa [readBe] using readLeLt raw.reverse

end Bytes

namespace Wire

theorem byteToNat {n : Nat} (bound : n < 256) : (UInt8.ofNat n).toNat = n := UInt8.toNat_ofNat_of_lt' bound

theorem readVarintWithinWritten (room n : Nat) (rest : Bytes) (bound : n < 2 * 128 ^ room) :
    readVarintWithin (room + 1) (varint n ++ rest) = some (n, rest) := by
  induction room generalizing n with
  | zero =>
    have small : n < 128 := by omega
    have byte : (UInt8.ofNat n).toNat = n := byteToNat (by omega)
    have last : ¬ 1 < UInt8.ofNat n := by
      rw [UInt8.lt_iff_toNat_lt, byte, UInt8.toNat_one]
      omega
    rw [varint, if_pos small]
    simp [readVarintWithin, UInt8.lt_iff_toNat_lt, byte, small, last]
  | succ room ih =>
    rw [varint]
    split
    · rename_i small
      have byte : (UInt8.ofNat n).toNat = n := byteToNat (by omega)
      simp [readVarintWithin, UInt8.lt_iff_toNat_lt, byte, small]
    · rename_i large
      have byte : (UInt8.ofNat (n % 128 + 128)).toNat = n % 128 + 128 := byteToNat (by omega)
      have high : n / 128 < 2 * 128 ^ room := by rw [Nat.pow_succ] at bound; omega
      have more : ¬ n % 128 + 128 < 128 := by omega
      simp only [List.cons_append, readVarintWithin, UInt8.lt_iff_toNat_lt, byte, ih (n / 128) high]
      simp only [UInt8.reduceToNat, more, if_false, Option.bind_eq_bind, Option.bind_some, Option.some.injEq,
        Prod.mk.injEq, and_true]
      omega

theorem readVarintWritten {n : Nat} (bound : n < UInt64.size) (rest : Bytes) :
    readVarint (varint n ++ rest) = some (n, rest) :=
  readVarintWithinWritten 9 n rest (by simpa using bound)

theorem readExactlyWritten (raw rest : Bytes) : readExactly raw.length (raw ++ rest) = some (raw, rest) := by
  simp [readExactly]

namespace Field

def Shaped : Field → Prop
  | ⟨number, .varint n⟩ => 0 < number ∧ number ≤ 7 ∧ n < UInt64.size
  | ⟨number, .bytes _⟩ => 0 < number ∧ number ≤ 7
  | _ => False

theorem shapedOfNat {number n : Nat} (known : 0 < number ∧ number ≤ 7) (bound : n < UInt64.size) :
    ∀ field ∈ ofNat number n, field.Shaped := by
  intro field member
  unfold ofNat at member
  split at member
  · cases member
  · cases List.mem_singleton.mp member
    exact ⟨known.1, known.2, bound⟩

theorem shapedOfBytes {number : Nat} (known : 0 < number ∧ number ≤ 7) (raw : Bytes) :
    ∀ field ∈ ofBytes number raw, field.Shaped := by
  intro field member
  unfold ofBytes at member
  split at member
  · cases member
  · cases List.mem_singleton.mp member
    exact known

end Field

theorem readKeyWritten {number form : Nat} (known : 0 < number ∧ number ≤ 7) (low : form < 8) (rest : Bytes) :
    readKey (Field.key number form ++ rest) = some (number, form, rest) := by
  have bound : 8 * number + form < UInt32.size := by simp only [UInt32.size]; omega
  have wide : 8 * number + form < UInt64.size := by simp only [UInt64.size]; omega
  have split : (8 * number + form) / 8 = number ∧ (8 * number + form) % 8 = form := by omega
  have enough : 8 ≤ 8 * number + form := by omega
  simp [readKey, Field.key, readVarintWritten wide, bound, enough, split]

theorem keyNonempty (number form : Nat) (rest : Bytes) : Field.key number form ++ rest ≠ [] := by
  unfold Field.key
  rw [varint]
  split <;> simp

theorem readFieldsKeyed {budget number form : Nat} {raw rest : Bytes} (nonempty : raw ≠ [])
    (opened : readKey raw = some (number, form, rest)) (ungrouped : form ≠ 3 ∧ form ≠ 4) :
    readFields budget [] raw =
      (readPayload form rest).bind fun read => (readFields budget [] read.2).map (⟨number, read.1⟩ :: ·) := by
  rw [readFields, if_neg nonempty]
  split
  · simp_all
  · simp_all
  · simp_all
  · rename_i other
    rw [opened] at other
    cases other
    split
    · rename_i unread
      rw [unread]
      rfl
    · rename_i found
      rw [found]
      rfl

theorem readFieldsOpened {budget number form : Nat} {raw rest after : Bytes} {payload : Payload} (nonempty : raw ≠ [])
    (opened : readKey raw = some (number, form, rest)) (ungrouped : form ≠ 3 ∧ form ≠ 4)
    (read : readPayload form rest = some (payload, after)) :
    readFields budget [] raw = (readFields budget [] after).map (⟨number, payload⟩ :: ·) := by
  rw [readFieldsKeyed nonempty opened ungrouped, read]
  rfl

theorem readFieldsCons {field : Field} (shaped : field.Shaped) (budget : Nat) (rest : Bytes)
    (short : field.encode.length < UInt64.size) :
    readFields budget [] (field.encode ++ rest) = (readFields budget [] rest).map (field :: ·) := by
  obtain ⟨number, payload⟩ := field
  cases payload with
  | varint n =>
    obtain ⟨positive, known, bound⟩ := shaped
    have opened := readKeyWritten ⟨positive, known⟩ (by decide : 0 < 8) (varint n ++ rest)
    have read : readPayload 0 (varint n ++ rest) = some (.varint n, rest) := by
      simp only [readPayload, readVarintWritten bound, Option.map_some]
    rw [Field.encode, List.append_assoc]
    exact readFieldsOpened (keyNonempty number 0 _) opened (by decide) read
  | bytes raw =>
    have bound : raw.length < UInt64.size := by
      simp only [Field.encode, List.length_append] at short
      omega
    have opened := readKeyWritten shaped (by decide : 2 < 8) (varint raw.length ++ (raw ++ rest))
    have read : readPayload 2 (varint raw.length ++ (raw ++ rest)) = some (.bytes raw, rest) := by
      simp only [readPayload, readVarintWritten bound, Option.bind_eq_bind, Option.bind_some, readExactlyWritten,
        Option.map_some]
    rw [Field.encode, List.append_assoc, List.append_assoc]
    exact readFieldsOpened (keyNonempty number 2 _) opened (by decide) read
  | fixed64 raw => exact shaped.elim
  | group => exact shaped.elim
  | fixed32 raw => exact shaped.elim

theorem readFieldsEach (budget : Nat) {fields : List Field} (shaped : ∀ field ∈ fields, field.Shaped)
    (short : ∀ field ∈ fields, field.encode.length < UInt64.size) :
    readFields budget [] (encodeFields fields) = some fields := by
  induction fields with
  | nil => simp [encodeFields, readFields]
  | cons field rest ih =>
    have head := readFieldsCons (shaped field List.mem_cons_self) budget (encodeFields rest)
      (short field List.mem_cons_self)
    have tail := ih (fun other member => shaped other (List.mem_cons_of_mem field member))
      (fun other member => short other (List.mem_cons_of_mem field member))
    rw [encodeFields, List.flatMap_cons]
    exact head.trans (by rw [tail]; rfl)

theorem encodeMember {fields : List Field} {field : Field} (member : field ∈ fields) :
    field.encode.length ≤ (encodeFields fields).length := by
  obtain ⟨before, after, rfl⟩ := List.append_of_mem member
  simp only [encodeFields, List.flatMap_append, List.flatMap_cons, List.length_append]
  omega

theorem readFieldsWritten (budget : Nat) {fields : List Field} (shaped : ∀ field ∈ fields, field.Shaped)
    (short : (encodeFields fields).length < UInt64.size) :
    readFields budget [] (encodeFields fields) = some fields :=
  readFieldsEach budget shaped fun _ member => Nat.lt_of_le_of_lt (encodeMember member) short

theorem bytesShorter {fields : List Field} (number : Nat) {raw : Bytes} (member : ⟨number, .bytes raw⟩ ∈ fields) :
    raw.length ≤ (encodeFields fields).length := by
  have whole := encodeMember member
  simp only [Field.encode, List.length_append] at whole
  omega

/-! A field that is left out, being the default, does to a message what it would do if it were written. -/

section Merging

variable {α : Type} {merge : α → Field → Option α} {start : α} {number : Nat}

theorem mergeNumber {n : Nat} {after : α} (default : n = 0 → after = start)
    (merges : merge start ⟨number, .varint n⟩ = some after) :
    (Field.ofNat number n).foldlM merge start = some after := by
  unfold Field.ofNat
  split
  · rename_i zero
    rw [default zero]
    rfl
  · simp [merges]

theorem mergeBytes {raw : Bytes} (after : Bytes → α) (default : after [] = start)
    (merges : merge start ⟨number, .bytes raw⟩ = some (after raw)) :
    (Field.ofBytes number raw).foldlM merge start = some (after raw) := by
  unfold Field.ofBytes
  split
  · rename_i empty
    rw [empty, default]
    rfl
  · simp [merges]

theorem mergeText {text : String} (after : String → α) (default : after "" = start)
    (merges : ∀ raw, merge start ⟨number, .bytes raw⟩ = (Text.ofBytes? raw).map after) :
    (Field.ofBytes number (Text.bytes text)).foldlM merge start = some (after text) := by
  have read := merges (Text.bytes text)
  rw [Text.ofBytesBytes] at read
  unfold Field.ofBytes
  split
  · rename_i empty
    have blank : Text.ofBytes? (Text.bytes text) = some "" := by
      rw [empty]
      exact Text.ofBytesBytes ""
    rw [Text.ofBytesBytes] at blank
    rw [Option.some.inj blank, default]
    rfl
  · simp [read]

end Merging

end Wire

end CallBoundary
