import CallBoundary.Proofs.Fields
import CallBoundary.State
import Mathlib
/-! Amounts and their bytes. Writing gives the one byte string of an amount that does not start with a zero byte. Reading
takes every string of up to 32 bytes for the number it stands for, zeros in front of it or not, and writing that again
strips them. Only what is longer than 32 bytes is refused; where that is due to zeros in front, the number itself
would have been an amount. -/
namespace CallBoundary

namespace Bytes

def number (raw : Bytes) : Nat := Nat.ofDigits 256 (raw.reverse.map UInt8.toNat)

theorem readBeNumber (raw : Bytes) : readBe raw = number raw := by
  have little : ∀ bytes : Bytes, readLe bytes = Nat.ofDigits 256 (bytes.map UInt8.toNat) := by
    intro bytes
    induction bytes with
    | nil => rfl
    | cons b rest ih => rw [readLe, ih, List.map_cons, Nat.ofDigits_cons]
  exact little raw.reverse

theorem numberZeros (count : Nat) (raw : Bytes) : number (List.replicate count 0 ++ raw) = number raw := by
  simp [number, Nat.ofDigits_append, Nat.ofDigits_replicate_zero]

theorem numberStripped (raw : Bytes) : number (raw.dropWhile (· == 0)) = number raw := by
  induction raw with
  | nil => rfl
  | cons b rest ih =>
    by_cases zero : b = 0
    · subst zero
      exact ih.trans (numberZeros 1 rest).symm
    · rw [List.dropWhile_cons_of_neg (by simpa using zero)]

theorem strippedZeros (count : Nat) (raw : Bytes) :
    (List.replicate count 0 ++ raw).dropWhile (· == 0) = raw.dropWhile (· == 0) := by
  induction count with
  | zero => rfl
  | succ count ih => exact ih

theorem strippedHead (raw : Bytes) : (raw.dropWhile (· == 0)).head? ≠ some 0 := by
  intro starts
  have failing := List.head?_dropWhile_not (p := (· == (0 : UInt8))) raw
  rw [starts] at failing
  exact absurd failing (by decide)

theorem beNumber {width : Nat} {raw : Bytes} (short : raw.length ≤ width) :
    be width (number raw) = List.replicate (width - raw.length) 0 ++ raw := by
  have whole : (List.replicate (width - raw.length) 0 ++ raw).length = width := by
    rw [List.length_append, List.length_replicate, Nat.sub_add_cancel short]
  have again := leReadLe (List.replicate (width - raw.length) 0 ++ raw).reverse
  rw [List.length_reverse, whole] at again
  rw [← numberZeros (width - raw.length) raw, ← readBeNumber, be, readBe, again, List.reverse_reverse]

end Bytes

namespace Amount

theorem limitBytes : limit = 256 ^ 32 := by decide

theorem ofNatBound {n : Nat} (bound : n < limit) : ofNat? n = some ⟨n, bound⟩ := dif_pos bound

theorem encodeLength (a : Amount) : a.encode.length ≤ 32 := by
  rw [encode, ← Bytes.beLength 32 a.value]
  exact (List.dropWhile_sublist _).length_le

theorem encodeNumber (a : Amount) : Bytes.number a.encode = a.value := by
  have read := Bytes.readBeBounded 32 a.value (limitBytes ▸ a.bound)
  rw [encode, Bytes.numberStripped, ← Bytes.readBeNumber, read]

theorem numberBound {raw : Bytes} (short : raw.length ≤ 32) : Bytes.number raw < limit := by
  rw [← Bytes.readBeNumber, limitBytes]
  exact Nat.lt_of_lt_of_le (Bytes.readBeLt raw) (Nat.pow_le_pow_right (by decide) short)

theorem decodeShort {raw : Bytes} (short : raw.length ≤ 32) : decode? raw = some ⟨Bytes.number raw, numberBound short⟩ := by
  rw [decode?, if_pos short, Bytes.readBeNumber]
  exact ofNatBound _

theorem encodeOfNumber {raw : Bytes} (short : raw.length ≤ 32) :
    encode ⟨Bytes.number raw, numberBound short⟩ = raw.dropWhile (· == 0) := by
  rw [encode, Bytes.beNumber short, Bytes.strippedZeros]

-- Longer than any amount is written, but only for the zeros in front.
def Overlong (raw : Bytes) : Prop := 32 < raw.length ∧ Bytes.number raw < limit

theorem writtenReadsBack (a : Amount) : decode? a.encode = some a := by
  rw [decodeShort a.encodeLength]
  exact congrArg some (valueInj a.encodeNumber)

/-- An amount is written without a leading zero byte in at most 32 bytes and reads back. A byte string reads as the number
it stands for if that is below the limit and the string is not longer than 32 bytes for zeros in front; written
again it comes out without its leading zeros. What is overlong is refused. -/
theorem amountsReadBackUnlessOverlong (a : Amount) (raw : Bytes) :
    a.encode.head? ≠ some 0 ∧ a.encode.length ≤ 32 ∧ decode? a.encode = some a ∧
      ((decode? raw).isSome ↔ Bytes.number raw < limit ∧ ¬ Overlong raw) ∧
      ∀ read, decode? raw = some read → read.value = Bytes.number raw ∧ read.encode = raw.dropWhile (· == 0) := by
  refine ⟨Bytes.strippedHead _, a.encodeLength, a.writtenReadsBack, ?_⟩
  by_cases short : raw.length ≤ 32
  · have apart : ¬ Overlong raw := fun overlong => Nat.not_lt.mpr short overlong.1
    rw [decodeShort short]
    refine ⟨⟨fun _ => ⟨numberBound short, apart⟩, fun _ => rfl⟩, ?_⟩
    rintro read same
    cases same
    exact ⟨rfl, encodeOfNumber short⟩
  · have refused : decode? raw = none := if_neg short
    have overlong : ∀ below : Bytes.number raw < limit, Overlong raw := fun below => ⟨Nat.not_le.mp short, below⟩
    constructor
    · rw [refused]
      exact iff_of_false Bool.false_ne_true fun given => given.2 (overlong given.1)
    · intro read given
      rw [refused] at given
      cases given

theorem paddedZeroRefused :
    Bytes.number (List.replicate 33 0) = 0 ∧ 0 < limit ∧ decode? (List.replicate 33 0) = none := by
  decide

end Amount
end CallBoundary
