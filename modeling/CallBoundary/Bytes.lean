import Std.Data.ExtTreeMap
/-! Byte strings, byte strings of one length, numbers written in bytes, and bytes as text. Nothing here fixes a
meaning: addresses, hashes and amounts are built on top. Byte strings are ordered byte by byte, a proper initial part
before what extends it. In `le` and `readLe` the first byte is the least significant one, in `be` and `readBe` the
most significant. Text has the bytes of its UTF-8 form, and bytes that are no such form have no text; hexadecimal
digits are written in lower case and read in either, two for every byte. -/
namespace CallBoundary

abbrev Bytes := List UInt8

namespace Bytes

def le : Nat → Nat → Bytes
  | 0, _ => []
  | width + 1, value => UInt8.ofNat value :: le width (value / 256)

def readLe : Bytes → Nat
  | [] => 0
  | b :: rest => b.toNat + 256 * readLe rest

def be (width value : Nat) : Bytes := (le width value).reverse

def readBe (raw : Bytes) : Nat := readLe raw.reverse

theorem leLength (width value : Nat) : (le width value).length = width := by
  induction width generalizing value with
  | zero => rfl
  | succ width ih => simp [le, ih]

theorem beLength (width value : Nat) : (be width value).length = width := by
  simp [be, leLength]

theorem leReadLe (raw : Bytes) : le raw.length (readLe raw) = raw := by
  induction raw with
  | nil => rfl
  | cons b rest ih =>
    have head := b.toNat_lt
    have tail : (b.toNat + 256 * readLe rest) / 256 = readLe rest := by omega
    simp only [List.length_cons, le, readLe, tail, ih, List.cons.injEq, and_true]
    apply UInt8.toNat_inj.mp
    rw [UInt8.toNat_ofNat']
    omega

def chunks (size : Nat) (positive : 0 < size) (raw : Bytes) : List Bytes :=
  match raw with
  | [] => []
  | b :: rest => (b :: rest).take size :: chunks size positive ((b :: rest).drop size)
termination_by raw.length
decreasing_by simp; omega

end Bytes

structure FixedBytes (n : Nat) where
  toList : Bytes
  lengthToList : toList.length = n
  deriving DecidableEq, Repr

namespace FixedBytes

variable {n : Nat}

theorem toListInj : {a b : FixedBytes n} → a.toList = b.toList → a = b
  | ⟨_, _⟩, ⟨_, _⟩, rfl => rfl

instance : Ord (FixedBytes n) := ⟨compareOn toList⟩

instance : Std.TransOrd (FixedBytes n) := inferInstanceAs (Std.TransCmp (compareOn toList))

instance : Std.LawfulEqOrd (FixedBytes n) where
  eq_of_compare h := toListInj (Std.LawfulEqOrd.eq_of_compare (α := Bytes) h)

def zero : FixedBytes n := ⟨List.replicate n 0, List.length_replicate⟩

def ofList? (raw : Bytes) : Option (FixedBytes n) :=
  if h : raw.length = n then some ⟨raw, h⟩ else none

def last (n : Nat) (raw : Bytes) : FixedBytes n :=
  ⟨((List.replicate n 0) ++ raw).drop raw.length, by simp⟩

end FixedBytes

abbrev Address := FixedBytes 20

abbrev Hash := FixedBytes 32

instance : Std.TransOrd Address := FixedBytes.instTransOrd

instance : Std.LawfulEqOrd Address := FixedBytes.instLawfulEqOrd

namespace Text

def bytes (text : String) : Bytes := text.toUTF8.data.toList

def ofBytes? (raw : Bytes) : Option String := String.fromUTF8? ⟨raw.toArray⟩

theorem ofBytesBytes (text : String) : ofBytes? (bytes text) = some text := by
  have same : (⟨(bytes text).toArray⟩ : ByteArray) = text.toByteArray := by
    simp [bytes, String.toUTF8]
  unfold ofBytes?
  rw [same, String.fromUTF8?, dif_pos text.isValidUTF8]
  rfl

end Text

namespace Hex

def digit (n : UInt8) : Char :=
  if n < 10 then Char.ofNat (48 + n.toNat) else Char.ofNat (87 + n.toNat)

def digits : Bytes → List Char
  | [] => []
  | b :: rest => digit (b / 16) :: digit (b % 16) :: digits rest

def encode (raw : Bytes) : String := String.ofList (digits raw)

def value? (c : Char) : Option UInt8 :=
  if '0' ≤ c ∧ c ≤ '9' then some (UInt8.ofNat (c.toNat - 48))
  else if 'a' ≤ c ∧ c ≤ 'f' then some (UInt8.ofNat (c.toNat - 87))
  else if 'A' ≤ c ∧ c ≤ 'F' then some (UInt8.ofNat (c.toNat - 55))
  else none

def bytes? : List Char → Option Bytes
  | [] => some []
  | [_] => none
  | high :: low :: rest => do
    let h ← value? high
    let l ← value? low
    let tail ← bytes? rest
    some ((16 * h + l) :: tail)

def decode? (text : String) : Option Bytes := bytes? text.toList

end Hex

end CallBoundary
