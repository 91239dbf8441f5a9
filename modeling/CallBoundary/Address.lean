import CallBoundary.Bytes
/-! Addresses: the one that a deployment lands at, and their text. Both rest on the 256-bit Keccak hash: the
permutation on twenty-five 64-bit lanes, blocks of 136 bytes, and the padding that ends a message with one bit, zeros
and one bit. No resistance to collisions is claimed or used. -/
namespace CallBoundary

namespace Keccak

-- Lane `(x, y)` stands at position `x + 5 * y`.
abbrev Lanes := Vector UInt64 25

def lane (s : Lanes) (x y : Nat) : UInt64 := s[x % 5 + 5 * (y % 5)]

def build (f : Nat → Nat → UInt64) : Lanes := Vector.ofFn fun i => f (i.val % 5) (i.val / 5)

def rotate (v : UInt64) (n : Nat) : UInt64 :=
  (v <<< UInt64.ofNat n) ||| (v >>> UInt64.ofNat (64 - n))

def offsets : Vector Nat 25 := Vector.mk
  (Array.mk [0, 1, 62, 28, 27, 36, 44, 6, 55, 20, 3, 10, 43, 25, 39, 41, 45, 15, 21, 8, 18, 2, 61, 56, 14]) rfl

def roundConstants : List UInt64 :=
  [0x0000000000000001, 0x0000000000008082, 0x800000000000808a, 0x8000000080008000,
   0x000000000000808b, 0x0000000080000001, 0x8000000080008081, 0x8000000000008009,
   0x000000000000008a, 0x0000000000000088, 0x0000000080008009, 0x000000008000000a,
   0x000000008000808b, 0x800000000000008b, 0x8000000000008089, 0x8000000000008003,
   0x8000000000008002, 0x8000000000000080, 0x000000000000800a, 0x800000008000000a,
   0x8000000080008081, 0x8000000000008080, 0x0000000080000001, 0x8000000080008008]

def theta (s : Lanes) : Lanes :=
  let parity : Vector UInt64 5 := Vector.ofFn fun x =>
    lane s x 0 ^^^ lane s x 1 ^^^ lane s x 2 ^^^ lane s x 3 ^^^ lane s x 4
  let mix : Vector UInt64 5 := Vector.ofFn fun x =>
    parity[(x.val + 4) % 5] ^^^ rotate parity[(x.val + 1) % 5] 1
  build fun x y => lane s x y ^^^ mix[x % 5]

def rhoPi (s : Lanes) : Lanes :=
  build fun x y => rotate (lane s (x + 3 * y) x) offsets[(x + 3 * y) % 5 + 5 * (x % 5)]

def chi (s : Lanes) : Lanes :=
  build fun x y => lane s x y ^^^ (~~~(lane s (x + 1) y) &&& lane s (x + 2) y)

def iota (constant : UInt64) (s : Lanes) : Lanes := s.set 0 (s[0] ^^^ constant)

def round (s : Lanes) (constant : UInt64) : Lanes := iota constant (chi (rhoPi (theta s)))

def permute (s : Lanes) : Lanes := roundConstants.foldl round s

def rate : Nat := 136

def padding (length : Nat) : Bytes :=
  match rate - length % rate with
  | 0 => []
  | 1 => [0x81]
  | room + 2 => 0x01 :: (List.replicate room 0 ++ [0x80])

def absorb (s : Lanes) (block : Bytes) : Lanes :=
  let words : Array UInt64 :=
    ((Bytes.chunks 8 (by decide) block).map fun piece => UInt64.ofNat (Bytes.readLe piece)).toArray
  permute (Vector.ofFn fun i => s[i] ^^^ words[i.val]?.getD 0)

def squeeze (s : Lanes) : Bytes :=
  [s[0], s[1], s[2], s[3]].flatMap fun word => Bytes.le 8 word.toNat

theorem squeezeLength (s : Lanes) : (squeeze s).length = 32 := by
  simp [squeeze, Bytes.leLength]

def hash (message : Bytes) : Hash :=
  let blocks := Bytes.chunks rate (by decide) (message ++ padding message.length)
  ⟨squeeze (blocks.foldl absorb (Vector.replicate 25 0)), squeezeLength _⟩

end Keccak

def Hash.toAddress (h : Hash) : Address := FixedBytes.last 20 h.toList

namespace Address

-- A letter of the digits is a capital where the hash of the digits has a hexadecimal digit of eight or more at the
-- same place.
def checksummed (a : Address) : String :=
  let plain := Hex.digits a.toList
  let guide := Hex.digits (Keccak.hash (plain.map fun c => c.toUInt8)).toList
  "0x" ++ String.ofList (List.zipWith (fun c g => if '8' ≤ g then c.toUpper else c) plain guide)

def preimage (code : Hash) (args nonce : Bytes) : Bytes := code.toList ++ args ++ nonce

def ofDeployment (code : Hash) (args nonce : Bytes) : Address :=
  Hash.toAddress (Keccak.hash (preimage code args nonce))

end Address

end CallBoundary
