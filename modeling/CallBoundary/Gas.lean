import CallBoundary.Bytes
/-! Gas: 64-bit counts whose sums and products stop at the largest count instead of wrapping, and the meter of one
frame. A limit of zero means none. A meter whose consumption has passed its limit is exhausted and stays so under
every further charge; only a new limit lifts it. -/
namespace CallBoundary

abbrev Gas := UInt64

namespace Gas

def greatest : Nat := 0xffffffffffffffff

def clamp (n : Nat) : Gas := UInt64.ofNat (min n greatest)

def plus (a b : Gas) : Gas := clamp (a.toNat + b.toNat)

def times (rate : Gas) (count : Nat) : Gas := clamp (rate.toNat * count)

def less (a b : Gas) : Gas := clamp (a.toNat - b.toNat)

theorem clampToNat (n : Nat) : (clamp n).toNat = min n greatest := by
  have small : min n greatest < 2 ^ 64 :=
    Nat.lt_of_le_of_lt (Nat.min_le_right _ _) (by decide)
  simp only [clamp, UInt64.toNat_ofNat']
  exact Nat.mod_eq_of_lt small

theorem toNatLe (g : Gas) : g.toNat ≤ greatest := by
  have := g.toNat_lt
  simp only [greatest]
  omega

theorem plusToNat (a b : Gas) : (plus a b).toNat = min (a.toNat + b.toNat) greatest := clampToNat _

theorem timesToNat (rate : Gas) (count : Nat) :
    (times rate count).toNat = min (rate.toNat * count) greatest := clampToNat _

theorem lessToNat (a b : Gas) : (less a b).toNat = a.toNat - b.toNat := by
  have := toNatLe a
  rw [less, clampToNat]
  omega

end Gas

structure Meter where
  limit : Gas
  consumed : Gas
  deriving DecidableEq, Repr

namespace Meter

def ofLimit (limit : Gas) : Meter := ⟨limit, 0⟩

def unlimited : Meter := ofLimit 0

def exhausted (m : Meter) : Bool := 0 < m.limit && m.limit < m.consumed

def remaining? (m : Meter) : Option Gas :=
  if m.limit = 0 then none else some (Gas.less m.limit m.consumed)

def consume (m : Meter) (gas : Gas) : Meter := { m with consumed := Gas.plus m.consumed gas }

def consumeAll (m : Meter) : List Gas → Meter
  | [] => m
  | gas :: rest =>
    let charged := m.consume gas
    if charged.exhausted then charged else charged.consumeAll rest

def withLimit (m : Meter) (limit : Gas) : Meter := { m with limit := limit }

theorem consumeAllSingle (m : Meter) (gas : Gas) : m.consumeAll [gas] = m.consume gas := by
  simp [consumeAll]

theorem consumeAllLimit (m : Meter) (charges : List Gas) : (m.consumeAll charges).limit = m.limit := by
  induction charges generalizing m with
  | nil => rfl
  | cons gas rest ih =>
    simp only [consumeAll]
    split
    · rfl
    · rw [ih]; rfl

end Meter

end CallBoundary
