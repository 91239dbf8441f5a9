import CallBoundary.Proofs.Exhaustion
import Mathlib
/-! Gas by exact numbers. A cost of data is what a base and a rate for every unit of its size come to, or the largest
count where that is above it; so no cost wraps, and none falls when the data grows or the tariff gets dearer. What a
meter has consumed is the exact sum of the charges as long as a count can hold it, and the largest count from there
on. So a charge is refused exactly where the sum passes the limit, unless the limit is the largest count: no count
passes that one, and a meter with this limit never runs out, whatever is charged. -/
namespace CallBoundary

namespace Gas

theorem zeroPlus (g : Gas) : plus 0 g = g := by
  have bound := toNatLe g
  apply UInt64.toNat_inj.mp
  rw [plusToNat, UInt64.toNat_zero, Nat.zero_add, Nat.min_eq_left bound]

theorem plusTimesToNat (base rate : Gas) (units : Nat) :
    (plus base (times rate units)).toNat = min (base.toNat + rate.toNat * units) greatest := by
  rw [plusToNat, timesToNat]
  generalize rate.toNat * units = product
  omega

end Gas

namespace Tariff

structure Linear {Size : Type} [LE Size] (cost : Tariff → Size → Gas) (base rate : Tariff → Gas) (units : Size → Nat) :
    Prop where
  stops : ∀ t size, (cost t size).toNat = min ((base t).toNat + (rate t).toNat * units size) Gas.greatest
  monotone : ∀ t dearer size larger, base t ≤ base dearer → rate t ≤ rate dearer → size ≤ larger →
    cost t size ≤ cost dearer larger

theorem linearOfParts {Size : Type} [LE Size] {cost : Tariff → Size → Gas} {base rate : Tariff → Gas} {units : Size → Nat}
    (parts : ∀ t size, cost t size = Gas.plus (base t) (Gas.times (rate t) (units size)))
    (more : ∀ size larger, size ≤ larger → units size ≤ units larger) : Linear cost base rate units := by
  have stops : ∀ t size, (cost t size).toNat = min ((base t).toNat + (rate t).toNat * units size) Gas.greatest := by
    intro t size
    rw [parts, Gas.plusTimesToNat]
  refine ⟨stops, ?_⟩
  intro t dearer size larger bases rates sizes
  have products : (rate t).toNat * units size ≤ (rate dearer).toNat * units larger :=
    Nat.mul_le_mul (UInt64.le_iff_toNat_le.mp rates) (more size larger sizes)
  have sums := Nat.add_le_add (UInt64.le_iff_toNat_le.mp bases) products
  rw [UInt64.le_iff_toNat_le, stops, stops]
  exact min_le_min_right Gas.greatest sums

/-- What each kind of data costs: a key with its value by the bytes of both, code and an event by the byte behind a base,
and what is hashed by the words of 32 bytes it takes up, the last one whole. -/
theorem costsStopAtGreatest :
    Linear (fun t (written : Nat × Nat) => t.writeCost written.1 written.2) (fun _ => 0) writeByte
        (fun written => written.1 + written.2) ∧
      Linear readCost (fun _ => 0) readByte id ∧
      Linear codeCost codeRead codeByte id ∧
      Linear eventCost event eventByte id ∧
      Linear hashCost hash hashWord (· ⌈/⌉ 32) := by
  have same : ∀ size larger : Nat, size ≤ larger → id size ≤ id larger := fun _ _ le => le
  refine ⟨linearOfParts ?_ ?_, linearOfParts ?_ same, linearOfParts ?_ same, linearOfParts ?_ same, linearOfParts ?_ ?_⟩
  · intro t written
    exact (Gas.zeroPlus _).symm
  · intro written larger le
    exact Nat.add_le_add le.1 le.2
  · intro t value
    exact (Gas.zeroPlus _).symm
  · intro t code
    rfl
  · intro t payload
    rfl
  · intro t data
    rw [Nat.ceilDiv_eq_add_pred_div]
    rfl
  · intro data larger le
    have within : larger ≤ 32 * (larger ⌈/⌉ 32) := (ceilDiv_le_iff_le_mul (by decide)).mp (Nat.le_refl _)
    exact (ceilDiv_le_iff_le_mul (by decide)).mpr (Nat.le_trans le within)

end Tariff

namespace Gas

def total (charges : List Gas) : Nat := (charges.map UInt64.toNat).sum

theorem totalCons (gas : Gas) (rest : List Gas) : total (gas :: rest) = gas.toNat + total rest := by
  simp only [total, List.map_cons, List.sum_cons]

theorem totalTakeLe (charges : List Gas) {k j : Nat} (before : k ≤ j) :
    total (charges.take k) ≤ total (charges.take j) := by
  simp only [total, List.map_take]
  exact List.monotone_sum_take _ before

end Gas

namespace Meter

def check (m : Meter) : Except Fault Unit := if m.exhausted then .error .outOfGas else .ok ()

def charging (m : Meter) : List Gas → List (Except Fault Unit × Meter)
  | [] => []
  | gas :: rest => ((m.consume gas).check, m.consume gas) :: (m.consume gas).charging rest

theorem checkRefuses {m : Meter} : m.check = .error .outOfGas ↔ m.exhausted = true := by
  unfold check
  split <;> simp_all

theorem checkPasses {m : Meter} : m.check = .ok () ↔ m.exhausted = false := by
  unfold check
  split <;> simp_all

theorem chargingLength (m : Meter) (charges : List Gas) : (m.charging charges).length = charges.length := by
  induction charges generalizing m with
  | nil => rfl
  | cons gas rest ih => simp only [charging, List.length_cons, ih]

-- The sum may stop at the largest count on the way: it stays there, as adding to it afterwards changes nothing.
theorem chargingAt {m after : Meter} {charges : List Gas} {k : Nat} {answer : Except Fault Unit}
    (position : (m.charging charges)[k]? = some (answer, after)) :
    answer = after.check ∧ after.limit = m.limit ∧
      after.consumed.toNat = min (m.consumed.toNat + Gas.total (charges.take (k + 1))) Gas.greatest := by
  induction charges generalizing m k with
  | nil => cases position
  | cons gas rest ih =>
    have head : (m.consume gas).consumed.toNat = min (m.consumed.toNat + gas.toNat) Gas.greatest := Gas.plusToNat _ _
    cases k with
    | zero =>
      cases position
      refine ⟨rfl, rfl, ?_⟩
      rw [head, List.take_succ_cons, List.take_zero, Gas.totalCons]
      rfl
    | succ k =>
      obtain ⟨answers, limit, consumed⟩ := ih position
      refine ⟨answers, limit, ?_⟩
      rw [consumed, head, List.take_succ_cons, Gas.totalCons]
      omega

theorem chargedPast {limit : Gas} {charges : List Gas} {k : Nat} {answer : Except Fault Unit} {after : Meter}
    (limited : limit ≠ 0) (position : ((ofLimit limit).charging charges)[k]? = some (answer, after)) :
    answer = .error .outOfGas ↔ limit.toNat < Gas.total (charges.take (k + 1)) ∧ limit.toNat ≠ Gas.greatest := by
  obtain ⟨rfl, kept, consumed⟩ := chargingAt position
  have positive : 0 < limit.toNat := Nat.pos_of_ne_zero fun zero => limited (UInt64.toNat_inj.mp zero)
  have bound := Gas.toNatLe limit
  have fresh : (ofLimit limit).consumed.toNat = 0 := rfl
  have limits : after.limit.toNat = limit.toNat := congrArg UInt64.toNat kept
  rw [checkRefuses, exhaustedToNat, limits, consumed, fresh]
  omega

/-- Of charges on a fresh meter each one has an answer. It is refused exactly where the exact sum up to it is above the
limit, the largest limit apart, under which nothing is refused. Up to the last one that is not refused the sum is
what the meter has consumed, and once one is refused all later ones and all checks are. -/
theorem chargesRefusedPastLimit (limit : Gas) (limited : limit ≠ 0) (charges : List Gas) (k : Nat)
    (issued : k < charges.length) :
    let sum := Gas.total (charges.take (k + 1))
    ∃ answer after, ((ofLimit limit).charging charges)[k]? = some (answer, after) ∧
      (answer = .error .outOfGas ↔ limit.toNat < sum ∧ limit.toNat ≠ Gas.greatest) ∧
      (answer = .ok () → limit.toNat ≠ Gas.greatest → after.consumed.toNat = sum) ∧
      (answer = .error .outOfGas → ∀ j later last, k ≤ j →
        ((ofLimit limit).charging charges)[j]? = some (later, last) →
          later = .error .outOfGas ∧ last.check = .error .outOfGas) ∧
      (limit.toNat = Gas.greatest → answer = .ok () ∧ after.consumed.toNat = min sum Gas.greatest) := by
  intro sum
  rw [← chargingLength (ofLimit limit)] at issued
  obtain ⟨⟨answer, after⟩, position⟩ : ∃ entry, ((ofLimit limit).charging charges)[k]? = some entry :=
    ⟨_, List.getElem?_eq_getElem issued⟩
  have past := chargedPast limited position
  obtain ⟨checked, -, consumed⟩ := chargingAt position
  have fresh : (ofLimit limit).consumed.toNat = 0 := rfl
  rw [fresh, Nat.zero_add] at consumed
  have unrefused : answer ≠ .error .outOfGas → answer = .ok () := by
    intro other
    rw [checked, checkPasses]
    rw [checked, Ne, checkRefuses] at other
    exact Bool.eq_false_iff.mpr other
  refine ⟨answer, after, position, past, ?_, ?_, ?_⟩
  · rintro rfl below
    have within : ¬ limit.toNat < sum := fun above => nomatch past.mpr ⟨above, below⟩
    have bound := Gas.toNatLe limit
    rw [consumed]
    omega
  · intro refused j later last behind reached
    obtain ⟨above, below⟩ := past.mp refused
    have grown := Gas.totalTakeLe charges (Nat.succ_le_succ behind)
    have also : later = .error .outOfGas := (chargedPast limited reached).mpr ⟨Nat.lt_of_lt_of_le above grown, below⟩
    exact ⟨also, (chargingAt reached).1 ▸ also⟩
  · intro greatest
    exact ⟨unrefused fun refused => (past.mp refused).2 greatest, consumed⟩

theorem thirdChargeRefused :
    let charged := (ofLimit 50).charging [40, 10, 1, 0]
    (50 : Gas) ≠ 0 ∧ charged[1]? = some (.ok (), ⟨50, 50⟩) ∧
      charged[2]? = some (.error .outOfGas, ⟨50, 51⟩) ∧ charged[3]? = some (.error .outOfGas, ⟨50, 51⟩) := by
  intro charged
  obtain ⟨answer, after, position, past, -, stays, -⟩ :=
    chargesRefusedPastLimit 50 (by decide) [40, 10, 1, 0] 2 (by decide)
  have passed : answer = .error .outOfGas := past.mpr (by decide)
  have fourth : charged[3]? = some ((⟨50, 51⟩ : Meter).check, ⟨50, 51⟩) := rfl
  have last := (stays passed 3 _ _ (by decide) fourth).1
  exact ⟨by decide, rfl, rfl, last ▸ fourth⟩

theorem greatestLimitIsNotPassed :
    let limit : Gas := 0xffffffffffffffff
    limit ≠ 0 ∧ limit.toNat < Gas.total [limit, 1] ∧
      ((ofLimit limit).charging [limit, 1])[1]? = some (.ok (), ⟨limit, limit⟩) ∧
      (⟨limit, limit⟩ : Meter).check = .ok () := by
  decide

end Meter

end CallBoundary
