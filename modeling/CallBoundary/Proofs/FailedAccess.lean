import CallBoundary.Proofs.Access
import CallBoundary.Proofs.Nesting
import CallBoundary.Proofs.Transfers
/-! Accesses that fail. Over overlays each of them leaves the whole chain as it was, with one
exception: a transfer to another contract that is charged and covered, but more than the receiver
can hold, fails and leaves the payer without the amount. -/
namespace CallBoundary

def Access.faultOf {α : Type} : Except Fault α → Option Fault
  | .ok _ => none
  | .error fault => some fault

theorem Access.faultOfSome {α : Type} {answer : Except Fault α} {fault : Fault} (some : faultOf answer = some fault) :
    answer = .error fault := by
  cases answer with
  | ok value => cases some
  | error other =>
    cases some
    rfl

def Access.fault? : (a : Access) → a.Answer → Option Fault
  | .query _, answer | .update _, answer | .derive _ _ _, answer | .commit, answer => faultOf answer
  | .release, _ | .codeAt _, _ | .codeHashAt _, _ | .register _, _ | .clear, _ | .askDebug, _ | .takeMeter _, _ => none

namespace Overlay

-- The amount of a transfer leaves its payer and does not arrive.
structure HalfPaid (o : Overlay) (m : Meter) (recipient : Address) (amount : Amount) : Prop where
  charged : (m.consume o.own.tariff.transfer).exhausted = false
  covered : amount.value ≤ (o.view.balance o.contract).value
  other : recipient ≠ o.contract
  overflows : Amount.limit ≤ (o.view.balance recipient).value + amount.value

variable {o : Overlay} {m : Meter} {recipient : Address} {amount : Amount} {fault : Fault}

theorem paidOutDiffers {payer : Address} (covered : amount.value ≤ (o.view.balance payer).value)
    (positive : 0 < amount.value) : o.paidOut payer amount ≠ o := by
  intro same
  have balance := congrArg (fun x : Overlay => (x.view.balance payer).value) same
  simp only [paidOut, setBalanceView, if_pos, Amount.less] at balance
  omega

theorem halfPaidSend (h : o.HalfPaid m recipient amount) :
    o.update m (.send recipient amount) =
      (.error (overflow recipient), m.consume o.own.tariff.transfer, o.paidOut o.contract amount) := by
  have overflows : ¬ o.held o.contract recipient amount < Amount.limit := by
    rw [heldByOther h.other]
    exact Nat.not_lt.mpr h.overflows
  simp only [update, updateFault?, updateCharge, h.charged, apply, transferOverflows h.covered overflows]
  rfl

theorem halfPaidDiffers (h : o.HalfPaid m recipient amount) : o.paidOut o.contract amount ≠ o := by
  have bound := (o.view.balance recipient).bound
  have overflows := h.overflows
  exact paidOutDiffers h.covered (by omega)

theorem settleFailed {attempt : Except Fault Overlay} (failed : (o.settle attempt).1 = .error fault) :
    (o.settle attempt).2 = o := by
  cases attempt with
  | error other => rfl
  | ok after => cases failed

theorem sendFailed (failed : (o.transfer o.contract recipient amount).1 = .error fault) :
    (o.transfer o.contract recipient amount).2 = o ∨
      amount.value ≤ (o.view.balance o.contract).value ∧ recipient ≠ o.contract ∧
        Amount.limit ≤ (o.view.balance recipient).value + amount.value := by
  by_cases covered : amount.value ≤ (o.view.balance o.contract).value
  · by_cases fits : o.held o.contract recipient amount < Amount.limit
    · rw [transferFits covered fits] at failed
      cases failed
    · have other : recipient ≠ o.contract := by
        rintro rfl
        rw [heldBySelf covered] at fits
        exact fits (o.view.balance o.contract).bound
      rw [heldByOther other] at fits
      exact .inr ⟨covered, other, Nat.not_lt.mp fits⟩
  · rw [transferUncovered covered]
    exact .inl rfl

theorem applyFailed {u : Update} (failed : (o.apply u).1 = .error fault) :
    (o.apply u).2 = o ∨ ∃ recipient amount, u = .send recipient amount ∧
      amount.value ≤ (o.view.balance o.contract).value ∧ recipient ≠ o.contract ∧
        Amount.limit ≤ (o.view.balance recipient).value + amount.value := by
  cases u with
  | setStorage key value => cases failed
  | removeStorage key => cases failed
  | send recipient amount =>
    rcases sendFailed failed with same | half
    · exact .inl same
    · exact .inr ⟨recipient, amount, rfl, half⟩
  | subBalance amount => exact .inl (settleFailed failed)
  | addBalance address amount => exact .inl (settleFailed failed)
  | emit name args => cases failed

theorem updateFailed {u : Update} (failed : (o.update m u).1 = .error fault) :
    (o.update m u).2.2 = o ∨ ∃ recipient amount, u = .send recipient amount ∧ o.HalfPaid m recipient amount := by
  simp only [update] at failed ⊢
  cases early : updateFault? u with
  | some fault => exact .inl rfl
  | none =>
    cases charged : (m.consume (o.updateCharge u)).exhausted with
    | true => exact .inl rfl
    | false =>
      simp only [early, charged, Bool.false_eq_true, if_false] at failed ⊢
      rcases applyFailed failed with same | ⟨recipient, amount, rfl, covered, other, overflows⟩
      · exact .inl same
      · exact .inr ⟨recipient, amount, rfl, charged, covered, other, overflows⟩

end Overlay

def Access.HalfPaid (o : Overlay) (m : Meter) : Access → Prop
  | .update (.send recipient amount) => o.HalfPaid m recipient amount
  | _ => False

namespace Overlay

variable {o : Overlay} {m : Meter} {fault : Fault}

theorem updateKeepsUnlessHalfPaid {u : Update}
    (failed : Access.fault? (.update u) (Access.perform o m (.update u)).1 = some fault) :
    (Access.perform o m (.update u)).2.2 = o ↔ ¬ Access.HalfPaid o m (.update u) := by
  have error : (o.update m u).1 = .error fault := Access.faultOfSome failed
  constructor
  · intro same half
    cases u with
    | send recipient amount =>
      have sent : o.paidOut o.contract amount = o := by
        have after := congrArg (fun r => r.2.2) (halfPaidSend half)
        exact after.symm.trans same
      exact halfPaidDiffers half sent
    | setStorage _ _ | removeStorage _ | subBalance _ | addBalance _ _ | emit _ _ => exact half
  · intro whole
    rcases updateFailed error with same | ⟨recipient, amount, rfl, half⟩
    · exact same
    · exact (whole half).elim

theorem deriveFailed {contract : Address} {amount : Amount} {deployment : Bool}
    (failed : Access.fault? (.derive contract amount deployment)
      (Access.perform o m (.derive contract amount deployment)).1 = some fault) :
    (Access.perform o m (.derive contract amount deployment)).2.2 = o := by
  have error : (o.derive contract amount deployment).1 = .error fault := Access.faultOfSome failed
  exact deriveRefused (Prod.ext error rfl)

end Overlay

/-- An access that fails leaves the chain of environments exactly as it was, unless it is a transfer
whose amount does not arrive; that one always fails, and all it has done is to take the amount from
the payer. -/
theorem Overlay.failedAccessKeepsUnlessHalfPaid (o : Overlay) (m : Meter) (a : Access) :
    let answer := (a.perform o m).1
    let after := (a.perform o m).2.2
    (∀ fault, a.fault? answer = some fault → (after = o ↔ ¬ a.HalfPaid o m)) ∧
      (∀ recipient amount, a = .update (.send recipient amount) → o.HalfPaid m recipient amount →
        a.fault? answer = some (Overlay.overflow recipient) ∧ after = o.paidOut o.contract amount ∧ after ≠ o) := by
  intro answer after
  refine ⟨?_, ?_⟩
  · intro fault failed
    cases a with
    | query q => exact iff_of_true rfl id
    | update u => exact Overlay.updateKeepsUnlessHalfPaid failed
    | derive contract amount deployment => exact iff_of_true (Overlay.deriveFailed failed) id
    | commit => cases failed
    | release => cases failed
    | codeAt address => cases failed
    | codeHashAt address => cases failed
    | register code => cases failed
    | clear => cases failed
    | askDebug => cases failed
    | takeMeter other => cases failed
  · rintro recipient amount rfl half
    have sent := Overlay.halfPaidSend half
    have left : after = o.paidOut o.contract amount := congrArg (fun r => r.2.2) sent
    have error : (o.update m (.send recipient amount)).1 = .error (Overlay.overflow recipient) :=
      congrArg Prod.fst sent
    exact ⟨congrArg Access.faultOf error, left, left ▸ Overlay.halfPaidDiffers half⟩

namespace Overlay

def spender : Address := FixedBytes.zero

def hoarder : Address := FixedBytes.last 20 [1]

def brimming : Overlay :=
  root Settings.standard ⟨spender, spender, spender, Amount.zero⟩
    { balances :=
        ((∅ : Std.ExtTreeMap Address Amount).insert spender ⟨100, by decide⟩).insert hoarder
          ⟨Amount.limit - 1, by decide⟩ }

def oneTooMany : Access := .update (.send hoarder ⟨1, by decide⟩)

theorem oneTooManyIsLost :
    let answer := (oneTooMany.perform brimming Meter.unlimited).1
    let after := (oneTooMany.perform brimming Meter.unlimited).2.2
    oneTooMany.fault? answer = some (overflow hoarder) ∧ after ≠ brimming ∧
      (brimming.view.balance spender).value = 100 ∧ (after.view.balance spender).value = 99 ∧
        after.view.balance hoarder = brimming.view.balance hoarder := by
  have before : (brimming.view.balance spender).value = 100 := by decide +kernel
  have lowered : ((oneTooMany.perform brimming Meter.unlimited).2.2.view.balance spender).value = 99 := by
    decide +kernel
  refine ⟨rfl, ?_, before, lowered, by decide +kernel⟩
  intro same
  rw [same, before] at lowered
  cases lowered

end Overlay
end CallBoundary
