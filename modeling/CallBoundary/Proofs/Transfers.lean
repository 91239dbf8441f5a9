import CallBoundary.Overlay
/-! What transfers come to. A payer that cannot cover the amount keeps everything. A covered amount
leaves the payer; it reaches the payee unless it is too much for it, and then the payer is out of it
all the same. A transfer to the payer itself always fits. -/
namespace CallBoundary

namespace Amount

theorem lessBound (a b : Amount) : a.value - b.value < limit := Nat.lt_of_le_of_lt (Nat.sub_le _ _) a.bound

def less (a b : Amount) : Amount := ⟨a.value - b.value, lessBound a b⟩

theorem subCovered {a b : Amount} (covered : b.value ≤ a.value) : a.sub? b = some (a.less b) := if_pos covered

theorem subUncovered {a b : Amount} (uncovered : ¬ b.value ≤ a.value) : a.sub? b = none := if_neg uncovered

theorem addFits {a b : Amount} (fits : a.value + b.value < limit) : a.add? b = some ⟨a.value + b.value, fits⟩ :=
  dif_pos fits

theorem addOverflows {a b : Amount} (overflows : ¬ a.value + b.value < limit) : a.add? b = none := dif_neg overflows

end Amount

namespace Overlay

variable (o : Overlay)

def setBalance (address : Address) (amount : Amount) : Overlay := o.write fun c => c.setBalance address amount

theorem setBalanceView (address : Address) (amount : Amount) :
    (o.setBalance address amount).view =
      { o.view with balance := fun a => if a = address then amount else o.view.balance a } := by
  apply View.ext
  · rfl
  · funext a
    simp only [view, viewThrough, Changes.onto, setBalance, write, Changes.setBalance,
      Std.ExtTreeMap.getElem?_insert, Std.LawfulEqCmp.compare_eq_iff_eq]
    by_cases same : address = a
    · rw [if_pos same, if_pos same.symm]
      rfl
    · rw [if_neg same, if_neg (Ne.symm same)]
  · rfl

def overflow (payee : Address) : Fault := .internal ("balance overflow for " ++ Address.checksummed payee)

def paidOut (payer : Address) (amount : Amount) : Overlay :=
  o.setBalance payer ((o.view.balance payer).less amount)

def held (payer payee : Address) (amount : Amount) : Nat :=
  ((o.paidOut payer amount).view.balance payee).value + amount.value

variable {o} {payer payee : Address} {amount : Amount}

theorem heldBySelf (covered : amount.value ≤ (o.view.balance payer).value) :
    o.held payer payer amount = (o.view.balance payer).value := by
  simp only [held, paidOut, setBalanceView, if_pos]
  exact Nat.sub_add_cancel covered

theorem heldByOther (other : payee ≠ payer) :
    o.held payer payee amount = (o.view.balance payee).value + amount.value := by
  simp only [held, paidOut, setBalanceView, if_neg other]

theorem debitCovered (covered : amount.value ≤ (o.view.balance payer).value) :
    o.debit payer amount = .ok (o.paidOut payer amount) := by
  simp only [debit, Amount.subCovered covered]
  rfl

theorem transferUncovered (uncovered : ¬ amount.value ≤ (o.view.balance payer).value) :
    o.transfer payer payee amount = (.error .insufficientBalance, o) := by
  simp only [transfer, debit, Amount.subUncovered uncovered]

theorem transferFits (covered : amount.value ≤ (o.view.balance payer).value)
    (fits : o.held payer payee amount < Amount.limit) :
    o.transfer payer payee amount =
      (.ok (), (o.paidOut payer amount).setBalance payee ⟨o.held payer payee amount, fits⟩) := by
  simp only [transfer, debitCovered covered, credit, Amount.addFits fits]
  rfl

theorem transferOverflows (covered : amount.value ≤ (o.view.balance payer).value)
    (overflows : ¬ o.held payer payee amount < Amount.limit) :
    o.transfer payer payee amount = (.error (overflow payee), o.paidOut payer amount) := by
  simp only [transfer, debitCovered covered, credit, Amount.addOverflows overflows]
  rfl

end Overlay
end CallBoundary
