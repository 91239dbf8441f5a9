import CallBoundary.Proofs.FailedAccess
import CallBoundary.Proofs.Settlement
import Mathlib
/-! The value there is in all: the sum of the balances that are seen, over all addresses. As long as
the sum fits into an amount, no balance can grow too large for one, and then a transfer leaves the sum
as it was; only paying in and paying out change it, by what is paid. -/
namespace CallBoundary

instance finiteByte : Finite UInt8 := Finite.of_injective UInt8.toFin fun _ _ => UInt8.toFin_inj.mp

instance finiteAddress : Finite Address :=
  have : Finite { raw : Bytes | raw.length = 20 } := (List.finite_length_eq UInt8 20).to_subtype
  Finite.of_injective (fun a => (⟨a.toList, a.lengthToList⟩ : { raw : Bytes | raw.length = 20 })) fun _ _ same =>
    FixedBytes.toListInj (congrArg Subtype.val same)

noncomputable instance fintypeAddress : Fintype Address := Fintype.ofFinite Address

namespace View

noncomputable def total (v : View) : Nat := ∑ address : Address, (v.balance address).value

variable {v w : View}

theorem totalOfBalances (same : v.balance = w.balance) : v.total = w.total := by rw [total, same, total]

theorem totalSplit (v : View) (address : Address) :
    v.total = (v.balance address).value + ∑ other ∈ Finset.univ.erase address, (v.balance other).value :=
  (Finset.add_sum_erase Finset.univ (fun a => (v.balance a).value) (Finset.mem_univ address)).symm

theorem totalOfOthers (address : Address) (same : ∀ other, other ≠ address → v.balance other = w.balance other) :
    v.total + (w.balance address).value = w.total + (v.balance address).value := by
  have others : ∑ other ∈ Finset.univ.erase address, (v.balance other).value =
      ∑ other ∈ Finset.univ.erase address, (w.balance other).value :=
    Finset.sum_congr rfl fun other member => by rw [same other (Finset.ne_of_mem_erase member)]
  rw [totalSplit v address, totalSplit w address, others]
  omega

theorem balanceLeTotal (v : View) (address : Address) : (v.balance address).value ≤ v.total := by
  rw [totalSplit v address]
  exact Nat.le_add_right _ _

theorem balancesLeTotal (v : View) {a b : Address} (other : b ≠ a) :
    (v.balance a).value + (v.balance b).value ≤ v.total := by
  rw [totalSplit v a]
  have member : b ∈ Finset.univ.erase a := Finset.mem_erase.mpr ⟨other, Finset.mem_univ b⟩
  exact Nat.add_le_add_left (Finset.single_le_sum (f := fun c => (v.balance c).value) (fun _ _ => Nat.zero_le _) member) _

end View

theorem Store.totalOfEntries (s : Store) :
    s.view.total = (s.balances.keys.map fun address => (s.view.balance address).value).sum := by
  have absent (address : Address) (none : address ∉ s.balances.keys.toFinset) : (s.view.balance address).value = 0 := by
    rw [List.mem_toFinset, Std.ExtTreeMap.mem_keys] at none
    simp only [view, Std.ExtTreeMap.getElem?_eq_none none]
    rfl
  rw [View.total, ← Finset.sum_subset (Finset.subset_univ s.balances.keys.toFinset) fun a _ none => absent a none]
  exact List.sum_toFinset _ s.balances.nodup_keys

namespace Overlay

variable {o : Overlay}

theorem setBalanceTotal (o : Overlay) (address : Address) (amount : Amount) :
    (o.setBalance address amount).view.total + (o.view.balance address).value = o.view.total + amount.value := by
  have split : (o.setBalance address amount).view.total + (o.view.balance address).value =
      o.view.total + ((o.setBalance address amount).view.balance address).value :=
    View.totalOfOthers address fun other different => by rw [setBalanceView]; exact if_neg different
  rw [split, setBalanceView]
  simp

theorem writeTotal (o : Overlay) (f : Changes → Changes) (kept : ∀ c, (f c).balances = c.balances) :
    (o.write f).view.total = o.view.total := by
  apply View.totalOfBalances
  funext address
  simp only [view, viewThrough, Changes.onto, write, kept]

theorem paidOutTotal {payer : Address} {amount : Amount} (covered : amount.value ≤ (o.view.balance payer).value) :
    (o.paidOut payer amount).view.total + amount.value = o.view.total := by
  have lowered := o.setBalanceTotal payer ((o.view.balance payer).less amount)
  simp only [Amount.less] at lowered
  simp only [paidOut, Amount.less]
  omega

theorem heldFits {payer payee : Address} {amount : Amount} (covered : amount.value ≤ (o.view.balance payer).value)
    (fits : o.view.total < Amount.limit) : o.held payer payee amount < Amount.limit := by
  -- Two different accounts share in the sum; one alone cannot hold more than an amount anyway.
  by_cases other : payee = payer
  · subst other
    rw [heldBySelf covered]
    exact (o.view.balance payee).bound
  · rw [heldByOther other]
    have both := o.view.balancesLeTotal other
    omega

end Overlay

namespace Update

def paidIn : Update → Nat
  | addBalance _ amount => amount.value
  | _ => 0

def paidOut : Update → Nat
  | subBalance amount => amount.value
  | _ => 0

end Update

namespace Overlay

variable {o : Overlay}

def NoOverflow (fault? : Option Fault) : Prop := ∀ address, fault? ≠ some (overflow address)

theorem noOverflowNone : NoOverflow none := fun _ same => by cases same

theorem noOverflowOutOfGas : NoOverflow (some .outOfGas) := fun _ same => by cases same

theorem noOverflowFailed (message : String) : NoOverflow (some (.failed message)) := fun _ same => by cases same

theorem noOverflowKey {key : Bytes} {fault : Fault} (refused : keyFault? key = some fault) : NoOverflow (some fault) := by
  rintro address ⟨⟩
  simp only [keyFault?] at refused
  split at refused
  · have texts := congrArg String.toList (Fault.internal.inj (Option.some.inj refused))
    simp only [String.toList_append] at texts
    exact absurd (List.cons.inj texts).1 (by decide)
  · cases refused

inductive Booked (o : Overlay) (paidIn paidOut : Nat) : Except Fault Unit → Overlay → Prop
  | done {after : Overlay} (booked : after.view.total + paidOut = o.view.total + paidIn) :
      Booked o paidIn paidOut (.ok ()) after
  | refused {after : Overlay} {fault : Fault} (kept : after.view.total = o.view.total)
      (reason : NoOverflow (some fault)) : Booked o paidIn paidOut (.error fault) after

theorem transferBooked (o : Overlay) (payer payee : Address) (amount : Amount) (fits : o.view.total < Amount.limit) :
    Booked o 0 0 (o.transfer payer payee amount).1 (o.transfer payer payee amount).2 := by
  by_cases covered : amount.value ≤ (o.view.balance payer).value
  · have room : o.held payer payee amount < Amount.limit := heldFits covered fits
    have lowered := paidOutTotal covered
    have raised := (o.paidOut payer amount).setBalanceTotal payee ⟨o.held payer payee amount, room⟩
    rw [transferFits covered room]
    refine .done ?_
    simp only [held] at raised ⊢
    omega
  · rw [transferUncovered covered]
    exact .refused rfl (noOverflowFailed _)

theorem debitBooked (o : Overlay) (address : Address) (amount : Amount) :
    Booked o 0 amount.value (o.settle (o.debit address amount)).1 (o.settle (o.debit address amount)).2 := by
  by_cases covered : amount.value ≤ (o.view.balance address).value
  · rw [debitCovered covered]
    exact .done (paidOutTotal covered)
  · simp only [debit, Amount.subUncovered covered]
    exact .refused rfl (noOverflowFailed _)

theorem creditBooked (o : Overlay) (address : Address) (amount : Amount)
    (fits : o.view.total + amount.value < Amount.limit) :
    Booked o amount.value 0 (o.settle (o.credit address amount)).1 (o.settle (o.credit address amount)).2 := by
  have below := o.view.balanceLeTotal address
  have room : (o.view.balance address).value + amount.value < Amount.limit := by omega
  have raised := o.setBalanceTotal address ⟨(o.view.balance address).value + amount.value, room⟩
  simp only [credit, Amount.addFits room]
  refine .done ?_
  simp only [setBalance] at raised
  simp only [settle]
  omega

theorem applyBooked (o : Overlay) (u : Update) (fits : o.view.total + u.paidIn < Amount.limit) :
    Booked o u.paidIn u.paidOut (o.apply u).1 (o.apply u).2 := by
  have written (f : Changes → Changes) (kept : ∀ c, (f c).balances = c.balances) : Booked o 0 0 (.ok ()) (o.write f) :=
    .done (by rw [writeTotal o f kept])
  cases u with
  | setStorage key value => exact written (fun c => c.setStorage ⟨o.contract, key⟩ (some value)) fun _ => rfl
  | removeStorage key => exact written (fun c => c.setStorage ⟨o.contract, key⟩ none) fun _ => rfl
  | send recipient amount => exact o.transferBooked o.contract recipient amount fits
  | subBalance amount => exact o.debitBooked o.contract amount
  | addBalance address amount => exact o.creditBooked address amount fits
  | emit name args => exact written (fun c => c.emit ⟨o.contract, name, args⟩) fun _ => rfl

theorem updateBooked (o : Overlay) (m : Meter) (u : Update) (fits : o.view.total + u.paidIn < Amount.limit) :
    Booked o u.paidIn u.paidOut (o.update m u).1 (o.update m u).2.2 := by
  simp only [update]
  cases early : updateFault? u with
  | some fault =>
    refine .refused rfl ?_
    cases u with
    | setStorage key value => exact noOverflowKey early
    | removeStorage key => exact noOverflowKey early
    | send _ _ | subBalance _ | addBalance _ _ | emit _ _ => cases early
  | none =>
    cases (m.consume (o.updateCharge u)).exhausted with
    | true => exact .refused rfl noOverflowOutOfGas
    | false => exact o.applyBooked u fits

theorem queryFault (o : Overlay) (m : Meter) (q : Query) : NoOverflow (Access.faultOf (o.query m q).1) := by
  simp only [query]
  cases early : queryFault? q with
  | some fault =>
    cases q with
    | storage key => exact noOverflowKey early
    | storageOf contract key => exact noOverflowKey early
    | _ => cases early
  | none =>
    cases charged : (m.consumeAll (o.queryCharges q)).exhausted with
    | true => exact noOverflowOutOfGas
    | false => exact noOverflowNone

/-! The environments of callees. -/

theorem deriveBooked (o : Overlay) (contract : Address) (amount : Amount) (deployment : Bool)
    (fits : o.view.total < Amount.limit) :
    Booked o 0 0 (o.derive contract amount deployment).1 (o.derive contract amount deployment).2 := by
  simp only [derive]
  split
  · exact .refused rfl (noOverflowFailed _)
  · have nested : (o.nest (o.childContext contract amount) o.own.tariff o.own.debug).view.total = o.view.total := by
      rw [nestView]
    split
    · exact .done (by rw [nested])
    · have moved := (o.nest (o.childContext contract amount) o.own.tariff o.own.debug).transferBooked o.contract contract
        amount (by rw [nested]; exact fits)
      split
      · rename_i paid transferred
        rw [transferred] at moved
        cases moved with
        | done booked => exact .done (by rw [booked, nested])
      · rename_i fault left transferred
        rw [transferred] at moved
        cases moved with
        | refused kept reason => exact .refused rfl reason

theorem openedTotal {activation : Activation} {amount : Amount} {child : Overlay} (fits : o.view.total < Amount.limit)
    (opened : activation.opened? o amount = some child) : child.view.total = o.view.total := by
  obtain ⟨fresh, derived, rfl⟩ := activation.openedFrom opened
  have booked := o.deriveBooked activation.contract amount (activation.entry = .constructor) fits
  have same : o.derive activation.contract amount (activation.entry = .constructor) = (.ok (), fresh) := derived
  rw [same] at booked
  cases booked with
  | done booked =>
    split
    · exact (writeTotal fresh _ fun _ => rfl).trans booked
    · exact booked

end Overlay
end CallBoundary
