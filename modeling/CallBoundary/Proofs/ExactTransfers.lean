import CallBoundary.Proofs.Settlement
import CallBoundary.Proofs.Transfers
/-! Transfers seen from outside, between any two addresses and through any chain of environments. Whether one succeeds is
told from the two balances that are seen before it; and where it does, those two are all that is seen to change. An
amount is sent and attached to a call in the same way, in the environment of the sender or in that of the callee. -/
namespace CallBoundary.Overlay

structure Payable (o : Overlay) (payer payee : Address) (amount : Amount) : Prop where
  covered : amount.value ≤ (o.view.balance payer).value
  fits : payee ≠ payer → (o.view.balance payee).value + amount.value < Amount.limit

structure Moved (before after : Overlay) (payer payee : Address) (amount : Amount) : Prop where
  lowered : payee ≠ payer → (after.view.balance payer).value + amount.value = (before.view.balance payer).value
  raised : payee ≠ payer → (after.view.balance payee).value = (before.view.balance payee).value + amount.value
  toItself : payee = payer → after.view.balance payer = before.view.balance payer
  others : ∀ address, address ≠ payer → address ≠ payee → after.view.balance address = before.view.balance address
  storage : after.view.storage = before.view.storage
  code : after.view.code = before.view.code
  events : after.events = before.events

variable {o : Overlay} {payer payee : Address} {amount : Amount}

theorem payableHeld (covered : amount.value ≤ (o.view.balance payer).value) :
    o.Payable payer payee amount ↔ o.held payer payee amount < Amount.limit := by
  by_cases other : payee = payer
  · subst other
    rw [heldBySelf covered]
    exact iff_of_true ⟨covered, fun other => (other rfl).elim⟩ (o.view.balance payee).bound
  · rw [heldByOther other]
    exact ⟨fun payable => payable.fits other, fun fits => ⟨covered, fun _ => fits⟩⟩

theorem setBalanceEvents (o : Overlay) (address : Address) (amount : Amount) :
    (o.setBalance address amount).events = o.events :=
  o.writeEvents (fun c => c.setBalance address amount) fun _ => rfl

theorem paidAndReceivedMoves (covered : amount.value ≤ (o.view.balance payer).value)
    (fits : o.held payer payee amount < Amount.limit) :
    Moved o ((o.paidOut payer amount).setBalance payee ⟨o.held payer payee amount, fits⟩) payer payee amount where
  lowered other := by
    simp only [setBalanceView, if_neg other.symm, paidOut, if_pos]
    exact Nat.sub_add_cancel covered
  raised other := by
    simp only [setBalanceView, if_pos]
    exact heldByOther other
  -- The credit reads the balance that the debit has left, and so restores it.
  toItself same := by
    subst same
    simp only [setBalanceView, if_pos]
    exact Amount.valueInj (heldBySelf covered)
  others address unpaid unpaying := by
    simp only [setBalanceView, paidOut, if_neg unpaid, if_neg unpaying]
  storage := by simp only [setBalanceView, paidOut]
  code := by simp only [setBalanceView, paidOut]
  events := by rw [setBalanceEvents, paidOut, setBalanceEvents]

structure Exact (o after : Overlay) (payer payee : Address) (amount : Amount) (answer : Except Fault Unit) : Prop where
  succeeds : answer = .ok () ↔ o.Payable payer payee amount
  moves : answer = .ok () → Moved o after payer payee amount

theorem failedExact {after : Overlay} {fault : Fault} (unpayable : ¬ o.Payable payer payee amount) :
    o.Exact after payer payee amount (.error fault) where
  succeeds := iff_of_false (fun arrived => by cases arrived) unpayable
  moves arrived := by cases arrived

theorem transferExact (o : Overlay) (payer payee : Address) (amount : Amount) :
    o.Exact (o.transfer payer payee amount).2 payer payee amount (o.transfer payer payee amount).1 := by
  by_cases covered : amount.value ≤ (o.view.balance payer).value
  · by_cases fits : o.held payer payee amount < Amount.limit
    · rw [transferFits covered fits]
      exact ⟨iff_of_true rfl ((payableHeld covered).mpr fits), fun _ => paidAndReceivedMoves covered fits⟩
    · rw [transferOverflows covered fits]
      exact failedExact fun payable => fits ((payableHeld covered).mp payable)
  · rw [transferUncovered covered]
    exact failedExact fun payable => covered payable.covered

theorem sendCharged {m : Meter} (charged : (m.consume o.own.tariff.transfer).exhausted = false) :
    o.update m (.send payee amount) =
      ((o.transfer o.contract payee amount).1, m.consume o.own.tariff.transfer,
        (o.transfer o.contract payee amount).2) := by
  simp only [update, updateFault?, updateCharge, charged, apply]
  rfl

/-! The environment for a call starts from what is seen around it, and the amount is moved in there. -/

theorem nestPayable (o : Overlay) (context : Context) (tariff : Tariff) (debug : Bool) :
    (o.nest context tariff debug).Payable payer payee amount ↔ o.Payable payer payee amount := by
  have view := o.nestView context tariff debug
  constructor
  · rintro ⟨covered, fits⟩
    rw [view] at covered fits
    exact ⟨covered, fits⟩
  · rintro ⟨covered, fits⟩
    rw [← view] at covered fits
    exact ⟨covered, fits⟩

theorem nestExact {context : Context} {tariff : Tariff} {debug : Bool} {after : Overlay} {answer : Except Fault Unit}
    (exact : (o.nest context tariff debug).Exact after payer payee amount answer) :
    o.Exact after payer payee amount answer where
  succeeds := exact.succeeds.trans (o.nestPayable context tariff debug)
  moves arrived := by
    obtain ⟨lowered, raised, toItself, others, storage, code, events⟩ := exact.moves arrived
    rw [nestView] at lowered raised toItself others storage code
    rw [nestEvents] at events
    exact ⟨lowered, raised, toItself, others, storage, code, events⟩

theorem deriveFree (o : Overlay) (contract : Address) (nothing : amount.value = 0) :
    o.derive contract amount false = (.ok (), o.nest (o.childContext contract amount) o.own.tariff o.own.debug) := by
  simp only [derive, Bool.false_and, Bool.false_eq_true, if_false, nothing, if_true]

theorem deriveExact (o : Overlay) (contract : Address) (something : 0 < amount.value) :
    o.Exact (o.derive contract amount false).2 o.contract contract amount (o.derive contract amount false).1 := by
  have exact := nestExact ((o.nest (o.childContext contract amount) o.own.tariff o.own.debug).transferExact o.contract
    contract amount)
  simp only [derive, Bool.false_and, Bool.false_eq_true, if_false, Nat.ne_of_gt something]
  split
  · rename_i moved
    rwa [moved] at exact
  · rename_i fault after failed
    rw [failed] at exact
    have unpayable : ¬ o.Payable o.contract contract amount := by
      intro payable
      cases exact.succeeds.mpr payable
    exact failedExact unpayable

/-- An amount that is sent, with the gas for it, or attached to a call, unless there is none to attach, arrives exactly where
the payer holds it and the payee has room for it. Then it has left the one and reached the other, and nothing else that
is seen has changed: for an attached amount, nothing else that is seen in the environment of the callee. Where
nothing is attached that environment opens whatever the balances are, and all that is seen in it is as it was around. -/
theorem transfersMoveExactly (o : Overlay) (m : Meter) (payee : Address) (amount : Amount)
    (charged : (m.consume o.own.tariff.transfer).exhausted = false) :
    let sent := o.update m (.send payee amount)
    let opened := o.derive payee amount false
    o.Exact sent.2.2 o.contract payee amount sent.1 ∧
      (0 < amount.value → o.Exact opened.2 o.contract payee amount opened.1) ∧
      (amount.value = 0 → opened.1 = .ok () ∧ opened.2.view = o.view ∧ opened.2.events = o.events) := by
  intro sent opened
  refine ⟨?_, o.deriveExact payee, ?_⟩
  · have made : sent = _ := sendCharged charged
    rw [made]
    exact o.transferExact o.contract payee amount
  · intro nothing
    have opens : opened = _ := o.deriveFree payee nothing
    rw [opens]
    exact ⟨rfl, nestView _ _ _ _, nestEvents _ _ _ _⟩

def savings : Overlay :=
  let saver : Context := ⟨FixedBytes.zero, FixedBytes.zero, FixedBytes.zero, Amount.zero⟩
  let held := (∅ : Std.ExtTreeMap Address Amount).insert FixedBytes.zero ⟨80, by decide⟩
  (root Settings.standard saver { balances := held }).stacked Settings.standard saver

def heir : Address := FixedBytes.last 20 [7]

theorem savingsMove :
    let share : Amount := ⟨35, by decide⟩
    let sent := savings.update Meter.unlimited (.send heir share)
    (Meter.unlimited.consume savings.own.tariff.transfer).exhausted = false ∧ sent.1 = .ok () ∧
      Moved savings sent.2.2 savings.contract heir share ∧ (sent.2.2.view.balance heir).value = 35 := by
  intro share sent
  have charged : (Meter.unlimited.consume savings.own.tariff.transfer).exhausted = false := by decide +kernel
  obtain ⟨exact, -, -⟩ := transfersMoveExactly savings Meter.unlimited heir share charged
  have arrived : sent.1 = .ok () := exact.succeeds.mpr ⟨by decide +kernel, fun _ => by decide +kernel⟩
  exact ⟨charged, arrived, exact.moves arrived, by decide +kernel⟩

end CallBoundary.Overlay
