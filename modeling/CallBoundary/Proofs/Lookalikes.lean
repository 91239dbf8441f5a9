import CallBoundary.Proofs.Settlement
import CallBoundary.Proofs.Transfers
/-! Environments that look alike. Two of them may stand on different chains and hold back different writes; as long as
what can be read of them is the same, whatever is asked of them has the same answer and the same price, and whatever
is done to them comes to the same writes in both, which leaves them alike. How far they are alike is a matter of
the cells that are read, and of whether a frame ever asks for its standing: who is calling it, and how deep. -/
namespace CallBoundary

-- Of the cells the query reads only those, and it asks for a caller only where standing is allowed for.
def Query.Within (cells : Cell → Prop) (standing : Prop) (own : Address) : Query → Prop
  | storage key => cells ⟨own, key⟩
  | storageOf contract key => cells ⟨contract, key⟩
  | caller | originalCaller => standing
  | _ => True

namespace Overlay

structure Alike (cells : Cell → Prop) (standing : Prop) (o also : Overlay) : Prop where
  contract : also.contract = o.contract
  payAmount : also.own.context.payAmount = o.own.context.payAmount
  tariff : also.own.tariff = o.own.tariff
  debug : also.own.debug = o.own.debug
  identities : also.store.identities = o.store.identities
  chain : also.store.chain = o.store.chain
  storage : ∀ cell, cells cell → also.view.storage cell = o.view.storage cell
  balance : also.view.balance = o.view.balance
  code : also.view.code = o.view.code
  caller : standing → also.own.context.caller = o.own.context.caller
  originalCaller : standing → also.own.context.originalCaller = o.own.context.originalCaller

theorem alikeRefl (cells : Cell → Prop) (standing : Prop) (o : Overlay) : o.Alike cells standing o :=
  ⟨rfl, rfl, rfl, rfl, rfl, rfl, fun _ _ => rfl, rfl, rfl, fun _ => rfl, fun _ => rfl⟩

/-! What an environment holds back, as writes it has taken up. -/

theorem writeAbsorbs (o : Overlay) {f : Changes → Changes} {w : Changes} (same : ∀ c, f c = c.merge w) :
    o.write f = o.absorb w := by
  simp only [absorb, write, same]

theorem absorbAbsorb (o : Overlay) (w later : Changes) : (o.absorb w).absorb later = o.absorb (w.merge later) := by
  simp only [absorb, write, Changes.mergeAssoc]

theorem absorbEmpty (o : Overlay) : o.absorb Changes.empty = o := by
  simp only [absorb, write, Changes.mergeEmpty]

theorem absorbEvents (o : Overlay) (w : Changes) : (o.absorb w).events = o.events ++ w.events := by
  simp only [events, eventsThrough, absorb, write, Changes.merge, List.append_assoc]

variable {cells : Cell → Prop} {standing : Prop} {o also : Overlay}

theorem absorbAlike (alike : o.Alike cells standing also) (w : Changes) :
    (o.absorb w).Alike cells standing (also.absorb w) := by
  refine { alike with storage := ?_, balance := ?_, code := ?_ }
  · intro cell read
    simp only [absorbView, Changes.onto, alike.storage cell read]
  · simp only [absorbView, Changes.onto, alike.balance]
  · simp only [absorbView, Changes.onto, alike.code]

theorem queryAlike (alike : o.Alike cells standing also) (m : Meter) {q : Query}
    (within : q.Within cells standing o.contract) : also.query m q = o.query m q := by
  have value {contract : Address} {key : Bytes} (read : cells ⟨contract, key⟩) :
      also.valueAt contract key = o.valueAt contract key := congrArg (Option.filter (· ≠ [])) (alike.storage _ read)
  have charges : also.queryCharges q = o.queryCharges q := by
    cases q with
    | storage key => simp only [queryCharges, alike.tariff, alike.contract, value within]
    | storageOf contract key => simp only [queryCharges, alike.tariff, value within]
    | _ => simp only [queryCharges, alike.tariff, alike.contract, alike.code]
  have answers : also.answer q = o.answer q := by
    cases q with
    | storage key => simp only [answer, alike.contract, value within]
    | storageOf contract key => simp only [answer, value within]
    | caller => exact alike.caller within
    | originalCaller => exact alike.originalCaller within
    | _ => simp only [answer, alike.contract, alike.payAmount, alike.identities, alike.chain, alike.balance, alike.code]
  unfold query
  rw [charges, answers]

structure BothTook (w : Changes) (o also after twin : Overlay) : Prop where
  first : after = o.absorb w
  second : twin = also.absorb w

theorem bothTookNothing (o also : Overlay) : BothTook Changes.empty o also o also :=
  ⟨o.absorbEmpty.symm, also.absorbEmpty.symm⟩

theorem bothTookThen {w later : Changes} {middle between after twin : Overlay} (earlier : BothTook w o also middle between)
    (next : BothTook later middle between after twin) : BothTook (w.merge later) o also after twin := by
  obtain ⟨rfl, rfl⟩ := earlier
  obtain ⟨rfl, rfl⟩ := next
  exact ⟨o.absorbAbsorb w later, also.absorbAbsorb w later⟩

theorem bothTookAlike {w : Changes} {after twin : Overlay} (alike : o.Alike cells standing also)
    (took : BothTook w o also after twin) : after.Alike cells standing twin := by
  obtain ⟨rfl, rfl⟩ := took
  exact absorbAlike alike w

theorem bothWrote (o also : Overlay) {f : Changes → Changes} {w : Changes} (same : ∀ c, f c = c.merge w) :
    BothTook w o also (o.write f) (also.write f) := ⟨o.writeAbsorbs same, also.writeAbsorbs same⟩

/-! Balances, of which the new ones depend on the old. -/

theorem setBalanceBoth (o also : Overlay) (address : Address) (amount : Amount) :
    BothTook (Changes.empty.setBalance address amount) o also (o.setBalance address amount)
      (also.setBalance address amount) :=
  bothWrote o also fun c => c.setBalanceMerge address amount

theorem paidOutBoth (alike : o.Alike cells standing also) (payer : Address) (amount : Amount) :
    ∃ w, BothTook w o also (o.paidOut payer amount) (also.paidOut payer amount) := by
  rw [paidOut, paidOut, alike.balance]
  exact ⟨_, setBalanceBoth o also payer _⟩

theorem transferBoth (alike : o.Alike cells standing also) (payer payee : Address) (amount : Amount) :
    (also.transfer payer payee amount).1 = (o.transfer payer payee amount).1 ∧
      ∃ w, BothTook w o also (o.transfer payer payee amount).2 (also.transfer payer payee amount).2 := by
  obtain ⟨w, paid⟩ := paidOutBoth alike payer amount
  have held : also.held payer payee amount = o.held payer payee amount := by
    rw [Overlay.held, Overlay.held, (bothTookAlike alike paid).balance]
  by_cases covered : amount.value ≤ (o.view.balance payer).value
  · have alsoCovered : amount.value ≤ (also.view.balance payer).value := alike.balance ▸ covered
    by_cases fits : o.held payer payee amount < Amount.limit
    · rw [transferFits covered fits, transferFits alsoCovered (held ▸ fits)]
      simp only [held]
      exact ⟨trivial, _, bothTookThen paid (setBalanceBoth _ _ payee _)⟩
    · rw [transferOverflows covered fits, transferOverflows alsoCovered (held ▸ fits)]
      exact ⟨rfl, w, paid⟩
  · have alsoUncovered : ¬ amount.value ≤ (also.view.balance payer).value := alike.balance ▸ covered
    rw [transferUncovered covered, transferUncovered alsoUncovered]
    exact ⟨rfl, _, bothTookNothing o also⟩

theorem debitBoth (alike : o.Alike cells standing also) (address : Address) (amount : Amount) :
    (also.settle (also.debit address amount)).1 = (o.settle (o.debit address amount)).1 ∧
      ∃ w, BothTook w o also (o.settle (o.debit address amount)).2 (also.settle (also.debit address amount)).2 := by
  simp only [debit, alike.balance]
  cases (o.view.balance address).sub? amount with
  | none => exact ⟨rfl, _, bothTookNothing o also⟩
  | some rest => exact ⟨rfl, _, setBalanceBoth o also address rest⟩

theorem creditBoth (alike : o.Alike cells standing also) (address : Address) (amount : Amount) :
    (also.settle (also.credit address amount)).1 = (o.settle (o.credit address amount)).1 ∧
      ∃ w, BothTook w o also (o.settle (o.credit address amount)).2 (also.settle (also.credit address amount)).2 := by
  simp only [credit, alike.balance]
  cases (o.view.balance address).add? amount with
  | none => exact ⟨rfl, _, bothTookNothing o also⟩
  | some total => exact ⟨rfl, _, setBalanceBoth o also address total⟩

theorem applyBoth (alike : o.Alike cells standing also) (u : Update) :
    (also.apply u).1 = (o.apply u).1 ∧ ∃ w, BothTook w o also (o.apply u).2 (also.apply u).2 := by
  cases u with
  | setStorage key value =>
    simp only [apply, alike.contract]
    exact ⟨trivial, _, bothWrote o also fun c => c.setStorageMerge ⟨o.contract, key⟩ (some value)⟩
  | removeStorage key =>
    simp only [apply, alike.contract]
    exact ⟨trivial, _, bothWrote o also fun c => c.setStorageMerge ⟨o.contract, key⟩ none⟩
  | send recipient amount =>
    simp only [apply, alike.contract]
    exact transferBoth alike o.contract recipient amount
  | subBalance amount =>
    simp only [apply, alike.contract]
    exact debitBoth alike o.contract amount
  | addBalance address amount => exact creditBoth alike address amount
  | emit name args =>
    simp only [apply, alike.contract]
    exact ⟨trivial, _, bothWrote o also fun c => c.emitMerge ⟨o.contract, name, args⟩⟩

theorem updateBoth (alike : o.Alike cells standing also) (m : Meter) (u : Update) :
    (also.update m u).1 = (o.update m u).1 ∧ (also.update m u).2.1 = (o.update m u).2.1 ∧
      ∃ w, BothTook w o also (o.update m u).2.2 (also.update m u).2.2 := by
  have charge : also.updateCharge u = o.updateCharge u := by cases u <;> simp only [updateCharge, alike.tariff]
  simp only [update, charge]
  cases updateFault? u with
  | some fault => exact ⟨rfl, rfl, _, bothTookNothing o also⟩
  | none =>
    obtain ⟨answers, took⟩ := applyBoth alike u
    cases (m.consume (o.updateCharge u)).exhausted with
    | true => exact ⟨rfl, rfl, _, bothTookNothing o also⟩
    | false => exact ⟨answers, rfl, took⟩

/-! Opening environments in environments that are alike, and closing them. -/

def child (o : Overlay) (contract : Address) (amount : Amount) : Overlay :=
  o.nest (o.childContext contract amount) o.own.tariff o.own.debug

theorem childAlike (alike : o.Alike cells standing also) (contract : Address) (amount : Amount) :
    (o.child contract amount).Alike cells standing (also.child contract amount) where
  contract := rfl
  payAmount := rfl
  tariff := alike.tariff
  debug := alike.debug
  identities := alike.identities
  chain := alike.chain
  storage := by
    intro cell read
    rw [child, child, nestView, nestView]
    exact alike.storage cell read
  balance := by rw [child, child, nestView, nestView, alike.balance]
  code := by rw [child, child, nestView, nestView, alike.code]
  caller _ := alike.contract
  originalCaller := alike.originalCaller

theorem childHolds (o : Overlay) (contract : Address) (amount : Amount) (w : Changes) :
    ((o.child contract amount).absorb w).own.changes = w := w.emptyMerge

theorem deriveBoth (alike : o.Alike cells standing also) (contract : Address) (amount : Amount) (deployment : Bool) :
    (∃ fault, o.derive contract amount deployment = (.error fault, o) ∧
        also.derive contract amount deployment = (.error fault, also)) ∨
      ∃ w fresh twin, o.derive contract amount deployment = (.ok (), fresh) ∧
        also.derive contract amount deployment = (.ok (), twin) ∧
        BothTook w (o.child contract amount) (also.child contract amount) fresh twin := by
  obtain ⟨answers, w, took⟩ := transferBoth (childAlike alike contract amount) o.contract contract amount
  have opening : o.nest (o.childContext contract amount) o.own.tariff o.own.debug = o.child contract amount := rfl
  have alsoOpening : also.nest (also.childContext contract amount) also.own.tariff also.own.debug =
    also.child contract amount := rfl
  simp only [derive, opening, alsoOpening, alike.code, alike.contract]
  split
  · exact .inl ⟨_, rfl, rfl⟩
  · split
    · exact .inr ⟨_, _, _, rfl, rfl, bothTookNothing _ _⟩
    · cases moved : (o.child contract amount).transfer o.contract contract amount with
      | mk moves paid =>
        cases alsoMoved : (also.child contract amount).transfer o.contract contract amount with
        | mk alsoMoves alsoPaid =>
          rw [moved, alsoMoved] at answers took
          obtain rfl : alsoMoves = moves := answers
          cases alsoMoves with
          | error fault => exact .inl ⟨fault, rfl, rfl⟩
          | ok _ => exact .inr ⟨w, paid, alsoPaid, rfl, rfl, took⟩

theorem registerBoth (alike : o.Alike cells standing also) (code : Bytes) :
    ∃ w, BothTook w o also (Host.register o code) (Host.register also code) := by
  simp only [Host.register, alike.contract]
  exact ⟨_, bothWrote o also fun c => c.setCodeMerge o.contract code⟩

theorem openedBoth (alike : o.Alike cells standing also) (amount : Amount) (a : Activation) :
    (∃ fault, Host.derive o a.contract amount (a.entry = .constructor) = (.error fault, o) ∧
        Host.derive also a.contract amount (a.entry = .constructor) = (.error fault, also)) ∨
      ∃ w child twin, a.opened? o amount = some child ∧ a.opened? also amount = some twin ∧
        BothTook w (o.child a.contract amount) (also.child a.contract amount) child twin := by
  refine (deriveBoth alike a.contract amount (a.entry = .constructor)).imp_right ?_
  rintro ⟨w, fresh, twin, derived, alsoDerived, took⟩
  have opened : a.opened? o amount = some (if a.entry = .constructor then Host.register fresh a.code else fresh) := by
    simp only [Activation.opened?, Host.derive, derived]
  have alsoOpened : a.opened? also amount = some (if a.entry = .constructor then Host.register twin a.code else twin) := by
    simp only [Activation.opened?, Host.derive, alsoDerived]
  rw [opened, alsoOpened]
  split
  · obtain ⟨code, both⟩ := registerBoth (bothTookAlike (childAlike alike a.contract amount) took) a.code
    exact ⟨_, _, _, rfl, rfl, bothTookThen took both⟩
  · exact ⟨w, fresh, twin, rfl, rfl, took⟩

end Overlay
end CallBoundary
