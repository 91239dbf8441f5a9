import CallBoundary.Proofs.Counting
import CallBoundary.Proofs.ExactTransfers
import CallBoundary.Proofs.Metering
import CallBoundary.Proofs.Records
/-! The gas in the records of host actions: of sends, identity reads and reads of other contracts' data. What is recorded
is what the meter has risen by, with one exception. A send is charged before it is known whether the amount can be
moved; where it cannot, the charge stays and the record says that it was nothing. -/
namespace CallBoundary

def Operation.hostAction? : Operation → Option Attempt
  | .query q => Frame.attemptOfQuery q
  | .update u => Frame.attemptOfUpdate u
  | _ => none

namespace Attempt

def ofHost (a : Attempt) : Bool :=
  [Kind.transfer, .readContractData, .readIdentity].any fun kind => kind.code = a.kindCode

end Attempt

namespace Report

def ofHost (r : Report) : Bool := r.attempt.any Attempt.ofHost

def hostGas (reports : List Report) : Nat := ((reports.filter ofHost).map fun r => r.gasUsed.toNat).sum

theorem hostGasAppend (reports more : List Report) : hostGas (reports ++ more) = hostGas reports + hostGas more := by
  simp only [hostGas, List.filter_append, List.map_append, List.sum_append]

theorem hostGasSingle {r : Report} (host : r.ofHost = true) : hostGas [r] = r.gasUsed.toNat := by
  simp only [hostGas, List.filter_cons, host, if_true, List.filter_nil, List.map_cons, List.map_nil, List.sum_cons,
    List.sum_nil, Nat.add_zero]

theorem hostGasOther {r : Report} (other : r.ofHost = false) : hostGas [r] = 0 := by
  simp only [hostGas, List.filter_cons, other, Bool.false_eq_true, if_false, List.filter_nil, List.map_nil, List.sum_nil]

end Report

theorem Operation.hostActionKind {op : Operation} {attempt : Attempt} (acts : op.hostAction? = some attempt) :
    attempt.ofHost = true := by
  cases op with
  | query q =>
    cases q with
    | identity address | storageOf contract key =>
      cases acts
      rfl
    | _ => cases acts
  | update u =>
    cases u with
    | send payee amount =>
      cases acts
      rfl
    | _ => cases acts
  | ask _ | consumeGas _ | setGasLimit _ | commit | call _ | deploy _ => cases acts

instance Overlay.payableDecidable (o : Overlay) (payer payee : Address) (amount : Amount) :
    Decidable (o.Payable payer payee amount) :=
  decidable_of_iff (amount.value ≤ (o.view.balance payer).value ∧
      (payee ≠ payer → (o.view.balance payee).value + amount.value < Amount.limit))
    ⟨fun both => ⟨both.1, both.2⟩, fun payable => ⟨payable.covered, payable.fits⟩⟩

namespace Frame

variable {ν : Type}

-- A send that is charged, though its amount cannot be moved.
def sendsInVain (f : Frame Overlay) : Operation → Bool
  | .update (.send payee amount) =>
    !f.meter.exhausted && !(f.meter.consume f.host.own.tariff.transfer).exhausted &&
      !decide (f.host.Payable f.host.contract payee amount)
  | _ => false

def rise (level : Level ν Overlay) (f : Frame Overlay) (op : Operation) : Nat :=
  (f.step level op).2.1.meter.consumed.toNat - f.meter.consumed.toNat

structure ActionRecorded (level : Level ν Overlay) (f : Frame Overlay) (op : Operation) (attempt : Attempt) : Prop where
  starved : op.fault? (f.step level op).1 = some .outOfGas →
    (f.step level op).2.1.reports = f.reports ∧ f.sendsInVain op = false
  recorded : op.fault? (f.step level op).1 ≠ some .outOfGas → ∃ r, (f.step level op).2.1.reports = f.reports ++ [r] ∧
    r.attempt = some attempt ∧ r.gasUsed.toNat = if f.sendsInVain op then 0 else f.rise level op

variable {level : Level ν Overlay} {f : Frame Overlay} {op : Operation} {attempt : Attempt}

section

variable {answer : op.Answer} {after : Frame Overlay} {inside : Trace ν} {r : Report}

theorem starvedUnrecorded (ended : f.step level op = (answer, after, inside)) (starved : op.fault? answer = some .outOfGas)
    (kept : after.reports = f.reports) (unsent : f.sendsInVain op = false) : f.ActionRecorded level op attempt where
  starved _ := ⟨ended ▸ kept, unsent⟩
  recorded passed := by
    rw [ended] at passed
    exact (passed starved).elim

theorem passedRecorded (ended : f.step level op = (answer, after.record r, inside))
    (passed : op.fault? answer ≠ some .outOfGas) (kept : after.reports = f.reports) (attempted : r.attempt = some attempt)
    (gas : r.gasUsed.toNat = if f.sendsInVain op then 0 else after.meter.consumed.toNat - f.meter.consumed.toNat) :
    f.ActionRecorded level op attempt where
  starved starved := by
    rw [ended] at starved
    exact (passed starved).elim
  recorded _ := by
    rw [rise, ended]
    exact ⟨r, congrArg (· ++ [r]) kept, attempted, gas⟩

theorem exhaustedUnsent (exhausted : f.meter.exhausted = true) (op : Operation) : f.sendsInVain op = false := by
  unfold sendsInVain
  split
  · rw [exhausted]
    rfl
  · rfl

theorem exhaustedUnrecorded (exhausted : f.meter.exhausted = true) (guarded : op.Guarded) (other : op ≠ .commit) :
    f.ActionRecorded level op attempt := by
  have refused : f.Refused level op := otherRefused exhausted guarded other
  exact starvedUnrecorded rfl refused.answer refused.reports (exhaustedUnsent exhausted op)

end

theorem queryRecorded {q : Query} (acts : attemptOfQuery q = some attempt) :
    f.ActionRecorded level (.query q) attempt := by
  cases exhausted : f.meter.exhausted with
  | true => exact exhaustedUnrecorded exhausted trivial Operation.noConfusion
  | false =>
    have asked : f.step level (.query q) = _ := congrArg (fun r => (r.1, r.2, [])) (querySpared exhausted q)
    have ended : f.host.QueryEnded f.meter q (Host.query f.host f.meter q) := f.host.queryEnded f.meter q
    rw [acts] at asked
    generalize Host.query f.host f.meter q = result at asked ended
    cases ended with
    -- Refused for its key before anything is charged, so that no gas is what it took.
    | refused message early => exact passedRecorded asked (fun same => by cases same) rfl rfl (Nat.sub_self _).symm
    | starved => exact starvedUnrecorded asked rfl rfl rfl
    | answered => exact passedRecorded asked (fun same => by cases same) rfl rfl (Gas.lessToNat _ _)

theorem sendRecorded {payee : Address} {amount : Amount} :
    f.ActionRecorded level (.update (.send payee amount)) (.ofTransfer payee amount) := by
  cases exhausted : f.meter.exhausted with
  | true => exact exhaustedUnrecorded exhausted trivial Operation.noConfusion
  | false =>
    have asked : f.step level (.update (.send payee amount)) = _ :=
      congrArg (fun r => (r.1, r.2, [])) (updateSpared exhausted (.send payee amount))
    cases starved : (f.meter.consume f.host.own.tariff.transfer).exhausted with
    | true =>
      have answered : Host.update f.host f.meter (.send payee amount) =
          (.error .outOfGas, f.meter.consume f.host.own.tariff.transfer, f.host) := if_pos starved
      have unsent : f.sendsInVain (.update (.send payee amount)) = false := by
        simp only [sendsInVain, starved, Bool.not_true, Bool.and_false, Bool.false_and]
      rw [answered] at asked
      exact starvedUnrecorded asked rfl rfl unsent
    | false =>
      have answered : Host.update f.host f.meter (.send payee amount) = _ := Overlay.sendCharged starved
      rw [answered] at asked
      have succeeds := (f.host.transferExact f.host.contract payee amount).succeeds
      have unmetered := f.host.transferUnmetered f.host.contract payee amount
      have vain : f.sendsInVain (.update (.send payee amount)) =
          !decide (f.host.Payable f.host.contract payee amount) := by
        simp only [sendsInVain, exhausted, starved, Bool.not_false, Bool.true_and]
      cases moved : (f.host.transfer f.host.contract payee amount).1 with
      | ok _ =>
        have arrived : f.sendsInVain (.update (.send payee amount)) = false := by
          rw [vain, decide_eq_true (succeeds.mp moved), Bool.not_true]
        rw [moved] at asked
        refine passedRecorded asked (fun same => by cases same) rfl rfl ?_
        rw [arrived]
        exact Gas.lessToNat _ _
      | error fault =>
        -- The charge is made, and the record says 0 all the same.
        have unpayable : ¬ f.host.Payable f.host.contract payee amount := by
          intro payable
          cases moved.symm.trans (succeeds.mpr payable)
        have lost : f.sendsInVain (.update (.send payee amount)) = true := by
          rw [vain, decide_eq_false unpayable, Bool.not_false]
        rw [moved] at asked unmetered
        cases fault with
        | outOfGas => exact (unmetered rfl).elim
        | failed message | internal message => exact passedRecorded asked (fun same => by cases same) rfl rfl (if_pos lost).symm

theorem actionRecorded (acts : op.hostAction? = some attempt) : f.ActionRecorded level op attempt := by
  cases op with
  | query q => exact queryRecorded acts
  | update u =>
    cases u with
    | send payee amount =>
      cases acts
      exact sendRecorded
    | setStorage _ _ | removeStorage _ | subBalance _ | addBalance _ _ | emit _ _ => cases acts
  | ask _ | consumeGas _ | setGasLimit _ | commit | call _ | deploy _ => cases acts

/-! No other operation leaves a record of these kinds. -/

theorem invocationKind (i : Invocation) (gasLimit gasUsed : Gas) (subs : List Report) (result : Result) :
    (Report.ofInvocation i.attempt gasLimit gasUsed subs result).ofHost = false := by
  cases i <;> cases result <;> rfl

theorem performHostGas (level : Level ν Overlay) (f : Frame Overlay) (i : Invocation) :
    Report.hostGas (i.perform level f).2.1.reports = Report.hostGas f.reports := by
  have ended := i.performEnded level f
  generalize i.perform level f = result at ended
  have recorded (f : Frame Overlay) (gasLimit gasUsed : Gas) (subs : List Report) (result : Result) :
      Report.hostGas (f.record (Report.ofInvocation i.attempt gasLimit gasUsed subs result)).reports =
        Report.hostGas f.reports := by
    simp only [record, Report.hostGasAppend, Report.hostGasOther (invocationKind i _ _ _ _), Nat.add_zero]
  cases ended with
  | starved => rfl
  | declined | underivable | ran => exact recorded _ _ _ _ _

theorem stepHostGas (level : Level ν Overlay) (f : Frame Overlay) {op : Operation} (other : op.hostAction? = none) :
    Report.hostGas (f.step level op).2.1.reports = Report.hostGas f.reports := by
  cases op with
  | query q =>
    have kept : (f.query q).2.reports = f.reports := by
      unfold query
      split
      · rfl
      · rw [recordIfReports, show attemptOfQuery q = none from other]
        exact List.append_nil _
    exact congrArg Report.hostGas kept
  | update u =>
    have kept : (f.update u).2.reports = f.reports := by
      unfold update
      split
      · rfl
      · rw [recordIfReports, show attemptOfUpdate u = none from other]
        exact List.append_nil _
    exact congrArg Report.hostGas kept
  | call c => exact performHostGas level f (.call c)
  | deploy d => exact performHostGas level f (.deploy d)
  | commit => exact congrArg Report.hostGas (f.commitReports level)
  | ask _ | consumeGas _ | setGasLimit _ => rfl

end Frame

namespace Issued

def isRecorded (i : Issued Overlay) : Bool := i.op.hostAction?.isSome && i.op.fault? i.answer ≠ some .outOfGas

def isWasted (i : Issued Overlay) : Bool := i.frame.sendsInVain i.op

def totalRise {ν : Type} (level : Level ν Overlay) (issued : List (Issued Overlay)) : Nat :=
  (issued.map fun i => i.frame.rise level i.op).sum

theorem totalRiseFiltered {ν : Type} (level : Level ν Overlay) (pick : Issued Overlay → Bool) (i : Issued Overlay)
    (rest : List (Issued Overlay)) :
    totalRise level ((i :: rest).filter pick) =
      (if pick i then i.frame.rise level i.op else 0) + totalRise level (rest.filter pick) := by
  cases picked : pick i <;> simp [totalRise, picked]

end Issued

namespace Frame

variable {ν : Type}

theorem otherUnsent {f : Frame Overlay} {op : Operation} (other : op.hostAction? = none) : f.sendsInVain op = false := by
  unfold sendsInVain
  split
  · cases other
  · rfl

theorem stepGasRecorded (level : Level ν Overlay) (f : Frame Overlay) (op : Operation) :
    Report.hostGas (f.step level op).2.1.reports + (if (level.issue f op).isWasted then f.rise level op else 0) =
      Report.hostGas f.reports + if (level.issue f op).isRecorded then f.rise level op else 0 := by
  have wasted : (level.issue f op).isWasted = f.sendsInVain op := rfl
  cases acts : op.hostAction? with
  | none =>
    have unrecorded : (level.issue f op).isRecorded = false := by simp [Issued.isRecorded, Level.issue, acts]
    simp only [wasted, otherUnsent acts, unrecorded, Bool.false_eq_true, if_false, f.stepHostGas level acts]
  | some attempt =>
    obtain ⟨starved, recorded⟩ : f.ActionRecorded level op attempt := actionRecorded acts
    by_cases starves : op.fault? (f.step level op).1 = some .outOfGas
    · have unrecorded : (level.issue f op).isRecorded = false := by simp [Issued.isRecorded, Level.issue, starves]
      obtain ⟨kept, unsent⟩ := starved starves
      simp only [wasted, unsent, unrecorded, Bool.false_eq_true, if_false, kept]
    · have isRecorded : (level.issue f op).isRecorded = true := by simp [Issued.isRecorded, Level.issue, acts, starves]
      obtain ⟨r, reports, attempted, gas⟩ := recorded starves
      have ofHost : r.ofHost = true := by
        rw [Report.ofHost, attempted]
        exact op.hostActionKind acts
      rw [wasted, isRecorded, if_pos rfl, reports, Report.hostGasAppend, Report.hostGasSingle ofHost, gas]
      split <;> omega

end Frame

theorem Program.execGasRecorded {ν : Type} (level : Level ν Overlay) (p : Program ν (Option Bytes)) (f : Frame Overlay) :
    Report.hostGas (p.exec level f).reports + Issued.totalRise level ((p.issues level f).filter Issued.isWasted) =
      Report.hostGas f.reports + Issued.totalRise level ((p.issues level f).filter Issued.isRecorded) := by
  induction p generalizing f with
  | ret output | raise fault | panic text => rfl
  | note n next ih => exact ih f
  | perform op next ih =>
    have first := f.stepGasRecorded level op
    have later := ih (f.step level op).1 (f.step level op).2.1
    have reports : ((perform op next).exec level f).reports =
        ((next (f.step level op).1).exec level (f.step level op).2.1).reports := rfl
    have rise : (level.issue f op).frame.rise level (level.issue f op).op = f.rise level op := rfl
    simp only [issues, Issued.totalRiseFiltered, reports, rise]
    omega

namespace Frame

variable {ν : Type}

/-- A host action is recorded, unless gas runs out for it, once and with the gas by which it made the consumption rise, but
for a send that is charged and not carried out: that one is recorded with none. So in any run what is recorded falls short
of what the recorded actions were charged by exactly what was charged for such sends. -/
theorem hostActionsRecorded (level : Level ν Overlay) :
    (∀ (f : Frame Overlay) (op : Operation) (attempt : Attempt), op.hostAction? = some attempt →
      f.ActionRecorded level op attempt) ∧
      ∀ (p : Program ν (Option Bytes)) (f : Frame Overlay),
        let issued := p.issues level f
        Report.hostGas (p.exec level f).reports + Issued.totalRise level (issued.filter Issued.isWasted) =
          Report.hostGas f.reports + Issued.totalRise level (issued.filter Issued.isRecorded) :=
  ⟨fun _ _ _ acts => actionRecorded acts, fun p f => p.execGasRecorded level f⟩

def penniless : Frame Overlay :=
  .ofLimit (Overlay.root Settings.standard ⟨FixedBytes.zero, FixedBytes.zero, FixedBytes.zero, Amount.zero⟩ {}) 1000

theorem pennilessChargedForNothing :
    let send : Operation := .update (.send Overlay.heir ⟨8, by decide⟩)
    let level : Level Unit Overlay := ⟨0, Settings.standard, none⟩
    let after := (penniless.step level send).2.1
    after.reports.map Report.success = [false] ∧ after.reports.map Report.gasUsed = [0] ∧
      penniless.rise level send = 100 ∧ after.meter.exhausted = false ∧
      ¬ (∀ (f : Frame Overlay) (op : Operation) (r : Report),
        (f.step level op).2.1.reports = f.reports ++ [r] → op.hostAction?.isSome →
          r.gasUsed.toNat = f.rise level op) := by
  intro send level after
  have recorded : after.reports.map Report.gasUsed = [0] := by decide +kernel
  have rises : penniless.rise level send = 100 := by decide +kernel
  refine ⟨by decide +kernel, recorded, rises, by decide +kernel, fun always => ?_⟩
  cases reports : after.reports with
  | nil => simp [reports] at recorded
  | cons r rest =>
    simp only [reports, List.map_cons, List.cons.injEq, List.map_eq_nil_iff] at recorded
    obtain ⟨gas, rfl⟩ := recorded
    have equal := always penniless send r reports rfl
    rw [gas, rises] at equal
    cases equal

end Frame
end CallBoundary
