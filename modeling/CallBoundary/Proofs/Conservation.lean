import CallBoundary.Proofs.Launches
import CallBoundary.Proofs.Totals
import CallBoundary.Proofs.Traces
/-! Value over whole runs. What a run pays in or out counts where it succeeded, in a frame that
succeeded inside others that did; all else moves value or leaves no trace of having done so. This
needs room: what there is at first and all that is ever to be paid in have to fit into an amount
together. -/
namespace CallBoundary

namespace Operation

def paidIn : Operation → Nat
  | .update u => u.paidIn
  | _ => 0

def paidOut : Operation → Nat
  | .update u => u.paidOut
  | _ => 0

def Supplies : Operation → Prop
  | .update (.addBalance _ _) | .update (.subBalance _) => True
  | _ => False

theorem suppliesNothing {op : Operation} (other : ¬ op.Supplies) : op.paidIn = 0 ∧ op.paidOut = 0 := by
  cases op with
  | update u =>
    cases u with
    | addBalance address amount => exact (other trivial).elim
    | subBalance amount => exact (other trivial).elim
    | _ => exact ⟨rfl, rfl⟩
  | _ => exact ⟨rfl, rfl⟩

def effect (amount : Operation → Nat) (op : Operation) (answer : op.Answer) : Nat :=
  if (op.fault? answer).isNone then amount op else 0

end Operation

namespace Trace

variable {ν : Type}

def offered (t : Trace ν) : Nat := tally (fun op _ => op.paidIn) (fun _ => true) t

def paidIn (t : Trace ν) : Nat := tally (Operation.effect Operation.paidIn) Except.isOk t

def paidOut (t : Trace ν) : Nat := tally (Operation.effect Operation.paidOut) Except.isOk t

theorem paidInLeOffered (t : Trace ν) : t.paidIn ≤ t.offered := by
  refine tallyLe ?_ (fun _ _ => rfl) t
  intro op answer
  unfold Operation.effect
  split
  · exact Nat.le_refl _
  · exact Nat.zero_le _

-- No operation has failed, and no environment was refused, for too large a balance.
def Fitting (t : Trace ν) : Prop := ∀ item, t.Within item → Overlay.NoOverflow item.fault?

theorem fittingNil : Fitting ([] : Trace ν) := fun _ absent => by cases absent

theorem fittingAppend {s t : Trace ν} (first : s.Fitting) (second : t.Fitting) : Fitting (s ++ t) :=
  fun item found => (withinAppend found).elim (first item) (second item)

theorem fittingCons {item : Item ν} {rest : Trace ν} (reason : Overlay.NoOverflow item.fault?)
    (inside : item.items.Fitting) (fitting : rest.Fitting) : Fitting (item :: rest) := by
  intro other found
  cases found with
  | here _ => exact reason
  | later _ found => exact fitting other found
  | inside _ found => exact inside other found

end Trace

open Trace

variable {ν : Type}

structure Frame.Balanced (f : Frame Overlay) (t : Trace ν) (after : Frame Overlay) : Prop where
  booked : after.host.view.total + t.paidOut = f.host.view.total + t.paidIn
  fitting : t.Fitting

namespace Frame

def Balances (f : Frame Overlay) (t : Trace ν) (after : Frame Overlay) : Prop :=
  f.host.view.total + t.offered < Amount.limit → f.Balanced t after

theorem balancedThen {f middle after : Frame Overlay} {s t : Trace ν}
    (first : f.Balances s middle) (second : middle.Balances t after) : f.Balances (s ++ t) after := by
  intro fits
  simp only [offered, tallyAppend] at fits
  have here := first (by simp only [offered]; omega)
  -- What is still to be offered fits as well: no more was paid in so far than was offered.
  have bound := paidInLeOffered s
  have booked := here.booked
  have there := second (by simp only [offered] at bound ⊢; omega)
  have later := there.booked
  refine ⟨?_, fittingAppend here.fitting there.fitting⟩
  simp only [paidIn, paidOut, tallyAppend] at booked later ⊢
  omega

theorem balancedOne {f after : Frame Overlay} {op : Operation} {answer : op.Answer}
    (booked : after.host.view.total + op.effect Operation.paidOut answer =
      f.host.view.total + op.effect Operation.paidIn answer)
    (reason : Overlay.NoOverflow (op.fault? answer)) : f.Balanced [(.performed op answer : Item ν)] after := by
  refine ⟨?_, fittingCons reason fittingNil fittingNil⟩
  simpa only [paidIn, paidOut, tally, Item.tally, Nat.add_zero] using booked

theorem idleBalances {f after : Frame Overlay} {op : Operation} {answer : op.Answer} (idle : ¬ op.Supplies)
    (same : after.host.view.total = f.host.view.total) (reason : Overlay.NoOverflow (op.fault? answer)) :
    f.Balances [(.performed op answer : Item ν)] after := by
  intro fits
  obtain ⟨noneIn, noneOut⟩ := Operation.suppliesNothing idle
  refine balancedOne ?_ reason
  simp only [Operation.effect, noneIn, noneOut, ite_self, same]

theorem updateBalances (f : Frame Overlay) (u : Update) :
    f.Balances [(.performed (.update u) (f.update u).1 : Item ν)] (f.update u).2 := by
  intro fits
  have booked := f.host.updateBooked f.meter u fits
  unfold update
  cases f.meter.exhausted with
  | true => exact balancedOne rfl Overlay.noOverflowOutOfGas
  | false =>
    have answered : f.host.update f.meter u = Host.update f.host f.meter u := rfl
    rw [answered] at booked
    cases updated : Host.update f.host f.meter u with
    | mk answer rest =>
      rw [updated] at booked
      simp only [Bool.false_eq_true, if_false]
      refine balancedOne ?_ ?_
      · rw [recordIfHost]
        cases booked with
        | done booked => exact booked
        | refused kept reason => exact kept
      · cases booked with
        | done booked => exact Overlay.noOverflowNone
        | refused kept reason => exact reason

theorem queryFault (f : Frame Overlay) (q : Query) : Overlay.NoOverflow (Operation.fault? (.query q) (f.query q).1) := by
  unfold query
  cases f.meter.exhausted with
  | true => exact Overlay.noOverflowOutOfGas
  | false =>
    have reason := f.host.queryFault f.meter q
    have answered : f.host.query f.meter q = Host.query f.host f.meter q := rfl
    rw [answered] at reason
    simp only [Bool.false_eq_true, if_false]
    cases queried : (Host.query f.host f.meter q).1 with
    | ok value => exact Overlay.noOverflowNone
    | error fault =>
      rw [queried] at reason
      exact reason

theorem underivableBalances {f after : Frame Overlay} {contract : Address} {fault : Fault}
    (same : after.host.view.total = f.host.view.total) (reason : Overlay.NoOverflow (some fault)) :
    f.Balances [(.underivable contract fault : Item ν)] after :=
  fun _ => ⟨same, fittingCons reason fittingNil fittingNil⟩

theorem ranBalanced {f after : Frame Overlay} {callee : Finished ν Overlay} {context : Context} {depth : Nat}
    {activation : Activation} (nested : Overlay.WritesOnly (f.host.nest context f.host.own.tariff f.host.own.debug) callee.host)
    (closed : after.host = (close callee).2.1) {child : Overlay} {gasLimit : Gas} (opened : child.view.total = f.host.view.total)
    (inside : (ofLimit child gasLimit).Balances callee.trace callee.toFrame) :
    f.Balances [.ran depth activation callee.trace callee.ending callee.meter (close callee).2.2] after := by
  intro fits
  have within : child.view.total + callee.trace.offered < Amount.limit := by
    rw [opened]
    simpa only [offered, tally, Item.tally, if_true, Nat.add_zero] using fits
  have balanced := inside within
  have closing := closeNested nested
  refine ⟨?_, ?_⟩
  · rw [closed, closing]
    simp only [paidIn, paidOut, tally, Item.tally, Nat.add_zero]
    rw [verdictUncommitted callee]
    -- A callee that succeeded is counted and folded in; of any other neither is done.
    by_cases kept : callee.result.isOk = true
    · have seen := (Overlay.settledNested nested).view
      have booked : callee.host.view.total + callee.trace.paidOut = child.view.total + callee.trace.paidIn :=
        balanced.booked
      rw [opened] at booked
      simpa only [if_pos kept, seen, paidIn, paidOut] using booked
    · simp only [if_neg kept]
  · have committed : Overlay.NoOverflow (close callee).2.2 := by
      rw [closing]
      exact Overlay.noOverflowNone
    exact fittingCons committed balanced.fitting fittingNil

end Frame

namespace Invocation

variable {f after : Frame Overlay}

theorem idleBalances (i : Invocation) {answer : Except Fault Outcome} (same : after.host.view.total = f.host.view.total)
    (reason : Overlay.NoOverflow (Access.faultOf answer)) : f.Balances [(i.performed answer : Item ν)] after := by
  cases i with
  | call c => exact Frame.idleBalances id same (by cases answer <;> exact reason)
  | deploy d => exact Frame.idleBalances id same (by cases answer <;> exact reason)

theorem performBalances (b : Boundary ν) (room depth : Nat)
    (below : (b.level room depth : Level ν Overlay).Traces Frame.Balances) (f : Frame Overlay) (i : Invocation) :
    let run := i.perform (b.level room depth) f
    f.Balances (run.2.2 ++ [i.performed run.1]) run.2.1 := by
  intro run
  have ended : Ended (b.level room depth) f i run := i.performEnded (b.level room depth) f
  generalize run = result at ended
  cases ended with
  | starved fault meter absent reason =>
    refine i.idleBalances rfl ?_
    rcases reason with rfl | ⟨code, args, nonce, failed⟩
    · exact Overlay.noOverflowOutOfGas
    · have asked := f.queryFault (.addressOfCode code args nonce)
      rw [failed] at asked
      exact asked
  | declined contract failure meter absent => exact i.idleBalances rfl Overlay.noOverflowNone
  | underivable activation fault host meter absent refused =>
    intro fits
    have space : f.host.view.total < Amount.limit := Nat.lt_of_le_of_lt (Nat.le_add_right _ _) fits
    have booked := f.host.deriveBooked activation.contract i.amount (activation.entry = .constructor) space
    have same : f.host.derive activation.contract i.amount (activation.entry = .constructor) = (.error fault, host) := refused
    rw [same] at booked
    cases booked with
    | refused kept reason =>
      have refusing : f.Balances [(.underivable activation.contract fault : Item ν)] { f with host, meter } :=
        Frame.underivableBalances kept reason
      exact Frame.balancedThen refusing (i.idleBalances rfl Overlay.noOverflowNone) fits
  | ran activation callee meter admitted runs =>
    obtain ⟨context, nested⟩ := Level.calleeNests (b.confined room depth) runs
    obtain ⟨child, opened, inside⟩ := Level.calleeTraced below runs
    intro fits
    have space : f.host.view.total < Amount.limit := Nat.lt_of_le_of_lt (Nat.le_add_right _ _) fits
    have start := Overlay.openedTotal space opened
    have running : f.Balances
        [.ran ((b.level room depth : Level ν Overlay).depth + 1) activation callee.trace callee.ending callee.meter
          (Frame.close callee).2.2] { f with host := (Frame.close callee).2.1, meter } :=
      Frame.ranBalanced nested rfl start inside
    exact Frame.balancedThen running (i.idleBalances rfl Overlay.noOverflowNone) fits

end Invocation

namespace Frame

theorem stepBalances (b : Boundary ν) (room depth : Nat) (below : (b.level room depth : Level ν Overlay).Traces Balances)
    (f : Frame Overlay) (op : Operation) :
    let run := f.step (b.level room depth) op
    f.Balances (run.2.2 ++ [.performed op run.1]) run.2.1 := by
  intro run
  cases op with
  | query q => exact idleBalances id (by rw [← f.queryHost q]; rfl) (f.queryFault q)
  | update u => exact f.updateBalances u
  | ask p => exact idleBalances id rfl Overlay.noOverflowNone
  | consumeGas gas =>
    refine idleBalances id rfl ?_
    simp only [run, step, consumeGas]
    split
    · exact Overlay.noOverflowOutOfGas
    · exact Overlay.noOverflowNone
  | setGasLimit limit => exact idleBalances id rfl Overlay.noOverflowNone
  | commit =>
    rcases Nat.eq_zero_or_pos depth with rfl | under
    · have gone : f.step (b.level room 0) .commit = (.ok (), { f with host := f.host.commit.clear }, []) :=
        topCommitGoes (b.levelDepth room 0) rfl
      have seen : f.host.commit.clear.view.total = f.host.view.total := by rw [Overlay.commitView]
      simp only [run, gone]
      exact idleBalances id seen Overlay.noOverflowNone
    · have refused : f.step (b.level room depth) .commit = (.error .nestedCommit, f, []) :=
        nestedCommit (by rw [b.levelDepth]; exact under)
      simp only [run, refused]
      exact idleBalances id rfl (Overlay.noOverflowFailed _)
  | call c => exact Invocation.performBalances b room depth below f (.call c)
  | deploy d => exact Invocation.performBalances b room depth below f (.deploy d)

end Frame

theorem Boundary.tracingBalances (b : Boundary ν) : b.Tracing (Frame.Balances (ν := ν)) where
  stays f := fun _ => ⟨rfl, fittingNil⟩
  notes n later := by
    intro fits
    have balanced := later (by simpa only [offered, tally, Item.tally, Nat.zero_add] using fits)
    refine ⟨?_, ?_⟩
    · simpa only [paidIn, paidOut, tally, Item.tally, Nat.zero_add] using balanced.booked
    · exact fittingCons Overlay.noOverflowNone fittingNil balanced.fitting
  performs room depth below f after t op later := by
    have stepped := Frame.balancedThen (f.stepBalances b room depth below op) later
    rwa [List.append_assoc] at stepped

namespace Trace

def inTop : Trace ν → Trace ν
  | [] => []
  | item :: _ => item.items

theorem withinTop {item : Item ν} {t : Trace ν} (found : Within item t.inTop) : t.Within item := by
  cases t with
  | nil => cases found
  | cons first rest => exact .inside rest found

theorem idleTop {t : Trace ν} (idle : ∀ op answer, t.Within (.performed op answer) → ¬ op.Supplies) :
    t.inTop.paidIn = 0 ∧ t.inTop.paidOut = 0 := by
  have nothing (amount : Operation → Nat) (none : ∀ op : Operation, ¬ op.Supplies → amount op = 0) :
      tally (Operation.effect amount) Except.isOk t.inTop = 0 := by
    refine tallyNothing _ _ fun op answer found => ?_
    simp only [Operation.effect, none op (idle op answer (withinTop found)), ite_self]
  exact ⟨nothing _ fun op other => (Operation.suppliesNothing other).1,
    nothing _ fun op other => (Operation.suppliesNothing other).2⟩

end Trace

namespace Launch

theorem preparedTotal (o : Overlay) (l : Launch) : (l.prepared o).view.total = o.view.total := by
  cases l with
  | execute contract method args gasLimit => rfl
  | deploy contract code args gasLimit => exact o.writeTotal (fun c => c.setCode o.contract code) fun _ => rfl

theorem runBalanced (b : Boundary ν) (o : Overlay) (l : Launch)
    (fits : o.view.total + (l.run b o).2.2.offered < Amount.limit) :
    (l.run b o).2.1.view.total + (l.run b o).2.2.inTop.paidOut = o.view.total + (l.run b o).2.2.inTop.paidIn ∧
      (l.run b o).2.2.Fitting := by
  have ended := l.runEnded b o
  generalize l.run b o = result at ended fits ⊢
  cases ended with
  | declined failure absent => exact ⟨rfl, fittingNil⟩
  | ran activation admitted =>
    have inside := b.tracingBalances.execTop (b.interpreter activation)
      (Frame.ofLimit (l.prepared o) activation.gasLimit)
    have prepared := l.preparedTotal o
    have balanced := inside (by
      simp only [Boundary.run, offered, tally, Item.tally, if_true, Nat.add_zero] at fits
      simp only [Frame.ofLimit, prepared]
      exact fits)
    refine ⟨?_, ?_⟩
    · have booked := balanced.booked
      rw [Frame.ofLimit, prepared] at booked
      exact booked
    · exact fittingCons Overlay.noOverflowNone balanced.fitting fittingNil

/-- As long as what there is and all that is ever to be paid in fit into an amount together, the balances
seen after a launch differ in sum from those seen before by what was paid in and out, in the frame at
the top and in those below it that succeeded like all between. No operation fails for too large a
balance; and where nothing is paid in or out, the sum is the same. -/
theorem conservesValue (b : Boundary ν) (o : Overlay) (l : Launch)
    (fits : o.view.total + (l.run b o).2.2.offered < Amount.limit) :
    let after := (l.run b o).2.1
    let trace := (l.run b o).2.2
    after.view.total + trace.inTop.paidOut = o.view.total + trace.inTop.paidIn ∧
      (∀ item, trace.Within item → ∀ address, item.fault? ≠ some (Overlay.overflow address)) ∧
      ((∀ op answer, trace.Within (.performed op answer) → ¬ op.Supplies) → after.view.total = o.view.total) := by
  intro after trace
  obtain ⟨booked, fitting⟩ := l.runBalanced b o fits
  refine ⟨booked, fitting, ?_⟩
  intro idle
  obtain ⟨noneIn, noneOut⟩ := idleTop idle
  rw [noneIn, noneOut] at booked
  exact booked

def payer : Address := FixedBytes.zero

def payee : Address := FixedBytes.last 20 [1]

def paidCall (method : String) (value : Amount) : Call := ⟨payee, method, [], value, [], 0⟩

def payments : Boundary Unit where
  settings := Settings.standard
  interpreter a :=
    match a.entry with
    | .method "pay" => do
      let _ ← Program.run (.call (paidCall "earn" ⟨30, by decide⟩))
      let _ ← Program.run (.call (paidCall "win" ⟨20, by decide⟩))
      let _ ← Program.update (.subBalance ⟨10, by decide⟩)
      pure none
    | .method "earn" => do
      let _ ← Program.update (.addBalance payee ⟨5, by decide⟩)
      pure none
    | _ => do
      let _ ← Program.update (.addBalance payee ⟨7, by decide⟩)
      Program.panic none

def paymentsRoot : Overlay :=
  Overlay.root Settings.standard ⟨payer, payer, payer, Amount.zero⟩
    { balances := (∅ : Std.ExtTreeMap Address Amount).insert payer ⟨120, by decide⟩
      code := ((∅ : Std.ExtTreeMap Address Bytes).insert payer [1]).insert payee [1] }

def paymentsLaunch : Launch := .execute payer "pay" [] 0

def paymentsRun : Outcome × Overlay × Trace Unit := paymentsLaunch.run payments paymentsRoot

theorem paymentsConserved :
    paymentsRoot.view.total + paymentsRun.2.2.offered < Amount.limit ∧ paymentsRoot.view.total = 120 ∧
      paymentsRun.2.2.offered = 12 ∧ paymentsRun.2.1.view.total = 115 := by
  have seen : paymentsRoot.view = paymentsRoot.store.view := Changes.emptyOnto _
  have start : paymentsRoot.view.total = 120 := by
    rw [seen, Store.totalOfEntries]
    decide +kernel
  have asked : paymentsRun.2.2.offered = 12 := by decide +kernel
  have fits : paymentsRoot.view.total + paymentsRun.2.2.offered < Amount.limit := by
    rw [start, asked]
    decide
  have added : paymentsRun.2.2.inTop.paidIn = 5 := by decide +kernel
  have taken : paymentsRun.2.2.inTop.paidOut = 10 := by decide +kernel
  have booked : paymentsRun.2.1.view.total + paymentsRun.2.2.inTop.paidOut =
      paymentsRoot.view.total + paymentsRun.2.2.inTop.paidIn :=
    (paymentsLaunch.conservesValue payments paymentsRoot fits).1
  rw [start, added, taken] at booked
  exact ⟨fits, start, asked, Nat.add_right_cancel booked⟩

end Launch
end CallBoundary
