import CallBoundary.Proofs.Launches
import CallBoundary.Proofs.Traces
import CallBoundary.Proofs.Transfers
/-! Meters and their limits. A host charges the meter it is handed and leaves the limit alone, so a frame
has the limit it was opened with until it sets another itself. Opening an environment is not charged:
no invocation that is turned away is turned away for want of gas, and one that comes back with
that failure has run. -/
namespace CallBoundary

structure Host.Metering (E : Type) [Host E] : Prop where
  query : ∀ (host : E) (m : Meter) (q : Query), (Host.query host m q).2.limit = m.limit
  update : ∀ (host : E) (m : Meter) (u : Update), (Host.update host m u).2.1.limit = m.limit
  derive : ∀ (host : E) (contract : Address) (amount : Amount) (deployment : Bool),
    (Host.derive host contract amount deployment).1 ≠ .error .outOfGas

namespace Overlay

theorem transferUnmetered (o : Overlay) (payer payee : Address) (amount : Amount) :
    (o.transfer payer payee amount).1 ≠ .error .outOfGas := by
  by_cases covered : amount.value ≤ (o.view.balance payer).value
  · by_cases fits : o.held payer payee amount < Amount.limit
    · rw [transferFits covered fits]
      exact nofun
    · rw [transferOverflows covered fits]
      exact nofun
  · rw [transferUncovered covered]
    exact nofun

theorem deriveUnmetered (o : Overlay) (contract : Address) (amount : Amount) (deployment : Bool) :
    (o.derive contract amount deployment).1 ≠ .error .outOfGas := by
  have unmetered := (o.nest (o.childContext contract amount) o.own.tariff o.own.debug).transferUnmetered o.contract
    contract amount
  simp only [derive]
  split
  · exact nofun
  · split
    · exact nofun
    · split
      · exact nofun
      · rename_i moved
        rw [moved] at unmetered
        exact unmetered

theorem metering : Host.Metering Overlay where
  query o m q := by
    have ended : o.QueryEnded m q (Host.query o m q) := o.queryEnded m q
    generalize Host.query o m q = result at ended
    cases ended with
    | refused message early => rfl
    | starved | answered => exact m.consumeAllLimit _
  update o m u := by
    simp only [Host.update, Overlay.update]
    split
    · rfl
    · split <;> rfl
  derive := deriveUnmetered

end Overlay

theorem CommitFault.metering {E : Type} [Host E] (inner : Host.Metering E) : Host.Metering (CommitFault E) where
  query c m q := inner.query c.inner m q
  update c m u := inner.update c.inner m u
  derive c contract amount deployment := by
    have unmetered := inner.derive c.inner contract amount deployment
    simp only [Host.derive, CommitFault.derive]
    split
    · rename_i derived
      rw [derived] at unmetered
      exact unmetered
    · exact nofun

variable {ν E : Type} [Host E]

namespace Frame

theorem queryLimit (metering : Host.Metering E) (f : Frame E) (q : Query) :
    (f.query q).2.meter.limit = f.meter.limit := by
  unfold query
  split
  · rfl
  · rw [recordIfMeter]
    exact metering.query f.host f.meter q

theorem updateLimit (metering : Host.Metering E) (f : Frame E) (u : Update) :
    (f.update u).2.meter.limit = f.meter.limit := by
  unfold update
  split
  · rfl
  · rw [recordIfMeter]
    exact metering.update f.host f.meter u

theorem enterMeter (level : Level ν E) (f : Frame E) (attempt : Attempt) (amount : Amount) (activation : Activation) :
    (f.enter level attempt amount activation).2.1.meter = f.meter := by
  simp only [enter]
  cases level.enter with
  | none => rfl
  | some run =>
    cases Host.derive f.host activation.contract amount (activation.entry = .constructor) with
    | mk answer host => cases answer <;> rfl

theorem callMeter (level : Level ν E) (f : Frame E) (c : Call) : (f.call level c).2.1.meter = f.meter := by
  unfold call
  split
  · rfl
  · split
    · rfl
    · exact enterMeter level f _ _ _

theorem commitMeter (level : Level ν E) (f : Frame E) : (f.commit level).2.meter = f.meter := by
  unfold commit
  split
  · rfl
  · split <;> rfl

theorem deployMeter (level : Level ν E) (f : Frame E) (d : Deployment) :
    (f.deploy level d).2.1.meter = (f.query (.addressOfCode d.code d.args d.nonce)).2.meter := by
  unfold deploy
  split
  · rename_i asked
    rw [asked]
  · rename_i asked
    rw [asked]
    split
    · rfl
    · exact enterMeter level _ _ _ _

end Frame

def Operation.limitsSet : Operation → Nat
  | .setGasLimit _ => 1
  | _ => 0

def Trace.limitsSet (t : Trace ν) : Nat := tally (fun op _ => op.limitsSet) (fun _ => true) t

theorem Frame.stepLimit (metering : Host.Metering E) (level : Level ν E) (f : Frame E) (op : Operation)
    (kept : op.limitsSet = 0) : (f.step level op).2.1.meter.limit = f.meter.limit := by
  cases op with
  | query q => exact f.queryLimit metering q
  | update u => exact f.updateLimit metering u
  | ask p => rfl
  | consumeGas gas => rfl
  | setGasLimit limit => cases kept
  | commit => exact congrArg Meter.limit (f.commitMeter level)
  | call c => exact congrArg Meter.limit (f.callMeter level c)
  | deploy d => exact (congrArg Meter.limit (f.deployMeter level d)).trans (f.queryLimit metering _)

theorem Trace.limitsSetThen (inside : Trace ν) (op : Operation) (answer : op.Answer) (t : Trace ν) :
    (inside ++ .performed op answer :: t).limitsSet = inside.limitsSet + op.limitsSet + t.limitsSet := by
  simp only [limitsSet, tallyAppend, tally, Item.tally, Nat.add_assoc]

theorem Trace.limitsSetNoted (n : ν) (t : Trace ν) : limitsSet (.noted n :: t) = t.limitsSet := by
  simp [limitsSet, tally, Item.tally]

theorem Boundary.tracingLimit (metering : Host.Metering E) (b : Boundary ν) :
    b.Tracing fun (f : Frame E) t after => t.limitsSet = 0 → after.meter.limit = f.meter.limit where
  stays f := fun _ => rfl
  notes n later := by
    rw [Trace.limitsSetNoted]
    exact later
  performs room depth below f after t op later := by
    intro kept
    rw [Trace.limitsSetThen] at kept
    have here := f.stepLimit metering (b.level room depth) op (by omega)
    exact (later (by omega)).trans here

/-! Programs that set no limits. -/

def Program.SetsNoLimit {α : Type} : Program ν α → Prop
  | ret _ | raise _ | panic _ => True
  | note _ next => next.SetsNoLimit
  | perform op next => op.limitsSet = 0 ∧ ∀ answer, (next answer).SetsNoLimit

theorem Invocation.performLimits {level : Level ν E} (below : level.Traces fun _ t _ => t.limitsSet = 0) (f : Frame E)
    (i : Invocation) : (i.perform level f).2.2.limitsSet = 0 := by
  have ended := i.performEnded level f
  generalize i.perform level f = result at ended
  cases ended with
  | starved | declined | underivable => rfl
  | ran activation callee meter admitted runs =>
    obtain ⟨child, -, inside⟩ := Level.calleeTraced below runs
    exact inside

theorem Frame.stepLimits {level : Level ν E} (below : level.Traces fun _ t _ => t.limitsSet = 0) (f : Frame E)
    (op : Operation) : (f.step level op).2.2.limitsSet = 0 := by
  cases op with
  | call c => exact Invocation.performLimits below f (.call c)
  | deploy d => exact Invocation.performLimits below f (.deploy d)
  | query _ | update _ | ask _ | consumeGas _ | setGasLimit _ | commit => rfl

theorem Program.execLimits {level : Level ν E} (below : level.Traces fun _ t _ => t.limitsSet = 0)
    {p : Program ν (Option Bytes)} (kept : p.SetsNoLimit) (f : Frame E) : (p.exec level f).trace.limitsSet = 0 := by
  induction p generalizing f with
  | ret output | raise fault | panic text => rfl
  | note n next ih => exact (Trace.limitsSetNoted n _).trans (ih kept f)
  | perform op next ih =>
    have later := ih (f.step level op).1 (kept.2 _) (f.step level op).2.1
    have whole := Trace.limitsSetThen (f.step level op).2.2 op (f.step level op).1
      ((next (f.step level op).1).exec level (f.step level op).2.1).trace
    rw [f.stepLimits below op, kept.1, later] at whole
    exact whole

theorem Boundary.levelLimits {b : Boundary ν} (kept : ∀ a, (b.interpreter a).SetsNoLimit) (room depth : Nat) :
    (b.level room depth : Level ν E).Traces fun _ t _ => t.limitsSet = 0 := by
  induction room generalizing depth with
  | zero =>
    intro run runs
    cases runs
  | succ inner ih =>
    intro run runs host activation
    cases runs
    exact Program.execLimits (ih (depth + 1)) (kept activation) _

theorem Launch.runLimits {b : Boundary ν} (kept : ∀ a, (b.interpreter a).SetsNoLimit) (host : E) (l : Launch) :
    (l.run b host).2.2.limitsSet = 0 := by
  have ended := l.runEnded b host
  generalize l.run b host = result at ended
  cases ended with
  | declined failure absent => rfl
  | ran activation admitted =>
    exact Program.execLimits (b.levelLimits kept b.settings.maxCallDepth.toNat 0) (kept activation) _

/-! Want of gas as a failure. -/

def Trace.Item.HasRun : Trace.Item ν → Prop
  | .ran _ _ _ _ _ _ => True
  | _ => False

namespace Frame

theorem enterStarved (metering : Host.Metering E) {level : Level ν E} {f : Frame E} {attempt : Attempt}
    {amount : Amount} {activation : Activation}
    (starved : (f.enter level attempt amount activation).1.result = .error .outOfGas) :
    ∃ item, (f.enter level attempt amount activation).2.2 = [item] ∧ item.HasRun := by
  simp only [enter] at starved ⊢
  cases deeper : level.enter with
  | none =>
    rw [deeper] at starved
    cases starved
  | some run =>
    have unmetered := metering.derive f.host activation.contract amount (activation.entry = .constructor)
    simp only [deeper] at starved ⊢
    cases derived : Host.derive f.host activation.contract amount (activation.entry = .constructor) with
    | mk answer host =>
      rw [derived] at starved unmetered
      cases answer with
      | error fault =>
        cases fault with
        | outOfGas => exact (unmetered rfl).elim
        | failed message => cases starved
        | internal message => cases starved
      | ok _ => exact ⟨_, rfl, trivial⟩

end Frame

theorem Invocation.performStarved (metering : Host.Metering E) {level : Level ν E} {f : Frame E} {i : Invocation}
    {o : Outcome} (answered : (i.perform level f).1 = .ok o) (starved : o.result = .error .outOfGas) :
    ∃ item, (i.perform level f).2.2 = [item] ∧ item.HasRun := by
  cases i with
  | call c =>
    simp only [perform, Frame.call] at answered ⊢
    split at answered
    · cases answered
    · rename_i spared
      rw [if_neg spared]
      cases found : Host.code? f.host c.contract with
      | none =>
        rw [found] at answered
        cases answered
        cases starved
      | some code =>
        rw [found] at answered
        cases answered
        exact Frame.enterStarved metering starved
  | deploy d =>
    simp only [perform, Frame.deploy] at answered ⊢
    cases asked : f.query (.addressOfCode d.code d.args d.nonce) with
    | mk answer paid =>
      rw [asked] at answered
      cases answer with
      | error fault => cases answered
      | ok derived =>
        obtain ⟨contract, gas⟩ := derived
        dsimp only at answered ⊢
        cases found : Host.codeHash? paid.host contract with
        | some hash =>
          rw [found] at answered
          cases answered
          cases starved
        | none =>
          rw [found] at answered
          cases answered
          exact Frame.enterStarved metering starved

theorem Launch.runStarved (b : Boundary ν) (host : E) (l : Launch)
    (starved : (l.run b host).1.result = .error .outOfGas) :
    ∃ item, (l.run b host).2.2 = [item] ∧ item.HasRun := by
  cases l with
  | execute contract method args gasLimit =>
    simp only [run, Boundary.execute] at starved ⊢
    cases found : Host.code? host contract with
    | none =>
      rw [found] at starved
      cases starved
    | some code => exact ⟨_, rfl, trivial⟩
  | deploy contract code args gasLimit =>
    simp only [run, Boundary.deploy] at starved ⊢
    cases found : Host.codeHash? host contract with
    | some hash =>
      rw [found] at starved
      cases starved
    | none => exact ⟨_, rfl, trivial⟩

end CallBoundary
