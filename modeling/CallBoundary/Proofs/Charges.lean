import CallBoundary.Proofs.Metering
import CallBoundary.Proofs.Outcomes
/-! What invocations are charged. An invocation that ran is charged the consumption of its meter, or the
limit it was given if it failed for want of gas. Either covers what it consumed within that limit, but
where the limit is zero. Zero stands for no limit: such a frame cannot run out of gas, but it can fail
as if it had, and then all that it consumed is charged nothing. -/
namespace CallBoundary

namespace Gas

def charged (limit consumed : Gas) : Result → Gas
  | .error .outOfGas => limit
  | _ => consumed

def due (limit consumed : Gas) : Nat := if limit = 0 then consumed.toNat else min consumed.toNat limit.toNat

theorem dueOfLimit {limit : Gas} (limited : limit ≠ 0) (consumed : Gas) : due limit consumed ≤ limit.toNat := by
  rw [due, if_neg limited]
  exact Nat.min_le_right _ _

theorem dueOfConsumed (limit consumed : Gas) : due limit consumed ≤ consumed.toNat := by
  unfold due
  split
  · exact Nat.le_refl _
  · exact Nat.min_le_left _ _

theorem dueUnlessUnlimited (limit consumed : Gas) (result : Result) :
    due limit consumed ≤ (charged limit consumed result).toNat ↔
      ¬ (limit = 0 ∧ consumed ≠ 0 ∧ result = .error .outOfGas) := by
  by_cases starved : result = .error .outOfGas
  · subst starved
    by_cases unlimited : limit = 0
    · subst unlimited
      rw [← not_iff_not, Decidable.not_not]
      constructor
      · intro short
        refine ⟨rfl, ?_, rfl⟩
        rintro rfl
        exact short (Nat.zero_le _)
      · rintro ⟨-, worked, -⟩ covered
        exact worked (UInt64.toNat_inj.mp (Nat.le_zero.mp covered))
    · exact iff_of_true (dueOfLimit unlimited consumed) fun forgiven => unlimited forgiven.1
  · have spent : charged limit consumed result = consumed := by
      unfold charged
      split
      · exact (starved rfl).elim
      · rfl
    rw [spent]
    exact iff_of_true (dueOfConsumed limit consumed) fun forgiven => starved forgiven.2.2

end Gas

theorem Report.wholeCharged (attempt : Attempt) (gasLimit gasUsed : Gas) (subs : List Report) (result : Result) :
    (whole attempt gasLimit gasUsed subs result).gasUsed = Gas.charged gasLimit gasUsed result := by
  cases result with
  | ok output => rfl
  | error failure => cases failure <;> rfl

theorem Ending.resultStarved (ending : Ending) : ending.result = .error .outOfGas ↔ ending = .faulted .outOfGas := by
  cases ending with
  | returned output => exact iff_of_false nofun nofun
  | faulted fault =>
    cases fault with
    | outOfGas => exact iff_of_true rfl rfl
    | failed message | internal message => exact iff_of_false nofun nofun
  | panicked text => exact iff_of_false nofun nofun

variable {ν E : Type} [Host E]

omit [Host E] in
theorem Finished.resultUnlimited {finished : Finished ν E} (unlimited : finished.meter.limit = 0) :
    finished.result = finished.ending.result := by
  have spared : finished.meter.exhausted = false := by simp [Meter.exhausted, unlimited]
  rw [result, spared]
  rfl

theorem Frame.closeUnlimited {callee : Finished ν E} (unlimited : callee.meter.limit = 0) :
    (close callee).1 = .error .outOfGas ↔
      callee.ending = .faulted .outOfGas ∨ (close callee).2.2 = some .outOfGas := by
  have starved := callee.ending.resultStarved
  have uncovered := Finished.resultUnlimited unlimited
  cases ended : callee.ending.result with
  | error failure =>
    rw [ended] at starved
    simp [close, uncovered, ended, ← starved]
  | ok output =>
    have other : callee.ending ≠ .faulted .outOfGas := by
      intro same
      rw [starved.mpr same] at ended
      cases ended
    cases committed : Host.commit callee.host with
    | mk answer host =>
      cases answer with
      | ok _ => simp [close, uncovered, ended, committed, other]
      | error fault => cases fault <;> simp [close, uncovered, ended, committed, other, Failure.ofFault]

-- Work on a meter without a limit that came to an end for want of gas all the same.
structure Forgiven (limit : Gas) (ending : Ending) (meter : Meter) (commitFault : Option Fault) : Prop where
  unlimited : limit = 0
  worked : meter.consumed ≠ 0
  starved : ending = .faulted .outOfGas ∨ commitFault = some .outOfGas

structure Charged (limit : Gas) (o : Outcome) (ending : Ending) (meter : Meter) (commitFault : Option Fault) : Prop where
  covered : Gas.due limit meter.consumed ≤ o.gasUsed.toNat ↔ ¬ Forgiven limit ending meter commitFault
  nothing : Forgiven limit ending meter commitFault → o.gasUsed = 0

theorem chargedOfReport {limit : Gas} {meter : Meter} {result : Result} {ending : Ending} {commitFault : Option Fault}
    (starved : limit = 0 →
      (result = .error .outOfGas ↔ ending = .faulted .outOfGas ∨ commitFault = some .outOfGas))
    (contract : Address) (attempt : Attempt) (subs : List Report) :
    Charged limit (Outcome.ofReport contract (Report.ofInvocation attempt limit meter.consumed subs result) result)
      ending meter commitFault := by
  have used : (Outcome.ofReport contract (Report.ofInvocation attempt limit meter.consumed subs result) result).gasUsed =
      Gas.charged limit meter.consumed result := Report.wholeCharged attempt limit meter.consumed subs result
  have forgiven : Forgiven limit ending meter commitFault ↔
      limit = 0 ∧ meter.consumed ≠ 0 ∧ result = .error .outOfGas := by
    constructor
    · rintro ⟨unlimited, worked, ended⟩
      exact ⟨unlimited, worked, (starved unlimited).mpr ended⟩
    · rintro ⟨unlimited, worked, ended⟩
      exact ⟨unlimited, worked, (starved unlimited).mp ended⟩
  refine ⟨?_, ?_⟩
  · rw [used, forgiven]
    exact Gas.dueUnlessUnlimited limit meter.consumed result
  · intro free
    obtain ⟨unlimited, -, ended⟩ := forgiven.mp free
    rw [used, ended]
    exact unlimited

namespace Boundary

variable (b : Boundary ν)

theorem launchCharged (metering : Host.Metering E) {host : E} {l : Launch} {depth : Nat} {activation : Activation}
    {items : Trace ν} {ending : Ending} {meter : Meter} {commitFault : Option Fault}
    (ran : (l.run b host).2.2 = [.ran depth activation items ending meter commitFault]) (kept : items.limitsSet = 0) :
    Charged l.invocation.gasLimit (l.run b host).1 ending meter commitFault := by
  have ended := l.runEnded b host
  generalize l.run b host = result at ended ran
  cases ended with
  | declined failure absent => cases ran
  | ran activation admitted =>
    obtain ⟨-, -, gasLimit, -⟩ := Launch.admittedGiven admitted
    have limits := (b.tracingLimit metering).execTop (b.interpreter activation)
      (Frame.ofLimit (l.prepared host) activation.gasLimit)
    simp only [Boundary.run] at ran ⊢
    generalize (b.interpreter activation).exec b.top (Frame.ofLimit (l.prepared host) activation.gasLimit) = finished
      at limits ran ⊢
    cases ran
    rw [← gasLimit]
    refine chargedOfReport ?_ activation.contract l.invocation.attempt finished.reports
    intro unlimited
    rw [Finished.resultUnlimited ((limits kept).trans unlimited), Ending.resultStarved]
    exact (or_iff_left nofun).symm

theorem invocationCharged (metering : Host.Metering E) {room level : Nat} {f after : Frame E} {i : Invocation}
    {o : Outcome} {depth : Nat} {activation : Activation} {items : Trace ν} {ending : Ending} {meter : Meter}
    {commitFault : Option Fault}
    (ran : i.perform (b.level room level) f = (.ok o, after, [.ran depth activation items ending meter commitFault]))
    (kept : items.limitsSet = 0) : Charged i.gasLimit o ending meter commitFault := by
  have ended := i.performEnded (b.level room level) f
  rw [ran] at ended
  cases ended with
  | ran activation callee meter admitted runs =>
    obtain ⟨gasLimit, -, -⟩ := Invocation.admittedGiven admitted
    obtain ⟨child, -, limits⟩ := Level.calleeTraced ((b.tracingLimit metering).below room level) runs
    rw [gasLimit]
    refine chargedOfReport ?_ activation.contract i.attempt callee.reports
    intro unlimited
    exact Frame.closeUnlimited ((limits kept).trans (gasLimit.trans unlimited))

/-- Whatever runs, at the top or nested, is charged what is due of it, as long as it sets no new limits:
within a limit what it consumed up to that, and without one all of it. The one exception is a frame
without a limit that ends with running out of gas of its own accord, or whose commit does; it is
charged nothing. -/
theorem chargesUnlessForgiven (metering : Host.Metering E) :
    (∀ (host : E) (l : Launch) (depth : Nat) (activation : Activation) (items : Trace ν) (ending : Ending)
        (meter : Meter) (commitFault : Option Fault),
      (l.run b host).2.2 = [.ran depth activation items ending meter commitFault] → items.limitsSet = 0 →
        Charged l.invocation.gasLimit (l.run b host).1 ending meter commitFault) ∧
      (∀ (room level : Nat) (f after : Frame E) (i : Invocation) (o : Outcome) (depth : Nat) (activation : Activation)
          (items : Trace ν) (ending : Ending) (meter : Meter) (commitFault : Option Fault),
        i.perform (b.level room level) f = (.ok o, after, [.ran depth activation items ending meter commitFault]) →
          items.limitsSet = 0 → Charged i.gasLimit o ending meter commitFault) :=
  ⟨fun _ _ _ _ _ _ _ _ ran kept => b.launchCharged metering ran kept,
    fun _ _ _ _ _ _ _ _ _ _ _ _ ran kept => b.invocationCharged metering ran kept⟩

def lavish : Boundary Unit where
  settings := Settings.standard
  interpreter a := do
    Program.consumeGas 5000
    if a.entry = .method "spend" then Program.raise .outOfGas else pure none

def lavishLaunch (limit : Gas) : Launch := .execute relayed "spend" [] limit

def uncommittable : CommitFault Overlay := ⟨relayRoot, some (relayed, .outOfGas), []⟩

theorem lavishCharged :
    (∃ (activation : Activation) (items : Trace Unit) (meter : Meter),
      ((lavishLaunch 6000).run lavish relayRoot).2.2 = [.ran 0 activation items (.faulted .outOfGas) meter none] ∧
        items.limitsSet = 0 ∧
          Charged 6000 ((lavishLaunch 6000).run lavish relayRoot).1 (.faulted .outOfGas) meter none) ∧
      ∃ (o : Outcome) (after : Frame (CommitFault Overlay)) (activation : Activation) (items : Trace Unit)
          (meter : Meter),
        (Invocation.call relayedCall).perform (lavish.level 1 0) (Frame.ofLimit uncommittable 1000) =
            (.ok o, after, [.ran 1 activation items (.returned none) meter (some .outOfGas)]) ∧
          items.limitsSet = 0 ∧ Charged relayedCall.gasLimit o (.returned none) meter (some .outOfGas) := by
  obtain ⟨launched, -⟩ := chargesUnlessForgiven (E := Overlay) lavish Overlay.metering
  obtain ⟨-, invoked⟩ := chargesUnlessForgiven (E := CommitFault Overlay) lavish (CommitFault.metering Overlay.metering)
  refine ⟨⟨_, _, _, rfl, by decide +kernel, ?_⟩, ⟨_, _, _, _, _, rfl, by decide +kernel, ?_⟩⟩
  · exact launched relayRoot (lavishLaunch 6000) _ _ _ _ _ _ rfl (by decide +kernel)
  · exact invoked 1 0 (Frame.ofLimit uncommittable 1000) _ (.call relayedCall) _ _ _ _ _ _ _ rfl (by decide +kernel)

theorem lavishGoesFree :
    ∃ (activation : Activation) (items : Trace Unit) (meter : Meter),
      ((lavishLaunch 0).run lavish relayRoot).2.2 = [.ran 0 activation items (.faulted .outOfGas) meter none] ∧
        items.limitsSet = 0 ∧ meter.consumed = 5000 ∧ ((lavishLaunch 0).run lavish relayRoot).1.gasUsed = 0 ∧
          ¬ Gas.due 0 meter.consumed ≤ ((lavishLaunch 0).run lavish relayRoot).1.gasUsed.toNat :=
  ⟨_, _, _, rfl, by decide +kernel, by decide +kernel, by decide +kernel, by decide +kernel⟩

end Boundary
end CallBoundary
