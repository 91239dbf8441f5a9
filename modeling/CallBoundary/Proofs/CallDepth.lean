import CallBoundary.Proofs.Machine
import CallBoundary.Proofs.Outcomes
/-! The bound on depth and the end of every run. However often programs call and deploy themselves and each other,
no more frames than the greatest depth ever wait for another, and what is called above so many is
rejected where it stands: nothing is derived for it, nothing is changed and nothing is used. -/
namespace CallBoundary

open StateTransition

variable {ν E : Type} [Host E] {b : Boundary ν}

namespace Machine

theorem advanceDepth {m after : Machine ν E} (bounded : m.depth ≤ b.settings.maxCallDepth.toNat)
    (advanced : m.advance b = some after) : after.depth ≤ b.settings.maxCallDepth.toNat := by
  cases advanceCases advanced with
  | noted | performed | underivable => exact bounded
  | entered i next issued entering opened => exact (enteringSome.mp entering).1
  | returned ending ended resumed =>
    obtain ⟨caller, waits, -⟩ := resumeCases resumed
    rw [depth, waits, List.length_cons] at bounded
    exact Nat.le_of_succ_le bounded

theorem reachesDepth {m last : Machine ν E} (bounded : m.depth ≤ b.settings.maxCallDepth.toNat)
    (reached : Reaches (advance b) m last) : last.depth ≤ b.settings.maxCallDepth.toNat := by
  induction reached with
  | refl => exact bounded
  | tail before step ih => exact advanceDepth ih step

structure RejectedByDepth (m : Machine ν E) (i : Invocation) (next : Resumption ν)
    (after : Machine ν E) : Prop where
  waiting : after.waiting = m.waiting
  host : after.frame.host = m.frame.host
  reports : after.frame.reports = m.frame.reports ++ [Report.ofRejection i.attempt .callDepthExceeded]
  answer : ∃ o, after.rest = next (.ok o) ∧ o.result = .error .callDepthExceeded ∧ o.gasUsed = 0 ∧
    o.report = (Report.ofRejection i.attempt .callDepthExceeded).encode

theorem rejectedByDepth {m : Machine ν E} {i : Invocation} {next : Resumption ν}
    {activation : Activation} (issued : m.rest = i.program next) (deepest : m.depth = b.settings.maxCallDepth.toNat)
    (admitted : i.admitted? (m.level b) m.frame = some activation) :
    ∃ after, m.advance b = some after ∧ m.RejectedByDepth i next after := by
  obtain ⟨waiting, rest, f, t⟩ := m
  subst issued
  have advanced := advanceInvocation (b := b) waiting i next f t
  have shallow : entering? b ⟨waiting, i.program next, f, t⟩ i = none := if_neg (Nat.not_lt_of_le deepest.ge)
  have performed := Invocation.performEntered admitted
  obtain ⟨meter, charged⟩ := i.addressedCharges f
  simp only [charged] at performed
  simp only [invoke, shallow, performed] at advanced
  exact ⟨_, advanced, rfl, rfl, rfl, _, rfl, rfl, rfl, rfl⟩

end Machine

/-! The same bound on what was interpreted, as the trace tells it. -/

def Trace.NoDeeper (bound : Nat) (t : Trace ν) : Prop :=
  ∀ depth activation items ending meter commitFault,
    t.Within (.ran depth activation items ending meter commitFault) → depth ≤ bound

namespace Trace

theorem noDeeperRan {bound depth : Nat} (fits : depth ≤ bound) {items : Trace ν} (inside : items.NoDeeper bound)
    (activation : Activation) (ending : Ending) (meter : Meter) (commitFault : Option Fault) :
    NoDeeper bound [.ran depth activation items ending meter commitFault] := by
  intro other a t e m c found
  cases found with
  | here _ => exact fits
  | later _ found => cases found
  | inside _ found => exact inside other a t e m c found

theorem noDeeperThen {bound : Nat} {inside t : Trace ν} (before : inside.NoDeeper bound) (later : t.NoDeeper bound)
    (op : Operation) (answer : op.Answer) : (inside ++ .performed op answer :: t).NoDeeper bound := by
  intro depth a items e m c found
  rcases withinAppend found with first | second
  · exact before depth a items e m c first
  · cases second with
    | later _ found => exact later depth a items e m c found
    | inside _ found => cases found

end Trace

theorem Invocation.performNoDeeper {bound : Nat} {level : Level ν E} (room : level.enter ≠ none → level.depth < bound)
    (below : level.Traces fun _ t _ => t.NoDeeper bound) (f : Frame E) (i : Invocation) :
    (i.perform level f).2.2.NoDeeper bound := by
  have ended := i.performEnded level f
  generalize i.perform level f = result at ended
  cases ended with
  | starved | declined =>
    intro depth a items e m c found
    cases found
  | underivable =>
    intro depth a items e m c found
    cases found with
    | later _ found => cases found
    | inside _ found => cases found
  | ran activation callee meter admitted runs =>
    obtain ⟨child, -, inside⟩ := Level.calleeTraced below runs
    refine Trace.noDeeperRan (room fun none => ?_) inside activation callee.ending callee.meter _
    simp only [Level.callee?, none, Option.bind_eq_bind, Option.bind_none, reduceCtorEq] at runs

namespace Boundary

variable (b)

theorem execNoDeeper {bound room depth : Nat} (fits : depth + room ≤ bound)
    (below : (b.level room depth : Level ν E).Traces fun _ t _ => t.NoDeeper bound) (p : Program ν (Option Bytes))
    (f : Frame E) : (p.exec (b.level room depth) f).trace.NoDeeper bound := by
  have deeper : (b.level room depth : Level ν E).enter ≠ none → (b.level room depth : Level ν E).depth < bound := by
    cases room with
    | zero => exact fun other => (other rfl).elim
    | succ inner => exact fun _ => by rw [levelDepth]; omega
  refine p.execTraces (R := fun _ t _ => t.NoDeeper bound) ?_ ?_ ?_ f
  · intro f depth a items e m c found
    cases found
  · intro f after t n later depth a items e m c found
    cases found with
    | later _ found => exact later depth a items e m c found
    | inside _ found => cases found
  · intro f after t op later
    refine Trace.noDeeperThen ?_ later op _
    cases op with
    | call c => exact Invocation.performNoDeeper deeper below f (.call c)
    | deploy d => exact Invocation.performNoDeeper deeper below f (.deploy d)
    | query _ | update _ | ask _ | consumeGas _ | setGasLimit _ | commit =>
      intro depth a items e m c found
      cases found

theorem levelNoDeeper {bound : Nat} (room depth : Nat) (fits : depth + room ≤ bound) :
    (b.level room depth : Level ν E).Traces fun _ t _ => t.NoDeeper bound := by
  induction room generalizing depth with
  | zero =>
    intro run runs
    cases runs
  | succ inner ih =>
    intro run runs host activation
    cases runs
    exact b.execNoDeeper (by omega) (ih (depth + 1) (by omega)) (b.interpreter activation) _

end Boundary

namespace Launch

def machine? (b : Boundary ν) (host : E) (l : Launch) : Option (Machine ν E) :=
  (l.admitted? b host).map fun activation =>
    ⟨[], b.interpreter activation, Frame.ofLimit (l.prepared host) activation.gasLimit, []⟩

def concluded (l : Launch) (activation : Activation) (finished : Finished ν E) : Outcome × E × Trace ν :=
  let report := finished.report l.invocation.attempt activation.gasLimit finished.result
  (Outcome.ofReport activation.contract report finished.result, finished.host,
    [.ran 0 activation finished.trace finished.ending finished.meter none])

theorem runNoDeeper (b : Boundary ν) (host : E) (l : Launch) :
    (l.run b host).2.2.NoDeeper b.settings.maxCallDepth.toNat := by
  have ended := l.runEnded b host
  generalize l.run b host = result at ended
  cases ended with
  | declined failure absent =>
    intro depth a items e m c found
    cases found
  | ran activation admitted =>
    have fits := Nat.le_of_eq (Nat.zero_add b.settings.maxCallDepth.toNat)
    have inside := b.execNoDeeper fits (b.levelNoDeeper _ 0 fits) (b.interpreter activation)
      (Frame.ofLimit (l.prepared host) activation.gasLimit)
    exact Trace.noDeeperRan (Nat.zero_le _) inside activation _ _ none

/-- Every launch ends. What is run for it, if anything is, comes after finitely many steps to the end of its
outermost frame, from which its outcome is drawn; nothing is interpreted below the greatest depth,
and what is admitted there is rejected by depth. -/
theorem endsWithinDepth (b : Boundary ν) (host : E) (l : Launch) :
    (l.run b host).2.2.NoDeeper b.settings.maxCallDepth.toNat ∧
      (l.machine? b host = none → (l.run b host).2 = (host, [])) ∧
      ∀ start, l.machine? b host = some start →
        (∃ activation finished, Machine.ended [] [] finished ∈ eval (Machine.advance b) start ∧
          l.run b host = l.concluded activation finished) ∧
        ∀ m, Reaches (Machine.advance b) start m → m.depth ≤ b.settings.maxCallDepth.toNat ∧
          ∀ i next activation, m.rest = i.program next → m.depth = b.settings.maxCallDepth.toNat →
            i.admitted? (m.level b) m.frame = some activation →
              ∃ after, m.advance b = some after ∧ m.RejectedByDepth i next after := by
  refine ⟨l.runNoDeeper b host, ?_⟩
  have ended := l.runEnded b host
  generalize l.run b host = result at ended
  cases ended with
  | declined failure absent =>
    refine ⟨fun _ => rfl, fun start starts => ?_⟩
    rw [machine?, absent] at starts
    cases starts
  | ran activation admitted =>
    have machine : l.machine? b host = some _ := congrArg (Option.map _) admitted
    refine ⟨fun none => ?_, fun start starts => ?_⟩
    · rw [machine] at none
      cases none
    · rw [machine] at starts
      cases starts
      refine ⟨⟨activation, _, mem_eval.mpr ⟨?_, ?_⟩, rfl⟩, fun m reached => ?_⟩
      · exact Machine.execReaches (Machine.reaching b.settings.maxCallDepth.toNat [] (Nat.zero_add _))
          (b.interpreter activation) (Frame.ofLimit (l.prepared host) activation.gasLimit) []
      · exact Machine.advanceEnded [] [] _
      · exact ⟨Machine.reachesDepth (Nat.zero_le _) reached,
          fun i next inner issued deepest admitted => Machine.rejectedByDepth issued deepest admitted⟩

def descendCall : Call := ⟨Boundary.relayed, "descend", [], Amount.zero, [], 0⟩

def descent : Boundary Unit where
  settings := { Settings.standard with maxCallDepth := 2 }
  interpreter _ := do
    let _ ← Program.run (.call descendCall)
    let _ ← Program.run (.call descendCall)
    pure none

def descentLaunch : Launch := .execute Boundary.relayed "descend" [] 0

def descentStart : Machine Unit Overlay :=
  ⟨[], descent.interpreter (descendCall.activation [1] false), Frame.ofLimit Boundary.relayRoot 0, []⟩

theorem descentEnds :
    descentLaunch.machine? descent Boundary.relayRoot = some descentStart ∧
      (∃ activation finished, Machine.ended [] [] finished ∈ eval (Machine.advance descent) descentStart ∧
        descentLaunch.run descent Boundary.relayRoot = descentLaunch.concluded activation finished) ∧
      ∃ m next after, Reaches (Machine.advance descent) descentStart m ∧ m.depth = 2 ∧ m.advance descent = some after ∧
        m.RejectedByDepth (.call descendCall) next after := by
  have starts : descentLaunch.machine? descent Boundary.relayRoot = some descentStart := rfl
  obtain ⟨-, -, started⟩ := endsWithinDepth descent Boundary.relayRoot descentLaunch
  obtain ⟨ends, along⟩ := started descentStart starts
  -- Two calls lead from the first frame to the deepest one, which calls once more.
  obtain ⟨m, two, deepest, next, inner, issued, admitted⟩ :
      ∃ m, Reaches (Machine.advance descent) descentStart m ∧ m.depth = 2 ∧ ∃ next inner,
        m.rest = (Invocation.call descendCall).program next ∧
          (Invocation.call descendCall).admitted? (m.level descent) m.frame = some inner :=
    ⟨_, .head rfl (.head rfl .refl), rfl, _, _, rfl, rfl⟩
  obtain ⟨after, advanced, rejected⟩ := (along m two).2 (.call descendCall) next inner issued deepest admitted
  exact ⟨starts, ends, m, next, after, two, deepest, advanced, rejected⟩

end Launch

end CallBoundary
