import CallBoundary.Overlay
import CallBoundary.Proofs.Bounding
import CallBoundary.Proofs.Launches
import CallBoundary.Proofs.Reading
/-! What outcomes tell. The report in an outcome can be read, and it says of the invocation what the
outcome says in its other fields; the caller of a nested invocation keeps that report and no other. All
this holds in any environment and whatever the frames called do. The bytes of a report have to
be such that they can be counted in 64 bits, as all that fit into a memory can. -/
namespace CallBoundary

namespace Outcome

def Countable (o : Outcome) : Prop := o.report.length < UInt64.size

structure Tells (o : Outcome) (r : Report) : Prop where
  decodes : Report.decode o.report = some r
  depth : r.depth ≤ Report.maxDepth
  success : r.success = o.isSuccess
  status : o.status = .ok ↔ r.success = true
  gasUsed : r.gasUsed = o.gasUsed
  returned : ∀ output, o.result = .ok output → r.error = "" ∧ r.output = output.getD []
  failed : ∀ failure, o.result = .error failure → r.error = failure.display ∧ r.output = []

theorem ofReportTells {contract : Address} {attempt : Attempt} {gasLimit gasUsed : Gas} {subs : List Report}
    {result : Result} {r : Report} (made : r = Report.ofInvocation attempt gasLimit gasUsed subs result)
    (countable : (ofReport contract r result).Countable) : (ofReport contract r result).Tells r := by
  have depth : r.depth ≤ Report.maxDepth := made ▸ Report.boundedDepth _
  have shallow : r.depth ≤ Wire.nestingLimit := Nat.le_trans depth (by decide)
  refine ⟨Report.decodeWritten shallow countable, depth, ?_, ?_, rfl, ?_, ?_⟩
  · subst made
    cases result <;> rfl
  · subst made
    cases result with
    | ok output => exact iff_of_true rfl rfl
    | error failure => cases failure <;> exact iff_of_false nofun nofun
  · rintro output ⟨⟩
    subst made
    exact ⟨rfl, rfl⟩
  · rintro failure ⟨⟩
    subst made
    exact ⟨rfl, rfl⟩

end Outcome

variable {ν E : Type} [Host E]

theorem Launch.outcomeTells (b : Boundary ν) (host : E) (l : Launch) (countable : (l.run b host).1.Countable) :
    ∃ r, (l.run b host).1.Tells r := by
  have ended := l.runEnded b host
  generalize l.run b host = result at ended countable
  cases ended with
  | declined failure absent => exact ⟨_, Outcome.ofReportTells rfl countable⟩
  | ran activation admitted => exact ⟨_, Outcome.ofReportTells rfl countable⟩

theorem Invocation.outcomeTells (level : Level ν E) (f : Frame E) (i : Invocation) {o : Outcome}
    (answered : (i.perform level f).1 = .ok o) (countable : o.Countable) :
    ∃ r, o.Tells r ∧ (i.perform level f).2.1.reports = f.reports ++ [r] := by
  have ended := i.performEnded level f
  generalize i.perform level f = result at ended answered
  cases ended with
  | starved fault meter absent reason => cases answered
  | declined contract failure meter absent =>
    cases answered
    exact ⟨_, Outcome.ofReportTells rfl countable, rfl⟩
  | underivable activation fault host meter absent refused =>
    cases answered
    exact ⟨_, Outcome.ofReportTells rfl countable, rfl⟩
  | ran activation callee meter admitted runs =>
    cases answered
    exact ⟨_, Outcome.ofReportTells rfl countable, rfl⟩

/-- Every outcome agrees with the report in it, from a launch as from a nested invocation at any
level; and of a nested one, that report is what its caller keeps. -/
theorem Boundary.outcomesTell (b : Boundary ν) :
    (∀ (host : E) (l : Launch), (l.run b host).1.Countable → ∃ r, (l.run b host).1.Tells r) ∧
      (∀ (level : Level ν E) (f : Frame E) (i : Invocation) (o : Outcome), (i.perform level f).1 = .ok o →
        o.Countable → ∃ r, o.Tells r ∧ (i.perform level f).2.1.reports = f.reports ++ [r]) :=
  ⟨fun host l countable => l.outcomeTells b host countable,
    fun level f i _ answered countable => i.outcomeTells level f answered countable⟩

namespace Boundary

def relayed : Address := FixedBytes.zero

def relayedCall : Call := ⟨relayed, "land", List.replicate 120 7, Amount.zero, [], 50000⟩

def relay : Boundary Unit where
  settings := Settings.standard
  interpreter a :=
    match a.entry with
    | .method "relay" => do
      let _ ← Program.run (.call relayedCall)
      let _ ← Program.update (.send relayed Amount.zero)
      pure (some [1])
    | _ => Program.panic none

def relayRoot : Overlay :=
  Overlay.root Settings.standard ⟨relayed, relayed, relayed, Amount.zero⟩
    { code := (∅ : Std.ExtTreeMap Address Bytes).insert relayed [1] }

def relayLaunch : Launch := .execute relayed "relay" [none] 100000

theorem relayTells :
    (∃ r, (relayLaunch.run relay relayRoot).1.Tells r) ∧
      ∃ o r, ((Invocation.call relayedCall).perform (relay.level 1 0) (Frame.ofLimit relayRoot 1000)).1 = .ok o ∧
        o.isSuccess = false ∧ o.Tells r := by
  have small : (relayLaunch.run relay relayRoot).1.report.length < UInt64.size := by decide +kernel
  have refused : ∃ o, ((Invocation.call relayedCall).perform (relay.level 1 0) (Frame.ofLimit relayRoot 1000)).1 = .ok o ∧
      o.isSuccess = false ∧ o.report.length < UInt64.size := ⟨_, rfl, by decide +kernel, by decide +kernel⟩
  obtain ⟨o, answered, failed, countable⟩ := refused
  obtain ⟨r, tells, -⟩ := (outcomesTell (E := Overlay) relay).2 _ _ _ o answered countable
  exact ⟨(outcomesTell relay).1 relayRoot relayLaunch small, o, r, answered, failed, tells⟩

end Boundary
end CallBoundary
