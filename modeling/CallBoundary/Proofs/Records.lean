import CallBoundary.Proofs.Outcomes
import CallBoundary.Proofs.Traces
/-! The record of a run, drawn from what happened in it and bounded nowhere: a frame that ran is
recorded with the gas its meter counted and with one record for each of the operations that are
reported, in the order in which it performed them, failed and rejected ones included. -/
namespace CallBoundary

namespace Trace

variable {ν : Type}

structure Upshot where
  result : Result
  consumed : Gas
  subs : List Report

def recordInvocation (i : Invocation) (ran : Option Upshot) (o : Outcome) : Report :=
  match ran with
  | some upshot => Report.whole i.attempt i.gasLimit upshot.consumed upshot.subs upshot.result
  | none => Report.whole i.attempt i.gasLimit 0 [] o.result

def recordAttempt {α : Type} (attempt : Attempt) : Except Fault (Metered α) → List Report
  | .ok answer => [{ attempt, success := true, gasUsed := answer.gasUsed }]
  | .error .outOfGas => []
  | .error fault => [{ attempt, error := (Failure.ofFault fault).display }]

def recordOperation (ran : Option Upshot) : (op : Operation) → op.Answer → List Report
  | .call c, .ok o => [recordInvocation (.call c) ran o]
  | .deploy d, .ok o => [recordInvocation (.deploy d) ran o]
  | .update (.send recipient amount), answer => recordAttempt (Attempt.ofTransfer recipient amount) answer
  | .query (.identity address), answer => recordAttempt (Attempt.ofIdentityRead address) answer
  | .query (.storageOf contract key), answer => recordAttempt (Attempt.ofDataRead contract key) answer
  | _, _ => []

def Item.activation? : Item ν → Option Activation
  | .ran _ activation _ _ _ _ => some activation
  | _ => none

mutual
def Item.upshot? : Item ν → Option Upshot
  | .ran _ _ items ending meter commitFault =>
    some ⟨verdict ending meter commitFault, meter.consumed, recordsAfter none items⟩
  | _ => none

def recordsAfter (latest : Option Upshot) : List (Item ν) → List Report
  | [] => []
  | .performed op answer :: rest => recordOperation latest op answer ++ recordsAfter none rest
  | item :: rest => recordsAfter item.upshot? rest
end

def records (t : Trace ν) : List Report := recordsAfter none t

def invocation? : (op : Operation) → op.Answer → Option Invocation
  | .call c, .ok _ => some (.call c)
  | .deploy d, .ok _ => some (.deploy d)
  | _, _ => none

mutual
def Item.issued : Item ν → List (Invocation × Option Activation)
  | .ran _ _ items _ _ _ => issuedAfter none items
  | _ => []

-- The calls and deployments that came to an outcome, at any depth, each with what the interpreter was given for it,
-- if a frame ran at all. `latest` is the frame that ran right before.
def issuedAfter (latest : Option Activation) : List (Item ν) → List (Invocation × Option Activation)
  | [] => []
  | .performed op answer :: rest => ((invocation? op answer).map (·, latest)).toList ++ issuedAfter none rest
  | item :: rest => item.issued ++ issuedAfter item.activation? rest
end

end Trace

open Trace

variable {ν E : Type} [Host E]

namespace Frame

omit [Host E] in
theorem recordIfReports {α : Type} (f : Frame E) (attempt : Option Attempt) (answer : Except Fault (Metered α)) :
    (f.recordIf attempt answer).reports = f.reports ++ attempt.elim [] fun a => Trace.recordAttempt a answer := by
  cases attempt with
  | none => simp [recordIf]
  | some attempt =>
    cases answer with
    | ok value => rfl
    | error fault => cases fault <;> simp [recordIf, Frame.recordAttempt, Trace.recordAttempt, record]

theorem queryReports (f : Frame E) (q : Query) :
    (f.query q).2.reports = f.reports ++ recordOperation none (.query q) (f.query q).1 := by
  have reported (answer : Except Fault (Metered q.Answer)) :
      recordOperation none (.query q) answer = (attemptOfQuery q).elim [] fun a => Trace.recordAttempt a answer := by
    cases q <;> rfl
  unfold query
  split
  · rw [reported]
    cases attemptOfQuery q <;> simp [Trace.recordAttempt]
  · rw [reported]
    exact recordIfReports _ _ _

theorem updateReports (f : Frame E) (u : Update) :
    (f.update u).2.reports = f.reports ++ recordOperation none (.update u) (f.update u).1 := by
  have reported (answer : Except Fault (Metered Unit)) :
      recordOperation none (.update u) answer = (attemptOfUpdate u).elim [] fun a => Trace.recordAttempt a answer := by
    cases u <;> rfl
  unfold update
  split
  · rw [reported]
    cases attemptOfUpdate u <;> simp [Trace.recordAttempt]
  · rw [reported]
    exact recordIfReports _ _ _

theorem commitReports (level : Level ν E) (f : Frame E) : (f.commit level).2.reports = f.reports := by
  unfold commit
  split
  · rfl
  · split <;> rfl

def Recorded (f : Frame E) (t : Trace ν) (after : Frame E) : Prop :=
  after.reports.map Report.bounded = (f.reports ++ records t).map Report.bounded

end Frame

namespace Invocation

theorem recordsPerformed (i : Invocation) (latest : Option Upshot) (answer : Except Fault Outcome) (t : Trace ν) :
    recordsAfter latest (i.performed answer :: t) =
      (match answer with
        | .ok o => [recordInvocation i latest o]
        | .error _ => []) ++ records t := by
  cases i <;> cases answer <;> simp [performed, recordsAfter, recordOperation, records]

theorem rejectionRecorded (i : Invocation) (contract : Address) (failure : Failure) :
    Report.ofRejection i.attempt failure =
      (recordInvocation i none (Outcome.ofRejection contract i.attempt failure)).bounded := by
  have limit : i.attempt.gasLimit = i.gasLimit := by cases i <;> rfl
  simp only [Report.ofRejection, Report.ofInvocation, limit]
  rfl

theorem performRecords {level : Level ν E} (below : level.Traces Frame.Recorded) (f : Frame E) (i : Invocation)
    (t : Trace ν) :
    let run := i.perform level f
    (run.2.1.reports ++ records t).map Report.bounded =
      (f.reports ++ records (run.2.2 ++ i.performed run.1 :: t)).map Report.bounded := by
  intro run
  have ended : Ended level f i run := i.performEnded level f
  generalize run = result at ended
  cases ended with
  | starved fault meter absent reason => simp [records, recordsPerformed]
  | declined contract failure meter absent =>
    simp [records, recordsPerformed, Frame.record, rejectionRecorded i contract, Report.boundedTwice]
  | underivable activation fault host meter absent refused =>
    simp [records, recordsPerformed, recordsAfter, Item.upshot?, Frame.record, rejectionRecorded i activation.contract,
      Report.boundedTwice]
  | ran activation callee meter admitted runs =>
    obtain ⟨limit, -, -⟩ := admittedGiven admitted
    obtain ⟨child, -, inside⟩ := Level.calleeTraced below runs
    have same : (callee.report i.attempt activation.gasLimit (Frame.close callee).1).bounded =
        (Report.whole i.attempt i.gasLimit callee.meter.consumed (records callee.trace) (Frame.close callee).1).bounded := by
      rw [limit, Finished.report, Report.ofInvocation, Report.boundedTwice]
      exact Report.wholeBounded inside i.attempt i.gasLimit callee.meter.consumed _
    simp [records, recordsPerformed, recordsAfter, Item.upshot?, Frame.record, recordInvocation, Frame.closeVerdict, same]

end Invocation

theorem Frame.stepRecords {level : Level ν E} (below : level.Traces Recorded) (f : Frame E) (op : Operation)
    (t : Trace ν) :
    ((f.step level op).2.1.reports ++ records t).map Report.bounded =
      (f.reports ++ records ((f.step level op).2.2 ++ .performed op (f.step level op).1 :: t)).map Report.bounded := by
  cases op with
  | query q => simp [step, queryReports, records, recordsAfter]
  | update u => simp [step, updateReports, records, recordsAfter]
  | ask p => simp [step, records, recordsAfter, recordOperation]
  | consumeGas gas => simp [step, consumeGas, records, recordsAfter, recordOperation]
  | setGasLimit limit => simp [step, records, recordsAfter, recordOperation]
  | commit => simp [step, commitReports, records, recordsAfter, recordOperation]
  | call c => exact Invocation.performRecords below f (.call c) t
  | deploy d => exact Invocation.performRecords below f (.deploy d) t

theorem Boundary.tracingRecords (b : Boundary ν) : b.Tracing (Frame.Recorded (ν := ν) (E := E)) where
  stays f := by simp [Frame.Recorded, records, recordsAfter]
  notes n later := by simpa [Frame.Recorded, records, recordsAfter, Item.upshot?] using later
  performs room depth below f after t op later := later.trans (f.stepRecords below op t)

end CallBoundary
