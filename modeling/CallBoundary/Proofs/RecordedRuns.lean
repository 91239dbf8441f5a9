import CallBoundary.Proofs.Records
/-! What outcomes report of whole runs: the bounded record, one bound on the whole tree, whatever the
depth at which things happened. In it every call and every deployment is found under the arguments it
was issued with, cut short; the interpreter was given all of them. -/
namespace CallBoundary

namespace Report

inductive Node : Report → Report → Prop
  | root (r : Report) : Node r r
  | inside {r sub node : Report} (member : sub ∈ r.subs) (deeper : Node sub node) : Node r node

theorem nodeOfBound {levels : Nat} {r node : Report} (bound : Node (boundBelow levels r) node) :
    ∃ original, Node r original ∧ node.attempt = original.attempt.map clipArgs := by
  induction levels generalizing r with
  | zero =>
    cases bound with
    | root _ => exact ⟨r, .root r, rfl⟩
    | inside member deeper => cases member
  | succ levels ih =>
    cases bound with
    | root _ => exact ⟨r, .root r, rfl⟩
    | inside member deeper =>
      obtain ⟨sub, present, rfl⟩ := List.mem_map.mp member
      obtain ⟨original, found, clipped⟩ := ih deeper
      exact ⟨original, .inside present found, clipped⟩

def OfInvocation (r : Report) : Prop :=
  ∃ a, r.attempt = some a ∧ (a.kind? = some .functionCall ∨ a.kind? = some .deployContract)

theorem clippedInvocation {node original : Report} (clipped : node.attempt = original.attempt.map clipArgs)
    (invoked : node.OfInvocation) : original.OfInvocation := by
  obtain ⟨a, same, kind⟩ := invoked
  rw [clipped] at same
  obtain ⟨attempt, known, rfl⟩ := Option.map_eq_some_iff.mp same
  exact ⟨attempt, known, kind⟩

end Report

namespace Trace

variable {ν : Type}

def issued (t : Trace ν) : List (Invocation × Option Activation) := issuedAfter none t

def ArgsWhole (t : Trace ν) : Prop := ∀ i a, (i, some a) ∈ t.issued → a.args = i.args

theorem recordedCases {op : Operation} {answer : op.Answer} {latest : Option Upshot} {r : Report}
    (member : r ∈ recordOperation latest op answer) :
    (∃ i o, invocation? op answer = some i ∧ r = recordInvocation i latest o) ∨ r.subs = [] ∧ ¬ r.OfInvocation := by
  have other {α : Type} {attempt : Attempt} {answer : Except Fault (Metered α)} (kind : Attempt.Kind)
      (listed : r ∈ recordAttempt attempt answer) (known : attempt.kind? = some kind)
      (distinct : kind ≠ .functionCall ∧ kind ≠ .deployContract) : r.subs = [] ∧ ¬ r.OfInvocation := by
    have lone : r.subs = [] ∧ r.attempt = some attempt := by
      unfold recordAttempt at listed
      split at listed
      · cases List.mem_singleton.mp listed
        exact ⟨rfl, rfl⟩
      · cases listed
      · cases List.mem_singleton.mp listed
        exact ⟨rfl, rfl⟩
    refine ⟨lone.1, ?_⟩
    rintro ⟨a, same, invoked⟩
    rw [lone.2] at same
    cases same
    rw [known] at invoked
    exact invoked.elim (fun same => distinct.1 (Option.some.inj same)) fun same => distinct.2 (Option.some.inj same)
  unfold recordOperation at member
  split at member
  · rename_i c o
    exact .inl ⟨.call c, o, rfl, List.mem_singleton.mp member⟩
  · rename_i d o
    exact .inl ⟨.deploy d, o, rfl, List.mem_singleton.mp member⟩
  · exact .inr (other .transfer member rfl (by decide))
  · exact .inr (other .readIdentity member rfl (by decide))
  · exact .inr (other .readContractData member rfl (by decide))
  · cases member

theorem invocationAttempt (i : Invocation) (latest : Option Upshot) (o : Outcome) :
    (recordInvocation i latest o).attempt = some i.attempt := by
  cases latest with
  | none => cases answered : o.result <;> simp only [recordInvocation, Report.whole, answered]
  | some upshot => cases ended : upshot.result <;> simp only [recordInvocation, Report.whole, ended]

theorem invocationSubs (i : Invocation) (latest : Option Upshot) (o : Outcome) :
    (recordInvocation i latest o).subs = latest.elim [] Upshot.subs := by
  cases latest <;> exact congrArg Report.subs (Report.wholeSubs ..)

theorem invocationNode {i : Invocation} {latest : Option Upshot} {o : Outcome} {node : Report}
    (found : Report.Node (recordInvocation i latest o) node) :
    node.attempt = some i.attempt ∨ ∃ upshot sub, latest = some upshot ∧ sub ∈ upshot.subs ∧ Report.Node sub node := by
  cases found with
  | root _ => exact .inl (invocationAttempt i latest o)
  | inside member deeper =>
    rw [invocationSubs] at member
    cases latest with
    | none => cases member
    | some upshot => exact .inr ⟨upshot, _, rfl, member, deeper⟩

theorem operationNode {op : Operation} {answer : op.Answer} {latest : Option Upshot} {r node : Report}
    (member : r ∈ recordOperation latest op answer) (found : Report.Node r node) (reported : node.OfInvocation) :
    (∃ i, invocation? op answer = some i ∧ node.attempt = some i.attempt) ∨
      ∃ upshot sub, latest = some upshot ∧ sub ∈ upshot.subs ∧ Report.Node sub node := by
  rcases recordedCases member with ⟨i, o, invoked, rfl⟩ | ⟨leaf, other⟩
  · exact (invocationNode found).imp_left fun attempt => ⟨i, invoked, attempt⟩
  · cases found with
    | root _ => exact (other reported).elim
    | inside sub deeper =>
      rw [leaf] at sub
      cases sub

theorem recordNode {t : Trace ν} {latest : Option Upshot} (last : Option Activation) {r node : Report}
    (member : r ∈ recordsAfter latest t) (found : Report.Node r node) (reported : node.OfInvocation) :
    (∃ i ran, (i, ran) ∈ issuedAfter last t ∧ node.attempt = some i.attempt) ∨
      ∃ upshot sub, latest = some upshot ∧ sub ∈ upshot.subs ∧ Report.Node sub node := by
  induction t using nestedInduction generalizing latest last r with
  | nil => cases member
  | noted n rest ih =>
    rcases ih none member found with issued | ⟨_, _, none, -⟩
    · exact .inl issued
    · cases none
  | performed op answer rest ih =>
    rw [recordsAfter, List.mem_append] at member
    rw [issuedAfter]
    rcases member with own | later
    · rcases operationNode own found reported with ⟨i, invoked, attempt⟩ | below
      · refine .inl ⟨i, last, List.mem_append_left _ ?_, attempt⟩
        rw [invoked]
        exact List.mem_singleton.mpr rfl
      · exact .inr below
    · rcases ih none later found with ⟨i, ran, issued, attempt⟩ | ⟨_, _, none, -⟩
      · exact .inl ⟨i, ran, List.mem_append_right _ issued, attempt⟩
      · cases none
  | underivable contract fault rest ih =>
    rcases ih none member found with issued | ⟨_, _, none, -⟩
    · exact .inl issued
    · cases none
  | ran depth activation items ending meter commitFault rest inner outer =>
    simp only [issuedAfter, Item.issued, Item.activation?]
    rcases outer (some activation) member found with ⟨i, ran, issued, attempt⟩ | ⟨upshot, sub, same, present, deeper⟩
    · exact .inl ⟨i, ran, List.mem_append_right _ issued, attempt⟩
    · -- The record goes on in the frame that ran right before.
      cases same
      rcases inner none present deeper with ⟨i, ran, issued, attempt⟩ | ⟨_, _, none, -⟩
      · exact .inl ⟨i, ran, List.mem_append_left _ issued, attempt⟩
      · cases none

theorem argsWholeNil : ArgsWhole ([] : Trace ν) := fun _ _ absent => by cases absent

theorem issuedPerformed (i : Invocation) (latest : Option Activation) (answer : Except Fault Outcome) (t : Trace ν) :
    issuedAfter latest (i.performed answer :: t) =
      (match answer with
        | .ok _ => [(i, latest)]
        | .error _ => []) ++ issued t := by
  cases i <;> cases answer <;> simp [Invocation.performed, issuedAfter, invocation?, issued]

theorem argsWholeCons {i : Invocation} {latest : Option Activation} {answer : Except Fault Outcome} {t : Trace ν}
    (given : ∀ a, latest = some a → a.args = i.args) (later : t.ArgsWhole) (j : Invocation) (a : Activation)
    (member : (j, some a) ∈ issuedAfter latest (i.performed answer :: t)) : a.args = j.args := by
  rw [issuedPerformed, List.mem_append] at member
  rcases member with own | rest
  · cases answer with
    | error fault => cases own
    | ok o =>
      obtain ⟨rfl, same⟩ := Prod.mk.injEq .. ▸ List.mem_singleton.mp own
      exact given a same.symm
  · exact later j a rest

end Trace

open Trace

variable {ν E : Type} [Host E]

theorem Invocation.performArgs {level : Level ν E} (below : level.Traces fun _ t _ => t.ArgsWhole) (f : Frame E)
    (i : Invocation) {t : Trace ν} (later : t.ArgsWhole) :
    ((i.perform level f).2.2 ++ i.performed (i.perform level f).1 :: t).ArgsWhole := by
  have ended := i.performEnded level f
  generalize i.perform level f = result at ended
  cases ended with
  | starved fault meter absent reason => exact argsWholeCons nofun later
  | declined contract failure meter absent => exact argsWholeCons nofun later
  | underivable activation fault host meter absent refused => exact argsWholeCons nofun later
  | ran activation callee meter admitted runs =>
    obtain ⟨-, args, -⟩ := admittedGiven admitted
    obtain ⟨child, -, inside⟩ := Level.calleeTraced below runs
    have given (a : Activation) (same : some activation = some a) : a.args = i.args := by
      cases same
      exact args
    intro j a member
    rcases List.mem_append.mp member with inner | own
    · exact inside j a inner
    · exact argsWholeCons given later j a own

theorem Boundary.tracingArgs (b : Boundary ν) : b.Tracing fun (_ : Frame E) t _ => t.ArgsWhole where
  stays f := argsWholeNil
  notes n later := later
  performs room depth below f after t op later := by
    cases op with
    | call c => exact Invocation.performArgs below f (.call c) later
    | deploy d => exact Invocation.performArgs below f (.deploy d) later
    | query q | update u | ask p | consumeGas gas | setGasLimit limit | commit => exact later

namespace Launch

def traced (l : Launch) (run : Outcome × E × Trace ν) : Trace ν := run.2.2 ++ [l.invocation.performed (.ok run.1)]

theorem runReported (b : Boundary ν) (host : E) (l : Launch) :
    ∃ whole, records (l.traced (l.run b host)) = [whole] ∧ (l.run b host).1.report = whole.bounded.encode := by
  have ended := l.runEnded b host
  generalize l.run b host = result at ended
  cases ended with
  | declined failure absent =>
    refine ⟨_, l.invocation.recordsPerformed none _ [], ?_⟩
    rw [← l.invocation.rejectionRecorded]
    rfl
  | ran activation admitted =>
    obtain ⟨-, -, gasLimit, -⟩ := Launch.admittedGiven admitted
    refine ⟨_, l.invocation.recordsPerformed _ _ [], ?_⟩
    have inside := b.tracingRecords.execTop (b.interpreter activation)
      (Frame.ofLimit (l.prepared host) activation.gasLimit)
    simp only [Boundary.run, Item.upshot?, recordInvocation, verdictUncommitted, Finished.report, Report.ofInvocation,
      Outcome.ofReport]
    generalize (b.interpreter activation).exec b.top (Frame.ofLimit (l.prepared host) activation.gasLimit) = finished at inside ⊢
    rw [gasLimit]
    exact congrArg Report.encode (Report.wholeBounded inside _ _ _ _)

theorem runArgs (b : Boundary ν) (host : E) (l : Launch) : (l.traced (l.run b host)).ArgsWhole := by
  have ended := l.runEnded b host
  generalize l.run b host = result at ended
  cases ended with
  | declined failure absent => exact argsWholeCons nofun argsWholeNil
  | ran activation admitted =>
    obtain ⟨-, args, -, -⟩ := Launch.admittedGiven admitted
    have inside := b.tracingArgs.execTop (b.interpreter activation)
      (Frame.ofLimit (l.prepared host) activation.gasLimit)
    have given (a : Activation) (same : some activation = some a) : a.args = l.invocation.args := by
      cases same
      exact args
    intro j a member
    rcases List.mem_append.mp member with inner | own
    · exact inside j a inner
    · exact argsWholeCons given argsWholeNil j a own

/-- What is read from the report of a launch is the record of all that happened in it, bounded once. Each call and
each deployment in it is one that was issued, under the arguments it was issued with, cut to
the length that is kept; what was interpreted for it was given them uncut. -/
theorem reportsBoundedRecord (b : Boundary ν) (host : E) (l : Launch) (countable : (l.run b host).1.Countable) :
    ∃ whole r, records (l.traced (l.run b host)) = [whole] ∧ Report.decode (l.run b host).1.report = some r ∧
      r = whole.bounded ∧
      (∀ node, r.Node node → node.OfInvocation → ∃ i ran, (i, ran) ∈ issued (l.traced (l.run b host)) ∧
        node.attempt = some { i.attempt with args := i.args.take Report.maxArgs }) ∧
      (∀ i a, (i, some a) ∈ issued (l.traced (l.run b host)) → a.args = i.args) := by
  obtain ⟨whole, recorded, written⟩ := l.runReported b host
  have shallow : whole.bounded.depth ≤ Wire.nestingLimit := Nat.le_trans whole.boundedDepth (by decide)
  have decoded : Report.decode (l.run b host).1.report = some whole.bounded := by
    rw [Outcome.Countable, written] at countable
    rw [written]
    exact Report.decodeWritten shallow countable
  refine ⟨whole, whole.bounded, recorded, decoded, rfl, ?_, l.runArgs b host⟩
  intro node found reported
  obtain ⟨original, present, clipped⟩ := Report.nodeOfBound found
  have member : whole ∈ recordsAfter none (l.traced (l.run b host)) := by
    rw [← records, recorded]
    exact List.mem_singleton_self whole
  have invoked : original.OfInvocation := by
    obtain ⟨a, same, kind⟩ := reported
    rw [clipped] at same
    obtain ⟨attempt, known, rfl⟩ := Option.map_eq_some_iff.mp same
    exact ⟨attempt, known, kind⟩
  rcases recordNode none member present invoked with ⟨i, ran, listed, attempt⟩ | ⟨_, _, absent, -⟩
  · refine ⟨i, ran, listed, ?_⟩
    rw [clipped, attempt]
    cases i <;> rfl
  · cases absent

theorem relayReported :
    let traced := Boundary.relayLaunch.traced (Boundary.relayLaunch.run Boundary.relay Boundary.relayRoot)
    (Boundary.relayLaunch.run Boundary.relay Boundary.relayRoot).1.Countable ∧
      ∃ whole r, records traced = [whole] ∧ whole.subs.map Report.error = ["internal fault", ""] ∧
        Report.decode (Boundary.relayLaunch.run Boundary.relay Boundary.relayRoot).1.report = some r ∧ r = whole.bounded := by
  intro traced
  have countable : (Boundary.relayLaunch.run Boundary.relay Boundary.relayRoot).1.report.length < UInt64.size := by
    decide +kernel
  have errors : (records traced).map (fun r => r.subs.map Report.error) = [["internal fault", ""]] := by decide +kernel
  obtain ⟨whole, r, recorded, decoded, bounded, -⟩ := reportsBoundedRecord Boundary.relay Boundary.relayRoot
    Boundary.relayLaunch countable
  rw [recorded] at errors
  exact ⟨countable, whole, r, recorded, (List.cons.inj errors).1, decoded, bounded⟩

end Launch

end CallBoundary
