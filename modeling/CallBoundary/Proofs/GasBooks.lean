import CallBoundary.Proofs.Charges
import CallBoundary.Proofs.Postings
/-! The books of gas. Every call and every deployment in the report of a launch balances, as long as no new
limits are set: what it used and what it has left come to its limit. What it used is what is charged for
the frame that ran for it, and nothing where none did. -/
namespace CallBoundary

open Trace

structure Report.Balances (r : Report) (limit : Gas) : Prop where
  within : r.gasUsed ≤ limit
  sum : r.gasUsed.toNat + r.remainingGas.toNat = limit.toNat

theorem Report.wholeBalances {attempt : Attempt} {gasLimit gasUsed : Gas} {subs : List Report} {result : Result}
    (within : Gas.charged gasLimit gasUsed result ≤ gasLimit) :
    (whole attempt gasLimit gasUsed subs result).Balances gasLimit := by
  have used := wholeCharged attempt gasLimit gasUsed subs result
  have left : (whole attempt gasLimit gasUsed subs result).remainingGas =
      Gas.less gasLimit (whole attempt gasLimit gasUsed subs result).gasUsed := by cases result <;> rfl
  rw [← used] at within
  refine ⟨within, ?_⟩
  rw [left, Gas.lessToNat]
  exact Nat.add_sub_cancel' (UInt64.le_iff_toNat_le.mp within)

theorem Gas.chargedWithin {limit : Gas} {meter : Meter} (limited : limit ≠ 0) (own : meter.limit = limit)
    (ending : Ending) (commitFault : Option Fault) :
    charged limit meter.consumed (verdict ending meter commitFault) ≤ limit := by
  subst own
  cases exhausted : meter.exhausted with
  | true =>
    have starved : verdict ending meter commitFault = .error .outOfGas := if_pos exhausted
    rw [starved]
    exact UInt64.le_refl _
  | false =>
    have spared : meter.consumed ≤ meter.limit := by
      have passed := mt meter.exhaustedToNat.mpr (Bool.eq_false_iff.mp exhausted)
      have positive : 0 < meter.limit.toNat := Nat.pos_of_ne_zero fun zero => limited (UInt64.toNat_inj.mp zero)
      rw [UInt64.le_iff_toNat_le]
      omega
    unfold charged
    split
    · exact UInt64.le_refl _
    · exact spared

def Invocation.charge (i : Invocation) : Option Upshot → Gas
  | none => 0
  | some upshot => Gas.charged i.gasLimit upshot.consumed upshot.result

variable {ν E : Type}

def Trace.Posting.Booked (p : Posting ν) : Prop :=
  ∀ i, p.invocation? = some i →
    ∀ r ∈ p.records, r.gasUsed = i.charge p.upshot? ∧ (i.gasLimit ≠ 0 → r.Balances i.gasLimit)

namespace Invocation

theorem refusedBooked (i : Invocation) (fault : Fault) (frame : Option (Item ν)) :
    (i.posting (.error fault) frame).Booked := by
  intro j issued
  cases i <;> cases issued

theorem rejectedBooked {i : Invocation} {o : Outcome} (spared : o.result ≠ .error .outOfGas) :
    (i.posting (.ok o) (none : Option (Item ν))).Booked := by
  have free : Gas.charged i.gasLimit 0 o.result = 0 := by
    unfold Gas.charged
    split
    · rename_i starved
      exact (spared starved).elim
    · rfl
  have booked : (Report.whole i.attempt i.gasLimit 0 [] o.result).gasUsed = 0 ∧
      (i.gasLimit ≠ 0 → (Report.whole i.attempt i.gasLimit 0 [] o.result).Balances i.gasLimit) := by
    refine ⟨(Report.wholeCharged ..).trans free, fun _ => Report.wholeBalances ?_⟩
    rw [free]
    exact UInt64.zero_le
  intro j issued r listed
  cases i <;> cases issued <;> cases List.mem_singleton.mp listed <;> exact booked

theorem ranBooked {i : Invocation} (o : Outcome) {meter : Meter} (own : meter.limit = i.gasLimit) (depth : Nat)
    (activation : Activation) (items : Trace ν) (ending : Ending) (commitFault : Option Fault) :
    (i.posting (.ok o) (some (.ran depth activation items ending meter commitFault))).Booked := by
  have booked (subs : List Report) :
      let r := Report.whole i.attempt i.gasLimit meter.consumed subs (verdict ending meter commitFault)
      r.gasUsed = Gas.charged i.gasLimit meter.consumed (verdict ending meter commitFault) ∧
        (i.gasLimit ≠ 0 → r.Balances i.gasLimit) :=
    ⟨Report.wholeCharged .., fun limited => Report.wholeBalances (Gas.chargedWithin limited own ending commitFault)⟩
  intro j issued r listed
  cases i <;> cases issued <;> cases List.mem_singleton.mp listed <;> exact booked items.records

end Invocation

def Trace.BooksKept (t : Trace ν) : Prop := t.limitsSet = 0 → ∀ p, Posted p t.postings → p.Booked

theorem Trace.booksKeptNil : BooksKept ([] : Trace ν) := fun _ _ posted => (unposted posted).elim

theorem Trace.booksKeptCons {t : Trace ν} (later : Trace ν) {q : Posting ν} (listed : t.postings = q :: later.postings)
    (fewer : q.items.limitsSet + later.limitsSet ≤ t.limitsSet) (own : q.items.limitsSet = 0 → q.Booked)
    (inner : q.items.BooksKept) (rest : later.BooksKept) : t.BooksKept := by
  intro kept p posted
  rw [listed] at posted
  rcases postedCons posted with rfl | below | after
  · exact own (by omega)
  · exact inner (by omega) p below
  · exact rest (by omega) p after

namespace Invocation

theorem limitsSetThen (i : Invocation) (inside : Trace ν) (answer : Except Fault Outcome) (t : Trace ν) :
    (inside ++ i.performed answer :: t).limitsSet = inside.limitsSet + t.limitsSet := by
  cases i with
  | call c => exact Trace.limitsSetThen inside (.call c) answer t
  | deploy d => exact Trace.limitsSetThen inside (.deploy d) answer t

theorem unrunKept {i : Invocation} {answer : Except Fault Outcome} {inside t : Trace ν}
    (listed : (inside ++ i.performed answer :: t).postings = i.posting answer none :: t.postings)
    (booked : (i.posting answer (none : Option (Item ν))).Booked) (later : t.BooksKept) :
    (inside ++ i.performed answer :: t).BooksKept := by
  have empty := i.postingItems answer (none : Option (Item ν))
  refine Trace.booksKeptCons t listed ?_ (fun _ => booked) ?_ later
  · rw [empty, i.limitsSetThen]
    exact Nat.add_le_add_right (Nat.zero_le _) _
  · rw [empty]
    exact Trace.booksKeptNil

theorem ranKept {i : Invocation} (o : Outcome) {depth : Nat} {activation : Activation} {items t : Trace ν}
    {ending : Ending} {meter : Meter} {commitFault : Option Fault}
    (own : items.limitsSet = 0 → meter.limit = i.gasLimit) (inner : items.BooksKept) (later : t.BooksKept) :
    BooksKept (.ran depth activation items ending meter commitFault :: i.performed (.ok o) :: t) := by
  have frame := i.postingItems (.ok o) (some (.ran depth activation items ending meter commitFault))
  refine Trace.booksKeptCons t (i.postingsPerformed (.ok o) _ t) ?_ ?_ ?_ later
  · rw [frame]
    exact (i.limitsSetThen [.ran depth activation items ending meter commitFault] (.ok o) t).ge
  · rw [frame]
    exact fun kept => i.ranBooked o (own kept) depth activation items ending commitFault
  · rw [frame]
    exact inner

end Invocation

variable [Host E]

theorem Invocation.performKept (metering : Host.Metering E) {level : Level ν E}
    (limits : level.Traces fun f t after => t.limitsSet = 0 → after.meter.limit = f.meter.limit)
    (below : level.Traces fun _ t _ => t.BooksKept) (f : Frame E) (i : Invocation) {t : Trace ν} (later : t.BooksKept) :
    ((i.perform level f).2.2 ++ i.performed (i.perform level f).1 :: t).BooksKept := by
  have ended := i.performEnded level f
  have starved (o : Outcome) (answered : (i.perform level f).1 = .ok o) (gas : o.result = .error .outOfGas) :
      ∃ item, (i.perform level f).2.2 = [item] ∧ item.HasRun := i.performStarved metering answered gas
  generalize i.perform level f = result at ended starved
  cases ended with
  | starved fault meter absent reason =>
    exact i.unrunKept (i.postingsPerformed (.error fault) none t) (i.refusedBooked fault none) later
  | declined contract failure meter absent =>
    have spared : (Outcome.ofRejection contract i.attempt failure).result ≠ .error .outOfGas := by
      intro gas
      obtain ⟨item, none, -⟩ := starved _ rfl gas
      cases none
    exact i.unrunKept (i.postingsPerformed _ none t) (i.rejectedBooked spared) later
  | underivable activation fault host meter absent refused =>
    have spared : (Outcome.ofRejection activation.contract i.attempt (Failure.ofFault fault)).result ≠
        .error .outOfGas := by
      intro gas
      obtain ⟨item, other, ran⟩ := starved _ rfl gas
      cases other
      exact ran
    exact i.unrunKept (i.postingsPerformed _ none t) (i.rejectedBooked spared) later
  | ran activation callee meter admitted runs =>
    obtain ⟨gasLimit, -, -⟩ := admittedGiven admitted
    obtain ⟨child, -, inner⟩ := Level.calleeTraced below runs
    obtain ⟨child, -, limit⟩ := Level.calleeTraced limits runs
    exact i.ranKept _ (fun kept => (limit kept).trans gasLimit) inner later

theorem Boundary.tracingBooks (metering : Host.Metering E) (b : Boundary ν) :
    b.Tracing fun (_ : Frame E) t _ => t.BooksKept where
  stays f := Trace.booksKeptNil
  notes n later := by
    intro kept
    rw [limitsSetNoted] at kept
    exact later kept
  performs room depth below f after t op later := by
    have limits := (b.tracingLimit metering).below room depth
    cases op with
    | call c => exact Invocation.performKept metering limits below f (.call c) later
    | deploy d => exact Invocation.performKept metering limits below f (.deploy d) later
    | query _ | update _ | ask _ | consumeGas _ | setGasLimit _ | commit =>
      refine Trace.booksKeptCons t rfl ?_ (fun _ i issued => ?_) Trace.booksKeptNil later
      · rw [Trace.limitsSetThen]
        exact Nat.add_le_add_right (Nat.zero_le _) _
      · cases issued

namespace Launch

theorem runBooked (metering : Host.Metering E) (b : Boundary ν) (host : E) (l : Launch) :
    ∃ top, postings (l.traced (l.run b host)) = [top] ∧ (l.traced (l.run b host)).BooksKept := by
  have ended := l.runEnded b host
  have starved := l.runStarved b host
  generalize l.run b host = result at ended starved
  cases ended with
  | declined failure absent =>
    have spared : (Outcome.ofRejection l.contract l.invocation.attempt failure).result ≠ .error .outOfGas := by
      intro gas
      obtain ⟨item, none, -⟩ := starved gas
      cases none
    have listed := l.invocation.postingsPerformed (.ok (Outcome.ofRejection l.contract l.invocation.attempt failure))
      none ([] : Trace ν)
    exact ⟨_, listed, l.invocation.unrunKept listed (l.invocation.rejectedBooked spared) Trace.booksKeptNil⟩
  | ran activation admitted =>
    obtain ⟨-, -, gasLimit, -⟩ := Launch.admittedGiven admitted
    have inner := (b.tracingBooks metering).execTop (b.interpreter activation)
      (Frame.ofLimit (l.prepared host) activation.gasLimit)
    have limit := (b.tracingLimit metering).execTop (b.interpreter activation)
      (Frame.ofLimit (l.prepared host) activation.gasLimit)
    refine ⟨_, l.invocation.postingsPerformed _ _ [], ?_⟩
    exact l.invocation.ranKept _ (fun kept => (limit kept).trans gasLimit) inner Trace.booksKeptNil

/-- As long as no new limits are set, every call and every deployment that is read from the report of a launch, at
whatever position, is one that was issued at that position, and unless its limit is zero it balances: what
it used is within its limit and comes to it with what it has left. It used what its frame is
charged, and nothing if no frame ran for it. -/
theorem gasBooksBalance (metering : Host.Metering E) (b : Boundary ν) (host : E) (l : Launch)
    (countable : (l.run b host).1.Countable) (kept : (l.run b host).2.2.limitsSet = 0) :
    ∃ top r, postings (l.traced (l.run b host)) = [top] ∧ Report.decode (l.run b host).1.report = some r ∧
      ∀ path node a, r.descend? path = some node → node.attempt = some a → node.OfInvocation →
        ∃ p i, top.descend? path = some p ∧ p.invocation? = some i ∧
          a = { i.attempt with args := i.args.take Report.maxArgs } ∧
          node.gasUsed = i.charge p.upshot? ∧ (a.gasLimit ≠ 0 → node.Balances a.gasLimit) := by
  obtain ⟨whole, r, recorded, decoded, rfl, -⟩ := l.reportsBoundedRecord b host countable
  obtain ⟨top, listed, books⟩ := l.runBooked metering b host
  refine ⟨top, _, listed, decoded, ?_⟩
  intro path node a found attempted invoked
  have member : whole ∈ top.records := by
    have all : (l.traced (l.run b host)).records = [top].flatMap Posting.records := listed ▸ postingsRecorded _ none
    rw [recorded, List.flatMap_singleton] at all
    exact all ▸ List.mem_singleton_self whole
  obtain ⟨original, levels, reached, rfl⟩ := Report.boundedDescend found
  obtain ⟨p, behind, noted⟩ := Posting.descendRecorded member reached
  obtain ⟨clipped, used, left⟩ := Report.boundKeeps levels original
  rcases recordedCases noted with ⟨i, o, issued, same⟩ | ⟨-, other⟩
  · have posted : Posted p (l.traced (l.run b host)).postings := listed ▸ postedOfDescend behind
    have unset : (l.traced (l.run b host)).limitsSet = 0 := (l.invocation.limitsSetThen _ _ []).trans kept
    obtain ⟨charged, balances⟩ := books unset p posted i issued original noted
    have clippedAttempt : a = { i.attempt with args := i.args.take Report.maxArgs } := by
      rw [clipped, same, invocationAttempt] at attempted
      cases i <;> exact (Option.some.inj attempted).symm
    have limit : a.gasLimit = i.gasLimit := by
      rw [clippedAttempt]
      cases i <;> rfl
    refine ⟨p, i, behind, issued, clippedAttempt, used.trans charged, ?_⟩
    intro limited
    rw [limit] at limited ⊢
    obtain ⟨within, sum⟩ := balances limited
    exact ⟨used ▸ within, by rw [used, left]; exact sum⟩
  · exact (other (Report.clippedInvocation clipped invoked)).elim

def stallCall : Call := ⟨Boundary.relayed, "stall", [], Amount.zero, [], 1000⟩

def strayCall : Call := ⟨FixedBytes.last 20 [1], "pass", [], Amount.zero, [], 700⟩

def toll : Boundary Unit where
  settings := Settings.standard
  interpreter a :=
    match a.entry with
    | .method "pass" => do
      Program.consumeGas 300
      let _ ← Program.run (.call stallCall)
      let _ ← Program.run (.call strayCall)
      pure none
    | _ => do
      Program.consumeGas 2000
      pure none

def tollLaunch : Launch := .execute Boundary.relayed "pass" [] 9000

theorem tollSetsNoLimit (a : Activation) : (toll.interpreter a).SetsNoLimit := by
  have charge (gas : Gas) (next : Program Unit (Option Bytes)) (kept : next.SetsNoLimit) :
      (do Program.consumeGas gas; next : Program Unit (Option Bytes)).SetsNoLimit := by
    refine ⟨rfl, fun answer => ?_⟩
    cases answer with
    | error fault => trivial
    | ok _ => exact kept
  simp only [toll]
  split
  · exact charge 300 _ ⟨rfl, fun _ => ⟨rfl, fun _ => trivial⟩⟩
  · exact charge 2000 _ trivial

theorem tollBalances :
    (tollLaunch.run toll Boundary.relayRoot).1.Countable ∧
      (tollLaunch.run toll Boundary.relayRoot).2.2.limitsSet = 0 ∧
        ∃ r, Report.decode (tollLaunch.run toll Boundary.relayRoot).1.report = some r ∧ r.gasUsed = 300 ∧
          r.subs.map Report.gasUsed = [1000, 0] ∧
            ∀ path node a, r.descend? path = some node → node.attempt = some a → node.OfInvocation →
              a.gasLimit ≠ 0 → node.Balances a.gasLimit := by
  have countable : (tollLaunch.run toll Boundary.relayRoot).1.report.length < UInt64.size := by decide +kernel
  have kept := tollLaunch.runLimits tollSetsNoLimit Boundary.relayRoot
  have used : ((Report.decode (tollLaunch.run toll Boundary.relayRoot).1.report).map fun r =>
      (r.gasUsed, r.subs.map Report.gasUsed)) = some (300, [1000, 0]) := by decide +kernel
  obtain ⟨top, r, -, decoded, balances⟩ :=
    gasBooksBalance Overlay.metering toll Boundary.relayRoot tollLaunch countable kept
  rw [decoded, Option.map_some, Option.some.injEq, Prod.mk.injEq] at used
  refine ⟨countable, kept, r, decoded, used.1, used.2, ?_⟩
  intro path node a found attempted invoked limited
  obtain ⟨p, i, -, -, -, -, balanced⟩ := balances path node a found attempted invoked
  exact balanced limited

end Launch
end CallBoundary
