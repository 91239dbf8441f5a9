import CallBoundary.Proofs.Metering
import CallBoundary.Proofs.TopCommits
/-! Who runs, for whom, on whose behalf and with which amount. The frames that wait tell it: the one on top runs as the contract it
was entered for, called by the one below it, with what that one attached; who called first is what the root says. No
write and no commit changes any of this, nor what is known of the chain and of identities. -/
namespace CallBoundary

open StateTransition

-- What is told in an environment whatever has been written: its context and those of the environments below it, and
-- what the store holds that no contract can change.
structure Surroundings where
  contexts : List Context
  chain : Chain
  identities : Std.ExtTreeMap Address Identity

namespace Overlay

variable {o after : Overlay}

def surroundings (o : Overlay) : Surroundings :=
  ⟨(o.own :: o.below).map Layer.context, o.store.chain, o.store.identities⟩

theorem writesSurroundings (writes : WritesOnly o after) : after.surroundings = o.surroundings := by
  obtain ⟨changes, rfl⟩ := writes
  rfl

theorem commitSurroundings (o : Overlay) : o.commit.clear.surroundings = o.surroundings := by
  obtain ⟨own, below, store⟩ := o
  cases below <;> rfl

theorem openedSurroundings {activation : Activation} {amount : Amount} {child : Overlay}
    (opened : activation.opened? o amount = some child) :
    child.surroundings =
      { o.surroundings with contexts := o.childContext activation.contract amount :: o.surroundings.contexts } :=
  writesSurroundings (openedAsChild opened)

end Overlay

variable {ν : Type}

namespace Frame

theorem stepSurroundings (level : Level ν Overlay) (guarantees : level.Guarantees Confined) (f : Frame Overlay)
    (op : Operation) : (f.step level op).2.1.host.surroundings = f.host.surroundings := by
  by_cases nested : op = .commit → 0 < level.depth
  · exact Overlay.writesSurroundings (f.stepWritesOnly level guarantees op nested)
  · obtain ⟨rfl, top⟩ := Classical.not_imp.mp nested
    have goes := topCommitGoes (Nat.eq_zero_of_not_pos top)
      (show Host.commit f.host = (.ok (), f.host.commit) from rfl)
    rw [goes]
    exact f.host.commitSurroundings

-- A read that has this answer whenever the meter allows it, and otherwise fails for want of gas.
def Tells (f : Frame Overlay) (q : Query) (value : q.Answer) : Prop :=
  if (f.query q).2.meter.exhausted then (f.query q).1 = .error .outOfGas
  else ∃ gasUsed, (f.query q).1 = .ok ⟨value, gasUsed⟩

theorem tellsAnswer (f : Frame Overlay) {q : Query} {value : q.Answer} (accepted : Overlay.queryFault? q = none)
    (answer : f.host.answer q = value) : f.Tells q value := by
  subst answer
  unfold Tells
  cases exhausted : f.meter.exhausted with
  | true =>
    rw [queryExhausted exhausted, if_pos exhausted]
  | false =>
    rw [querySpared exhausted, recordIfMeter]
    simp only [Host.query, Overlay.query, accepted]
    cases charged : (f.meter.consumeAll (f.host.queryCharges q)).exhausted with
    | true => simp only [charged, if_true, metered]
    | false => simp [charged, metered]

theorem toldUnlimited {f : Frame Overlay} (unlimited : f.meter.limit = 0) {q : Query} {value : q.Answer}
    (told : f.Tells q value) : ∃ gasUsed, (f.query q).1 = .ok ⟨value, gasUsed⟩ := by
  have still : (f.query q).2.meter.limit = 0 := (queryLimit Overlay.metering f q).trans unlimited
  have spared : (f.query q).2.meter.exhausted = false := by
    rw [Meter.exhausted, still]
    rfl
  rwa [Tells, spared] at told

end Frame

namespace Machine

def activationAbove (first : Activation) : List (Suspended ν) → Activation
  | [] => first
  | caller :: _ => caller.activation

-- At the bottom the context of the root, and further up what the invocation says that the frame was entered for.
def contextAbove (root : Context) (first : Activation) : List (Suspended ν) → Context
  | [] => ⟨first.contract, root.caller, root.originalCaller, root.payAmount⟩
  | caller :: waiting =>
    ⟨caller.activation.contract, (activationAbove first waiting).contract, root.originalCaller, caller.invocation.amount⟩

def contextsAbove (o : Overlay) (first : Activation) : List (Suspended ν) → List Context
  | [] => o.surroundings.contexts
  | caller :: waiting => contextAbove o.own.context first (caller :: waiting) :: contextsAbove o first waiting

def Placed (o : Overlay) (first : Activation) (m : Machine ν Overlay) : Prop :=
  m.frame.host.surroundings = { o.surroundings with contexts := contextsAbove o first m.waiting }

variable {b : Boundary ν} {o : Overlay} {first : Activation} {m after : Machine ν Overlay}

theorem contextsNonempty (own : o.contract = first.contract) (waiting : List (Suspended ν)) :
    ∃ rest, contextsAbove o first waiting = contextAbove o.own.context first waiting :: rest := by
  cases waiting with
  | nil =>
    refine ⟨o.below.map Layer.context, ?_⟩
    rw [contextAbove, ← own]
    rfl
  | cons caller waiting => exact ⟨_, rfl⟩

theorem placedContext (own : o.contract = first.contract) (placed : m.Placed o first) :
    m.frame.host.own.context = contextAbove o.own.context first m.waiting := by
  obtain ⟨rest, contexts⟩ := contextsNonempty own m.waiting
  have same : m.frame.host.surroundings.contexts = contextsAbove o first m.waiting :=
    congrArg Surroundings.contexts placed
  rw [contexts] at same
  exact (List.cons.inj same).1

theorem contextAgain (root : Context) (first : Activation) (waiting : List (Suspended ν)) :
    (contextAbove root first waiting).contract = (activationAbove first waiting).contract ∧
      (contextAbove root first waiting).originalCaller = root.originalCaller := by
  cases waiting <;> exact ⟨rfl, rfl⟩

theorem advancePlaced (own : o.contract = first.contract) (placed : m.Placed o first)
    (advanced : m.advance b = some after) : after.Placed o first := by
  cases advanceCases advanced with
  | noted n next issued => exact placed
  | performed op next issued => exact (m.frame.stepSurroundings (m.level b) (b.confined 0 m.depth) op).trans placed
  | underivable i next issued entering refused =>
    obtain rfl := Overlay.deriveRefused refused
    exact placed
  | @entered i next activation child issued entering opened =>
    obtain ⟨contract, origin⟩ := contextAgain o.own.context first m.waiting
    have context : m.frame.host.childContext activation.contract i.amount =
        ⟨activation.contract, (activationAbove first m.waiting).contract, o.own.context.originalCaller, i.amount⟩ := by
      rw [← contract, ← origin, ← placedContext own placed]
      rfl
    refine (Overlay.openedSurroundings opened).trans ?_
    rw [placed, context]
    rfl
  | returned ending ended resumed =>
    obtain ⟨caller, waits, closed⟩ := resumeCases resumed
    obtain ⟨rest, contexts⟩ := contextsNonempty own after.waiting
    rw [Placed, waits] at placed
    have stacked : m.frame.host.own.context :: m.frame.host.below.map Layer.context =
        contextAbove o.own.context first (caller :: after.waiting) :: contextsAbove o first after.waiting :=
      congrArg Surroundings.contexts placed
    have inner := (List.cons.inj stacked).2
    cases nested : m.frame.host.below with
    | nil =>
      rw [nested, contexts] at inner
      cases inner
    | cons layer layers =>
      obtain ⟨changes, uncovered⟩ := Frame.closeUncovers ⟨m.frame, ending, m.trace⟩ nested
      rw [nested] at inner
      rw [Placed, closed, uncovered, ← inner]
      exact congrArg (fun s : Surroundings => { s with contexts := (layer :: layers).map Layer.context }) placed

theorem reachesPlaced (own : o.contract = first.contract) (placed : m.Placed o first)
    (reached : Reaches (advance b) m after) : after.Placed o first := by
  induction reached with
  | refl => exact placed
  | tail before step ih => exact advancePlaced own ih step

end Machine

namespace Frame

structure TellsContext (f : Frame Overlay) (context : Context) : Prop where
  contract : f.Tells .contractAddress context.contract
  caller : f.Tells .caller context.caller
  originalCaller : f.Tells .originalCaller context.originalCaller
  payAmount : f.Tells .payAmount context.payAmount

structure TellsChain (f : Frame Overlay) (chain : Chain) : Prop where
  blockNumber : f.Tells .blockNumber chain.blockNumber
  blockTimestamp : f.Tells .blockTimestamp chain.blockTimestamp
  blockSeed : f.Tells .blockSeed chain.blockSeed
  epoch : f.Tells .epoch chain.epoch
  minFeePerGas : f.Tells .minFeePerGas chain.minFeePerGas
  networkSize : f.Tells .networkSize chain.networkSize
  blockHeader : ∀ height, f.Tells (.blockHeader height) chain.headers[height]?
  globalState : f.Tells .globalState chain.globalState

structure TellsIdentities (f : Frame Overlay) (identities : Std.ExtTreeMap Address Identity) : Prop where
  state : ∀ address, f.Tells (.identityState address) (identities[address]?.elim 0 Identity.state)
  data : ∀ address, f.Tells (.identity address) (identities[address]?.map Identity.data)

theorem tellsContext (f : Frame Overlay) : f.TellsContext f.host.own.context where
  contract := f.tellsAnswer rfl rfl
  caller := f.tellsAnswer rfl rfl
  originalCaller := f.tellsAnswer rfl rfl
  payAmount := f.tellsAnswer rfl rfl

theorem tellsChain (f : Frame Overlay) : f.TellsChain f.host.store.chain where
  blockNumber := f.tellsAnswer rfl rfl
  blockTimestamp := f.tellsAnswer rfl rfl
  blockSeed := f.tellsAnswer rfl rfl
  epoch := f.tellsAnswer rfl rfl
  minFeePerGas := f.tellsAnswer rfl rfl
  networkSize := f.tellsAnswer rfl rfl
  blockHeader _ := f.tellsAnswer rfl rfl
  globalState := f.tellsAnswer rfl rfl

theorem tellsIdentities (f : Frame Overlay) : f.TellsIdentities f.host.store.identities where
  state _ := f.tellsAnswer rfl rfl
  data _ := f.tellsAnswer rfl rfl

end Frame

namespace Launch

theorem startedPlaced {b : Boundary ν} {o : Overlay} {l : Launch} {first : Activation} {start : Machine ν Overlay}
    (admitted : l.admitted? b o = some first) (starts : l.machine? b o = some start) :
    start.Placed o first ∧ start.rest = b.interpreter first := by
  rw [machine?, admitted] at starts
  cases starts
  cases l <;> exact ⟨rfl, rfl⟩

/-- At every state of the run of a launch in the environment of its contract, the frame on top is told the contract of its own
activation, as its caller that of the frame that invoked it, as its amount what was attached to that invocation,
and as its original caller the root's; the first frame is told what the root says. What any frame is told of
the chain and of identities is what the store held when the run began. -/
theorem contextsFollowInvocations (b : Boundary ν) (o : Overlay) (l : Launch) (own : o.contract = l.contract)
    {start : Machine ν Overlay} (starts : l.machine? b o = some start) :
    ∃ first, l.admitted? b o = some first ∧ start.rest = b.interpreter first ∧
      (∃ last, last ∈ eval (Machine.advance b) start ∧ last.frame.host = (l.run b o).2.1) ∧
      ∀ m, Reaches (Machine.advance b) start m →
        m.frame.TellsContext (Machine.contextAbove o.own.context first m.waiting) ∧
        m.frame.TellsChain o.store.chain ∧ m.frame.TellsIdentities o.store.identities := by
  obtain ⟨first, admitted, -⟩ := Option.map_eq_some_iff.mp starts
  obtain ⟨placed, runs⟩ := startedPlaced admitted starts
  have entered : o.contract = first.contract := own.trans (admittedGiven admitted).1.symm
  refine ⟨first, admitted, runs, startedEnds starts, ?_⟩
  intro m reached
  have there := Machine.reachesPlaced entered placed reached
  have chain : m.frame.host.store.chain = o.store.chain := congrArg Surroundings.chain there
  have identities : m.frame.host.store.identities = o.store.identities := congrArg Surroundings.identities there
  rw [← Machine.placedContext entered there, ← chain, ← identities]
  exact ⟨m.frame.tellsContext, m.frame.tellsChain, m.frame.tellsIdentities⟩

def patron : Address := FixedBytes.last 20 [1]

def steward : Address := FixedBytes.last 20 [2]

def guest : Address := FixedBytes.last 20 [3]

def household : Boundary Unit where
  settings := Settings.standard
  interpreter a := do
    if a.contract = patron then
      let _ ← Program.run (.call ⟨steward, "receive", [], ⟨11, by decide⟩, [], 0⟩)
    else if a.contract = steward then
      let _ ← Program.run (.call ⟨guest, "receive", [], ⟨3, by decide⟩, [], 0⟩)
    pure none

def householdRoot : Overlay :=
  Overlay.root Settings.standard ⟨patron, FixedBytes.last 20 [4], FixedBytes.last 20 [5], Amount.zero⟩
    { balances := (∅ : Std.ExtTreeMap Address Amount).insert patron ⟨90, by decide⟩
      code := (((∅ : Std.ExtTreeMap Address Bytes).insert patron [1]).insert steward [1]).insert guest [1] }

def householdLaunch : Launch := .execute patron "give" [] 0

def householdCall : Activation := Call.activation ⟨patron, "give", Arguments.pack [], Amount.zero, [], 0⟩ [1] false

def householdStart : Machine Unit Overlay :=
  ⟨[], household.interpreter householdCall, Frame.ofLimit householdRoot 0, []⟩

theorem guestKnowsTheSteward :
    householdRoot.contract = householdLaunch.contract ∧
      householdLaunch.machine? household householdRoot = some householdStart ∧
      ∃ m, Reaches (Machine.advance household) householdStart m ∧ m.depth = 2 ∧
        (∃ gasUsed, (m.frame.query .contractAddress).1 = .ok ⟨guest, gasUsed⟩) ∧
        (∃ gasUsed, (m.frame.query .caller).1 = .ok ⟨steward, gasUsed⟩) ∧
        (∃ gasUsed, (m.frame.query .originalCaller).1 = .ok ⟨FixedBytes.last 20 [5], gasUsed⟩) ∧
        ∃ gasUsed, (m.frame.query .payAmount).1 = .ok ⟨⟨3, by decide⟩, gasUsed⟩ := by
  have own : householdRoot.contract = householdLaunch.contract := rfl
  have starts : householdLaunch.machine? household householdRoot = some householdStart := rfl
  obtain ⟨first, admitted, -, -, along⟩ := contextsFollowInvocations household householdRoot householdLaunch own starts
  have entered : householdLaunch.admitted? household householdRoot = some householdCall := rfl
  cases admitted.symm.trans entered
  -- Two calls lead from the patron to the guest.
  obtain ⟨m, two, deep, unlimited, context⟩ :
      ∃ m, Reaches (Machine.advance household) householdStart m ∧ m.depth = 2 ∧ m.frame.meter.limit = 0 ∧
        Machine.contextAbove householdRoot.own.context householdCall m.waiting =
          ⟨guest, steward, FixedBytes.last 20 [5], ⟨3, by decide⟩⟩ :=
    ⟨_, .head rfl (.head rfl .refl), rfl, rfl, rfl⟩
  obtain ⟨told, -, -⟩ := along m two
  rw [context] at told
  exact ⟨own, starts, m, two, deep, Frame.toldUnlimited unlimited told.contract, Frame.toldUnlimited unlimited told.caller,
    Frame.toldUnlimited unlimited told.originalCaller, Frame.toldUnlimited unlimited told.payAmount⟩

end Launch
end CallBoundary
