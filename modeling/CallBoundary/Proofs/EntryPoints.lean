import CallBoundary.Proofs.Authority
import CallBoundary.Proofs.Machine
import CallBoundary.Proofs.SideBySide
/-! Two ways into a contract, from outside and from a frame. What runs cannot tell which way it came, unless it uses its
standing or the depth stops it: it ends in the same way, and comes to the same writes and the same events, at
whatever level and on whatever chain of environments it runs. -/
namespace CallBoundary

variable {ν : Type}

/-! What tells levels from each other. -/

namespace Operation

def standingUsed : Operation → Nat
  | .query .caller | .query .originalCaller | .ask .depth | .commit => 1
  | _ => 0

def tooDeep : (op : Operation) → op.Answer → Bool
  | .call _, .ok outcome | .deploy _, .ok outcome =>
    match outcome.result with
    | .error failure => failure = .callDepthExceeded
    | .ok _ => false
  | _, _ => false

theorem standingUnused {op : Operation} (unused : op.standingUsed = 0) (uncalled : ∀ c, op ≠ call c)
    (undeployed : ∀ d, op ≠ deploy d) (own : Address) : op.Within (fun _ => True) False own := by
  cases op with
  | query q =>
    cases q with
    | caller | originalCaller => cases unused
    | _ => trivial
  | ask p =>
    cases p with
    | depth => cases unused
    | _ => trivial
  | update _ | consumeGas _ | setGasLimit _ => trivial
  | commit => cases unused
  | call c => exact (uncalled c rfl).elim
  | deploy d => exact (undeployed d rfl).elim

end Operation

namespace Trace

def standingUsed (t : Trace ν) : Nat := tally (fun op _ => op.standingUsed) (fun _ => true) t

theorem standingUsedThen (inside : Trace ν) (op : Operation) (answer : op.Answer) (t : Trace ν) :
    (inside ++ .performed op answer :: t).standingUsed = inside.standingUsed + op.standingUsed + t.standingUsed := by
  simp only [standingUsed, tallyAppend, tally, Item.tally, Nat.add_assoc]

theorem standingUsedNoted (n : ν) (t : Trace ν) : standingUsed (.noted n :: t) = t.standingUsed := by
  simp [standingUsed, tally, Item.tally]

theorem standingUsedRan (depth : Nat) (activation : Activation) (items : Trace ν) (ending : Ending) (meter : Meter)
    (commitFault : Option Fault) :
    standingUsed [.ran depth activation items ending meter commitFault] = items.standingUsed := by
  simp [standingUsed, tally, Item.tally]

def Item.isRan : Item ν → Bool
  | .ran _ _ _ _ _ _ => true
  | _ => false

mutual
def Item.depthStops (ran : Bool) : Item ν → Nat
  | .performed op answer => if !ran && op.tooDeep answer then 1 else 0
  | .ran _ _ items _ _ _ => depthStopsAfter false items
  | _ => 0

-- How many invocations were turned away for depth, at any depth. An invocation for which a frame has run, the item
-- right before it, may have the same answer, but was not turned away.
def depthStopsAfter (ran : Bool) : List (Item ν) → Nat
  | [] => 0
  | item :: rest => item.depthStops ran + depthStopsAfter item.isRan rest
end

def depthStops (t : Trace ν) : Nat := depthStopsAfter false t

theorem depthStopsThen (inside : Trace ν) (op : Operation) (answer : op.Answer) (t : Trace ν) :
    (inside ++ .performed op answer :: t).depthStops = depthStops (inside ++ [.performed op answer]) + t.depthStops := by
  have after (ran : Bool) : depthStopsAfter ran (inside ++ .performed op answer :: t) =
      depthStopsAfter ran (inside ++ [.performed op answer]) + t.depthStops := by
    induction inside generalizing ran with
    | nil => simp only [List.nil_append, depthStopsAfter, Item.isRan, depthStops, Nat.add_zero]
    | cons item rest ih => simp only [List.cons_append, depthStopsAfter, ih, Nat.add_assoc]
  exact after false

theorem depthStopsRan (depth : Nat) (activation : Activation) (items : Trace ν) (ending : Ending) (meter : Meter)
    (commitFault : Option Fault) (rest : Trace ν) :
    depthStops (.ran depth activation items ending meter commitFault :: rest) =
      items.depthStops + depthStopsAfter true rest := by
  simp only [depthStops, depthStopsAfter, Item.depthStops, Item.isRan]

theorem depthStopsPerformed (i : Invocation) (answer : Except Fault Outcome) :
    depthStopsAfter true [(i.performed answer : Item ν)] = 0 := by
  cases i <;> rfl

theorem depthStopsNoted (n : ν) (t : Trace ν) : depthStops (.noted n :: t) = t.depthStops := by
  simp [depthStops, depthStopsAfter, Item.depthStops, Item.isRan]

end Trace

open Trace

structure Level.Beside (level other : Level ν Overlay) : Prop where
  settings : other.settings = level.settings
  below : ∀ run twinRun, level.enter = some run → other.enter = some twinRun → ∀ child twin activation,
    child.Alike (fun _ => True) False twin → (run child activation).trace.standingUsed = 0 →
      (run child activation).trace.depthStops = 0 → (twinRun twin activation).trace.depthStops = 0 →
        Frame.RanAbreast (Frame.ofLimit child activation.gasLimit) (Frame.ofLimit twin activation.gasLimit)
          (run child activation) (twinRun twin activation)

namespace Frame

variable {level other : Level ν Overlay} {f g : Frame Overlay}

theorem enterStopped {E : Type} [Host E] {level : Level ν E} (deepest : level.enter = none) (f : Frame E)
    (attempt : Attempt) (amount : Amount) (activation : Activation) (i : Invocation) :
    depthStops ((f.enter level attempt amount activation).2.2 ++
      [i.performed (.ok (f.enter level attempt amount activation).1)]) = 1 := by
  simp only [enter, deepest]
  cases i <;> rfl

theorem enterBeside (beside : level.Beside other) (alike : f.host.Alike (fun _ => True) False g.host)
    (meter : g.meter = f.meter) (attempt : Attempt) (amount : Amount) (activation : Activation) (i : Invocation)
    (unused : (f.enter level attempt amount activation).2.2.standingUsed = 0)
    (unstopped : depthStops ((f.enter level attempt amount activation).2.2 ++
      [i.performed (.ok (f.enter level attempt amount activation).1)]) = 0)
    (alsoUnstopped : depthStops ((g.enter other attempt amount activation).2.2 ++
      [i.performed (.ok (g.enter other attempt amount activation).1)]) = 0) :
    (g.enter other attempt amount activation).1 = (f.enter level attempt amount activation).1 ∧
      ∃ w rs, Abreast w rs f g (f.enter level attempt amount activation).2.1
        (g.enter other attempt amount activation).2.1 := by
  cases deeper : level.enter with
  | none =>
    rw [enterStopped deeper] at unstopped
    cases unstopped
  | some run =>
    cases alsoDeeper : other.enter with
    | none =>
      rw [enterStopped alsoDeeper] at alsoUnstopped
      cases alsoUnstopped
    | some twinRun =>
      have below (child twin : Overlay) (opened : activation.opened? f.host amount = some child)
          (alsoOpened : activation.opened? g.host amount = some twin) (similar : child.Alike (fun _ => True) False twin) :
          RanAbreast (ofLimit child activation.gasLimit) (ofLimit twin activation.gasLimit) (run child activation)
            (twinRun twin activation) := by
        rw [enterOpened deeper opened, standingUsedRan] at unused
        rw [enterOpened deeper opened, List.singleton_append, depthStopsRan, depthStopsPerformed] at unstopped
        rw [enterOpened alsoDeeper alsoOpened, List.singleton_append, depthStopsRan, depthStopsPerformed] at alsoUnstopped
        exact beside.below run twinRun deeper alsoDeeper child twin activation similar unused unstopped alsoUnstopped
      obtain ⟨answers, w, rs, -, abreast⟩ :=
        enterAbreast level other deeper alsoDeeper alike meter attempt amount activation below
      exact ⟨answers, w, rs, abreast⟩

theorem performBeside (beside : level.Beside other) (alike : f.Alike (fun _ => True) False g) (i : Invocation)
    (unused : (i.perform level f).2.2.standingUsed = 0)
    (unstopped : depthStops ((i.perform level f).2.2 ++ [i.performed (i.perform level f).1]) = 0)
    (alsoUnstopped : depthStops ((i.perform other g).2.2 ++ [i.performed (i.perform other g).1]) = 0) :
    (i.perform other g).1 = (i.perform level f).1 ∧
      ∃ w rs, Abreast w rs f g (i.perform level f).2.1 (i.perform other g).2.1 := by
  cases admitted : i.admitted? level f with
  | none =>
    obtain ⟨answers, rs, abreast⟩ := Invocation.unadmittedAbreast level other alike.host alike.meter admitted
    exact ⟨answers, _, rs, abreast⟩
  | some activation =>
    have alsoAdmitted := (Invocation.admittedBoth beside.settings alike.host alike.meter i).trans admitted
    obtain ⟨rs, paid⟩ := Invocation.addressedAbreast alike.host alike.meter i
    have addressed := abreastAlike alike paid
    rw [Invocation.performEntered admitted] at unused unstopped ⊢
    rw [Invocation.performEntered alsoAdmitted] at alsoUnstopped ⊢
    obtain ⟨answers, w, ss, entered⟩ := enterBeside beside addressed.host addressed.meter i.attempt i.amount activation i
      unused unstopped alsoUnstopped
    exact ⟨congrArg Except.ok answers, _, _, abreastThen paid entered⟩

theorem stepBeside (beside : level.Beside other) (alike : f.Alike (fun _ => True) False g) (op : Operation)
    (unused : (f.step level op).2.2.standingUsed = 0) (still : op.standingUsed = 0)
    (unstopped : depthStops ((f.step level op).2.2 ++ [.performed op (f.step level op).1]) = 0)
    (alsoUnstopped : depthStops ((g.step other op).2.2 ++ [.performed op (g.step other op).1]) = 0) :
    (g.step other op).1 = (f.step level op).1 ∧
      ∃ w rs, Abreast w rs f g (f.step level op).2.1 (g.step other op).2.1 := by
  cases op with
  | call c => exact performBeside beside alike (.call c) unused unstopped alsoUnstopped
  | deploy d => exact performBeside beside alike (.deploy d) unused unstopped alsoUnstopped
  | query _ | update _ | ask _ | consumeGas _ | setGasLimit _ | commit =>
    exact stepAbreast level other beside.settings False.elim alike
      (Operation.standingUnused still (fun _ => Operation.noConfusion) (fun _ => Operation.noConfusion) _)

end Frame

theorem Program.execBeside {level other : Level ν Overlay} (beside : level.Beside other) {p : Program ν (Option Bytes)}
    {f g : Frame Overlay} (alike : f.Alike (fun _ => True) False g) (unused : (p.exec level f).trace.standingUsed = 0)
    (unstopped : (p.exec level f).trace.depthStops = 0) (alsoUnstopped : (p.exec other g).trace.depthStops = 0) :
    Frame.RanAbreast f g (p.exec level f) (p.exec other g) := by
  induction p generalizing f g with
  | ret output | raise fault | panic text => exact ⟨rfl, _, _, Frame.abreastStill alike.meter⟩
  | note n next ih =>
    obtain ⟨ending, frames⟩ := ih alike ((standingUsedNoted n _).symm.trans unused)
      ((depthStopsNoted n _).symm.trans unstopped) ((depthStopsNoted n _).symm.trans alsoUnstopped)
    exact ⟨ending, frames⟩
  | perform op next ih =>
    have used := (standingUsedThen (f.step level op).2.2 op (f.step level op).1
      ((next (f.step level op).1).exec level (f.step level op).2.1).trace).symm.trans unused
    have stopped := (depthStopsThen (f.step level op).2.2 op (f.step level op).1
      ((next (f.step level op).1).exec level (f.step level op).2.1).trace).symm.trans unstopped
    have alsoStopped := (depthStopsThen (g.step other op).2.2 op (g.step other op).1
      ((next (g.step other op).1).exec other (g.step other op).2.1).trace).symm.trans alsoUnstopped
    obtain ⟨answers, w, rs, stepped⟩ :=
      Frame.stepBeside beside alike op (by omega) (by omega) (by omega) (by omega)
    rw [answers] at alsoStopped
    obtain ⟨ending, later, ss, rest⟩ := ih (f.step level op).1 (Frame.abreastAlike alike stepped) (by omega) (by omega)
      (by omega)
    simp only [exec, answers]
    exact ⟨ending, _, _, Frame.abreastThen stepped rest⟩

theorem Boundary.levelBeside (b : Boundary ν) (room depth also alsoDepth : Nat) :
    (b.level room depth : Level ν Overlay).Beside (b.level also alsoDepth) := by
  -- The levels may have different room: whichever has none stops whatever is entered from it.
  induction room generalizing depth also alsoDepth with
  | zero =>
    refine ⟨by rw [b.levelSettings, b.levelSettings], ?_⟩
    intro run twinRun deeper
    cases deeper
  | succ room ih =>
    refine ⟨by rw [b.levelSettings, b.levelSettings], ?_⟩
    intro run twinRun deeper alsoDeeper child twin activation alike unused unstopped alsoUnstopped
    cases also with
    | zero => cases alsoDeeper
    | succ also =>
      cases deeper
      cases alsoDeeper
      exact Program.execBeside (ih (depth + 1) also (alsoDepth + 1)) ⟨rfl, rfl, alike⟩ unused unstopped alsoUnstopped

-- A root environment of `contract` without an attached amount, and the environment of some frame in which the same
-- is seen, both built from the settings.
structure Boundary.Counterparts (b : Boundary ν) (contract : Address) (root inside : Overlay) : Prop where
  contract : root.contract = contract
  unpaid : root.own.context.payAmount = Amount.zero
  tariff : root.own.tariff = b.settings.tariff
  debug : root.own.debug = b.settings.debug
  insideTariff : inside.own.tariff = b.settings.tariff
  insideDebug : inside.own.debug = b.settings.debug
  identities : inside.store.identities = root.store.identities
  chain : inside.store.chain = root.store.chain
  view : inside.view = root.view

def Call.ofExecution (contract : Address) (method : String) (args : Arguments) (gasLimit : Gas) : Call :=
  ⟨contract, method, args.pack, Amount.zero, [], gasLimit⟩

namespace Boundary

variable {b : Boundary ν} {contract : Address} {root : Overlay} {f : Frame Overlay}

theorem counterpartsAlike (same : b.Counterparts contract root f.host) :
    root.Alike (fun _ => True) False (f.host.child contract Amount.zero) where
  contract := same.contract.symm
  payAmount := same.unpaid.symm
  tariff := same.insideTariff.trans same.tariff.symm
  debug := same.insideDebug.trans same.debug.symm
  identities := same.identities
  chain := same.chain
  storage _ _ := by rw [Overlay.child, Overlay.nestView, same.view]
  balance := by rw [Overlay.child, Overlay.nestView, same.view]
  code := by rw [Overlay.child, Overlay.nestView, same.view]
  caller := False.elim
  originalCaller := False.elim

theorem executeAbsent (b : Boundary ν) {c : Call} (absent : Host.code? root contract = none) {method : String}
    {args : Arguments} {gasLimit : Gas} (asked : Call.ofExecution contract method args gasLimit = c) :
    b.execute root contract method args gasLimit = (Outcome.ofRejection contract c.attempt .codeIsEmpty, root, []) := by
  subst asked
  simp only [execute, absent]
  rfl

theorem executePresent (b : Boundary ν) {c : Call} {code : Bytes} (present : Host.code? root contract = some code)
    {method : String} {args : Arguments} {gasLimit : Gas} (asked : Call.ofExecution contract method args gasLimit = c) :
    b.execute root contract method args gasLimit = b.run root c.attempt (c.activation code b.settings.debug) := by
  subst asked
  simp only [execute, present]
  rfl

theorem runsAgree (room depth : Nat) {a : Activation} (called : a.entry ≠ .constructor)
    (same : b.Counterparts a.contract root f.host) (attempt : Attempt) (i : Invocation)
    (unused : (b.run root attempt a).2.2.standingUsed = 0) (unstopped : (b.run root attempt a).2.2.depthStops = 0)
    (alsoUnstopped : depthStops ((f.enter (b.level room depth) attempt Amount.zero a).2.2 ++
      [i.performed (.ok (f.enter (b.level room depth) attempt Amount.zero a).1)]) = 0) :
    (f.enter (b.level room depth) attempt Amount.zero a).1 = (b.run root attempt a).1 ∧
      ((b.run root attempt a).1.isSuccess = true → ∃ w, Overlay.BothTook w root f.host (b.run root attempt a).2.1
        (f.enter (b.level room depth) attempt Amount.zero a).2.1.host) := by
  cases room with
  | zero =>
    rw [Frame.enterStopped rfl] at alsoUnstopped
    cases alsoUnstopped
  | succ room =>
    have deeper : (b.level (room + 1) depth : Level ν Overlay).enter = some _ := rfl
    rw [Frame.enterOpened deeper (Activation.openedFree called f.host)] at alsoUnstopped ⊢
    rw [List.singleton_append, depthStopsRan, depthStopsPerformed] at alsoUnstopped
    simp only [run, standingUsedRan, depthStopsRan] at unused unstopped ⊢
    have ran : Frame.RanAbreast (Frame.ofLimit root a.gasLimit)
        (Frame.ofLimit (f.host.child a.contract Amount.zero) a.gasLimit)
        ((b.interpreter a).exec b.top (Frame.ofLimit root a.gasLimit)) _ :=
      Program.execBeside (b.levelBeside b.settings.maxCallDepth.toNat 0 room (depth + 1))
        ⟨rfl, rfl, counterpartsAlike same⟩ unused unstopped alsoUnstopped
    generalize (b.interpreter a).exec b.top (Frame.ofLimit root a.gasLimit) = first at ran ⊢
    generalize (b.interpreter a).exec (b.level room (depth + 1))
      (Frame.ofLimit (f.host.child a.contract Amount.zero) a.gasLimit) = second at ran ⊢
    obtain ⟨ending, w, rs, abreast⟩ := ran
    have results : second.result = first.result := by rw [Finished.result, Finished.result, abreast.meter, ending]
    have reports : second.reports = first.reports := abreast.second.trans abreast.first.symm
    have nested : Overlay.WritesOnly (f.host.child a.contract Amount.zero) second.host :=
      abreast.took.second ▸ Overlay.writeWritesOnly _ _
    have holds : second.host.own.changes = w := abreast.took.second ▸ f.host.childHolds a.contract Amount.zero w
    simp only [Frame.closeNested nested, Finished.report, results, reports, abreast.meter]
    refine ⟨trivial, fun success => ⟨w, abreast.took.first, ?_⟩⟩
    obtain ⟨output, returned⟩ := (Frame.succeededOfReport _ _ _).mp success
    simp only [returned, Frame.record, holds]
    rfl

/-- A contract executed from outside and called from a frame that can see the same, without amount and context, under the
same limit: the call has the outcome of the execution, unless the frame is exhausted and may not call. If it succeeds
the same is seen in the end, in the root and in the environment of the frame, and both have gained the same events. -/
theorem entriesAgree (b : Boundary ν) (room depth : Nat) (same : b.Counterparts contract root f.host) (method : String)
    (args : Arguments) (gasLimit : Gas) (unused : (b.execute root contract method args gasLimit).2.2.standingUsed = 0)
    (unstopped : (b.execute root contract method args gasLimit).2.2.depthStops = 0)
    (alsoUnstopped :
      let call := Call.ofExecution contract method args gasLimit
      let called := f.call (b.level room depth) call
      depthStops (called.2.2 ++ [.performed (.call call) called.1]) = 0) :
    let executed := b.execute root contract method args gasLimit
    let called := f.call (b.level room depth) (Call.ofExecution contract method args gasLimit)
    called.1 = (if f.meter.exhausted then .error .outOfGas else .ok executed.1) ∧
      (Succeeded called.1 → called.2.1.host.view = executed.2.1.view ∧
        ∃ gained, executed.2.1.events = root.events ++ gained ∧ called.2.1.host.events = f.host.events ++ gained) := by
  dsimp only at alsoUnstopped ⊢
  generalize asked : Call.ofExecution contract method args gasLimit = c at alsoUnstopped ⊢
  obtain rfl : c.contract = contract := asked ▸ rfl
  have free : c.amount = Amount.zero := asked ▸ rfl
  have found : Host.code? f.host c.contract = Host.code? root c.contract := by simp only [Host.code?, same.view]
  cases exhausted : f.meter.exhausted with
  | true =>
    simp only [Frame.call, exhausted, if_true]
    exact ⟨trivial, False.elim⟩
  | false =>
    cases present : Host.code? root c.contract with
    | none =>
      rw [executeAbsent b present asked]
      simp only [Frame.call, exhausted, found, present]
      exact ⟨rfl, fun success => (Bool.false_ne_true success).elim⟩
    | some code =>
      have admitted : (Invocation.call c).admitted? (b.level room depth) f =
          some (c.activation code b.settings.debug) := by
        simp only [Invocation.admitted?, exhausted, found, present, b.levelSettings]
        rfl
      have calls : f.call (b.level room depth) c = _ := Invocation.performEntered admitted
      rw [executePresent b present asked] at unused unstopped ⊢
      rw [calls] at alsoUnstopped ⊢
      simp only [Invocation.addressed, Invocation.attempt, Invocation.amount, free] at alsoUnstopped ⊢
      obtain ⟨outcomes, effects⟩ := runsAgree room depth (a := c.activation code b.settings.debug) Entry.noConfusion
        same c.attempt (.call c) unused unstopped alsoUnstopped
      refine ⟨congrArg Except.ok outcomes, fun success => ?_⟩
      obtain ⟨w, first, second⟩ := effects (outcomes ▸ success)
      rw [first, second, Overlay.absorbView, Overlay.absorbView, same.view]
      exact ⟨rfl, w.events, root.absorbEvents w, f.host.absorbEvents w⟩

open Launch

def errandCaller (meter : Meter) : Frame Overlay :=
  ⟨errandRoot.stacked Settings.standard ⟨bystander, bystander, bystander, Amount.zero⟩, meter, []⟩

def errandCall : Call := Call.ofExecution errands "run" [] 0

theorem errandCounterparts (meter : Meter) : errand.Counterparts errands errandRoot (errandCaller meter).host where
  contract := rfl
  unpaid := rfl
  tariff := rfl
  debug := rfl
  insideTariff := rfl
  insideDebug := rfl
  identities := rfl
  chain := rfl
  view := errandRoot.nestView _ _ _

theorem errandAgrees :
    let executed := errand.execute errandRoot errands "run" [] 0
    let called := (errandCaller Meter.unlimited).call (errand.level 63 1) errandCall
    executed.2.2.standingUsed = 0 ∧ executed.2.2.depthStops = 0 ∧
      depthStops (called.2.2 ++ [.performed (.call errandCall) called.1]) = 0 ∧ executed.1.isSuccess = true ∧
      called.1 = .ok executed.1 ∧ called.2.1.host.view = executed.2.1.view := by
  intro executed called
  have unused : executed.2.2.standingUsed = 0 := by decide +kernel
  have unstopped : executed.2.2.depthStops = 0 := by decide +kernel
  have alsoUnstopped : depthStops (called.2.2 ++ [.performed (.call errandCall) called.1]) = 0 := by decide +kernel
  have success : executed.1.isSuccess = true := by decide +kernel
  obtain ⟨outcomes, effects⟩ := errand.entriesAgree 63 1 (errandCounterparts Meter.unlimited) "run" [] 0 unused unstopped
    alsoUnstopped
  have agrees : called.1 = .ok executed.1 := outcomes
  exact ⟨unused, unstopped, alsoUnstopped, success, agrees, (effects (agrees ▸ success)).1⟩

theorem exhaustedCallerRefused :
    let executed := errand.execute errandRoot errands "run" [] 0
    let called := (errandCaller ⟨1, 2⟩).call (errand.level 63 1) errandCall
    errand.Counterparts errands errandRoot (errandCaller ⟨1, 2⟩).host ∧ executed.2.2.standingUsed = 0 ∧
      executed.2.2.depthStops = 0 ∧ depthStops (called.2.2 ++ [.performed (.call errandCall) called.1]) = 0 ∧
      executed.1.isSuccess = true ∧ called.1 = .error .outOfGas := by
  exact ⟨errandCounterparts ⟨1, 2⟩, by decide +kernel, by decide +kernel, by decide +kernel, by decide +kernel, rfl⟩

end Boundary
end CallBoundary
