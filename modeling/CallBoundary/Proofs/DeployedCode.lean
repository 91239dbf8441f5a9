import CallBoundary.Proofs.CodeEntries
/-! Code that has been deployed. It is in place from then on wherever the deployment is seen: in the frame that
deployed, in the frames opened from there, and, once a frame has succeeded, in its caller. Where it is in place
nothing is deployed again, and a call finds it, unless it is empty: empty code is an entry like any other to a
deployment, but none to a call. -/
namespace CallBoundary

variable {ν : Type}

namespace Boundary

section

variable {E : Type} [Host E] (b : Boundary ν)

-- What is done up to one moment is seen at the other: the moment is the next one of the same frame, the first one of
-- a frame opened for it, or, where a callee has succeeded, the next one of its caller.
inductive HandsOn : Moment ν E → Moment ν E → Prop
  | moved {m next : Moment ν E} (moves : b.Moves m next) : HandsOn m next
  | returned {room depth : Nat} (i : Invocation) (next : i.operation.Answer → Program ν (Option Bytes)) (f : Frame E)
      {callee : Finished ν E} {last : Moment ν E} (runs : i.callee? (b.level (room + 1) depth) f = some callee)
      (ends : last.frame = callee.toFrame) (succeeded : Succeeded (i.perform (b.level (room + 1) depth) f).1) :
      HandsOn last ⟨room + 1, depth, next (f.step (b.level (room + 1) depth) i.operation).1,
        (f.step (b.level (room + 1) depth) i.operation).2.1⟩

def SeenFrom : Moment ν E → Moment ν E → Prop := Relation.ReflTransGen b.HandsOn

end

variable {b : Boundary ν}

theorem returnKeeps {room depth : Nat} {i : Invocation} {f : Frame Overlay} {callee : Finished ν Overlay}
    (runs : i.callee? (b.level (room + 1) depth) f = some callee)
    (succeeded : Succeeded (i.perform (b.level (room + 1) depth) f).1) :
    callee.toFrame.KeepsCode (f.step (b.level (room + 1) depth) i.operation).2.1 := by
  rw [Frame.stepInvocation]
  rcases i.performFolds b (room + 1) depth f with
    ⟨unsuccessful, -⟩ | ⟨activation, other, context, admitted, also, -, nested, folded, -⟩
  · exact (unsuccessful succeeded).elim
  · have same : some callee = some other := runs.symm.trans ((i.calleeOfAdmitted _ f admitted).trans also)
    cases same
    rw [Frame.KeepsCode, folded, (Overlay.settledNested nested).view]
    exact View.keepsCodeRefl _

theorem handsOnKeeps {m next : Moment ν Overlay} (hands : b.HandsOn m next) : m.frame.KeepsCode next.frame := by
  cases hands with
  | moved moves => exact b.movesKeep moves
  | returned i next f runs ends succeeded =>
    rw [ends]
    exact returnKeeps runs succeeded

theorem seenKeeps {m later : Moment ν Overlay} (seen : b.SeenFrom m later) : m.frame.KeepsCode later.frame := by
  induction seen with
  | refl => exact View.keepsCodeRefl m.frame.host.view
  | tail _ hands ih => exact View.keepsCodeTrans ih (handsOnKeeps hands)

end Boundary

namespace Overlay

variable {o : Overlay} {contract : Address} {code : Bytes}

theorem codeInPlace (present : o.view.code contract = some code) (filled : code ≠ []) :
    Host.code? o contract = some code := by
  simp [Host.code?, present, filled]

theorem emptyInPlace (present : o.view.code contract = some []) : Host.code? o contract = none := by
  simp [Host.code?, present]

theorem hashInPlace (present : o.view.code contract = some code) :
    Host.codeHash? o contract = some (Keccak.hash code) := by
  simp [Host.codeHash?, present]

theorem transferFault {payer payee : Address} {amount : Amount} {fault : Fault}
    (fails : (o.transfer payer payee amount).1 = .error fault) :
    fault = .insufficientBalance ∨ fault = overflow payee := by
  by_cases covered : amount.value ≤ (o.view.balance payer).value
  · by_cases fits : o.held payer payee amount < Amount.limit
    · rw [transferFits covered fits] at fails
      cases fails
    · rw [transferOverflows covered fits] at fails
      cases fails
      exact .inr rfl
  · rw [transferUncovered covered] at fails
    cases fails
    exact .inl rfl

theorem deriveFault {amount : Amount} {deployment : Bool} {fault : Fault} {after : Overlay}
    (refused : o.derive contract amount deployment = (.error fault, after)) :
    Failure.ofFault fault ≠ .codeIsEmpty := by
  simp only [derive] at refused
  split at refused
  · cases refused
    decide
  · split at refused
    · cases refused
    · split at refused
      · cases refused
      · rename_i moved
        cases refused
        rcases transferFault (congrArg Prod.fst moved) with rfl | rfl
        · decide
        · exact Failure.noConfusion

end Overlay

namespace Frame

-- How a frame finds an address where code is in place. Code that is not empty is what a call there runs; a call that
-- fails for want of code has run it, and it was the code that failed so. Empty code is not called. Whatever the
-- code, nothing more is deployed there.
structure Finds (level : Level ν Overlay) (f : Frame Overlay) (contract : Address) (code : Bytes) : Prop where
  present : f.host.view.code contract = some code
  answers : code ≠ [] → (Host.code? f.host contract).isSome ∧ (Host.codeHash? f.host contract).isSome
  callable : code ≠ [] → f.meter.exhausted = false → ∀ c : Call, c.contract = contract →
    (Invocation.call c).admitted? level f = some (c.activation code level.settings.debug)
  found : code ≠ [] → ∀ (c : Call) (outcome : Outcome), c.contract = contract → (f.call level c).1 = .ok outcome →
    outcome.result = .error .codeIsEmpty →
      ∃ callee, (Invocation.call c).callee? level f = some callee ∧ callee.result = .error .codeIsEmpty
  uncallable : code = [] → f.meter.exhausted = false → ∀ c : Call, c.contract = contract →
    (f.call level c).1 = .ok (Outcome.ofRejection contract c.attempt .codeIsEmpty)
  undeployable : ∀ (d : Deployment) (gas : Gas),
    (f.query (.addressOfCode d.code d.args d.nonce)).1 = .ok ⟨contract, gas⟩ →
      (f.deploy level d).1 = .ok (Outcome.ofRejection contract d.attempt .alreadyDeployed)

variable {level : Level ν Overlay} {f : Frame Overlay} {contract : Address} {code : Bytes}

theorem closeResult (callee : Finished ν Overlay) : (close callee).1 = callee.result := by
  unfold close
  cases callee.result <;> rfl

theorem enterFound {attempt : Attempt} {amount : Amount} {activation : Activation}
    (failed : (f.enter level attempt amount activation).1.result = .error .codeIsEmpty) :
    ∃ callee, level.callee? f.host amount activation = some callee ∧ callee.result = .error .codeIsEmpty := by
  simp only [enter] at failed
  cases deeper : level.enter with
  | none =>
    rw [deeper] at failed
    have tooDeep : Failure.callDepthExceeded = .codeIsEmpty := Except.error.inj failed
    exact absurd tooDeep (by decide)
  | some run =>
    rw [deeper] at failed
    cases derived : Host.derive f.host activation.contract amount (activation.entry = .constructor) with
    | mk answer child =>
      rw [derived] at failed
      cases answer with
      | error fault => exact absurd (Except.error.inj failed) (Overlay.deriveFault derived)
      | ok _ =>
        refine ⟨_, ?_, (closeResult _).symm.trans failed⟩
        simp only [Level.callee?, Activation.opened?, deeper, derived]
        rfl

theorem callAdmitted (level : Level ν Overlay) (present : f.host.view.code contract = some code) (filled : code ≠ [])
    (spared : f.meter.exhausted = false) {c : Call} (target : c.contract = contract) :
    (Invocation.call c).admitted? level f = some (c.activation code level.settings.debug) := by
  simp only [Invocation.admitted?, spared, target, Overlay.codeInPlace present filled]
  rfl

theorem callFound (present : f.host.view.code contract = some code) (filled : code ≠ []) {c : Call} {outcome : Outcome}
    (target : c.contract = contract) (answered : (f.call level c).1 = .ok outcome)
    (failed : outcome.result = .error .codeIsEmpty) :
    ∃ callee, (Invocation.call c).callee? level f = some callee ∧ callee.result = .error .codeIsEmpty := by
  cases exhausted : f.meter.exhausted with
  | true =>
    simp only [call, exhausted, if_true] at answered
    cases answered
  | false =>
    have admitted := callAdmitted level present filled exhausted target
    have entered : f.call level c = _ := Invocation.performEntered admitted
    rw [entered] at answered
    cases answered
    obtain ⟨callee, runs, itself⟩ := enterFound failed
    exact ⟨callee, ((Invocation.call c).calleeOfAdmitted level f admitted).trans runs, itself⟩

theorem callUnfound (present : f.host.view.code contract = some []) (spared : f.meter.exhausted = false) {c : Call}
    (target : c.contract = contract) :
    (f.call level c).1 = .ok (Outcome.ofRejection contract c.attempt .codeIsEmpty) := by
  simp only [call, spared, target, Overlay.emptyInPlace present]
  rfl

theorem deployRejected (present : f.host.view.code contract = some code) {d : Deployment} {gas : Gas}
    (derived : (f.query (.addressOfCode d.code d.args d.nonce)).1 = .ok ⟨contract, gas⟩) :
    (f.deploy level d).1 = .ok (Outcome.ofRejection contract d.attempt .alreadyDeployed) := by
  obtain ⟨meter, charged⟩ := f.addressCharges d.code d.args d.nonce
  unfold deploy
  cases asked : f.query (.addressOfCode d.code d.args d.nonce) with
  | mk answer paid =>
    rw [asked] at derived charged
    subst charged
    cases derived
    simp only [Overlay.hashInPlace present]
    rfl

theorem findsPresent (level : Level ν Overlay) (present : f.host.view.code contract = some code) :
    f.Finds level contract code where
  present := present
  answers filled := by
    rw [Overlay.codeInPlace present filled, Overlay.hashInPlace present]
    exact ⟨rfl, rfl⟩
  callable filled spared _ target := callAdmitted level present filled spared target
  found filled _ _ target answered failed := callFound present filled target answered failed
  uncallable empty spared _ target := callUnfound (empty ▸ present) spared target
  undeployable _ _ derived := deployRejected present derived

end Frame

structure Launch.Finds (b : Boundary ν) (o : Overlay) (contract : Address) (code : Bytes) : Prop where
  present : o.view.code contract = some code
  callable : code ≠ [] → ∀ method args gasLimit, ∃ activation,
    (Launch.execute contract method args gasLimit).admitted? b o = some activation ∧ activation.code = code
  undeployable : ∀ (other : Bytes) (args : Arguments) (gasLimit : Gas),
    let l : Launch := .deploy contract other args gasLimit
    l.run b o = (Outcome.ofRejection contract l.invocation.attempt .alreadyDeployed, o, [])

namespace Launch

variable {b : Boundary ν} {o : Overlay} {contract : Address} {code : Bytes}

theorem findsPresent (present : o.view.code contract = some code) : Finds b o contract code where
  present := present
  callable filled method args gasLimit := by
    refine ⟨Call.activation ⟨contract, method, args.pack, Amount.zero, [], gasLimit⟩ code b.settings.debug, ?_, rfl⟩
    simp only [admitted?, Overlay.codeInPlace present filled]
    rfl
  undeployable other args gasLimit := by
    simp only [run, Boundary.deploy, Overlay.hashInPlace present]
    rfl

/-- After a deployment that succeeds, its code is in place for good: in the deploying frame and wherever its effects are
seen later on, a call there is never rejected for want of code unless the code is empty, and nothing is deployed there
again. The same holds of a deployment by a launch, for later launches in the environment it leaves and for all
frames of theirs; and each of them leaves the code in place in turn. -/
theorem deployedStaysInPlace (b : Boundary ν) :
    (∀ (room depth : Nat) (f : Frame Overlay) (d : Deployment) (outcome : Outcome),
      (f.deploy (b.level room depth) d).1 = .ok outcome → outcome.isSuccess = true →
        ∀ rest m, b.SeenFrom ⟨room, depth, rest, (f.deploy (b.level room depth) d).2.1⟩ m →
          m.frame.Finds (b.level m.room m.depth) outcome.contract d.code) ∧
    (∀ (o : Overlay) (code : Bytes) (args : Arguments) (gasLimit : Gas),
      let deployed := (Launch.deploy o.contract code args gasLimit).run b o
      deployed.1.isSuccess = true → Finds b deployed.2.1 deployed.1.contract code) ∧
    ∀ (o : Overlay) (contract : Address) (code : Bytes), Finds b o contract code →
      ∀ l : Launch, o.contract = l.contract →
        Finds b (l.run b o).2.1 contract code ∧
        ∀ start m, l.start? b o = some start → b.SeenFrom start m →
          m.frame.Finds (b.level m.room m.depth) contract code := by
  refine ⟨?_, ?_, ?_⟩
  · intro room depth f d outcome answered success rest m seen
    have present := (f.deployLeaves b room depth d).1 outcome answered success
    exact Frame.findsPresent _ (Boundary.seenKeeps seen _ _ present)
  · intro o code args gasLimit deployed success
    exact findsPresent ((runCode b (.deploy o.contract code args gasLimit) rfl).2 _ code args gasLimit rfl success)
  · intro o contract code finds l own
    refine ⟨findsPresent ((l.runCode b own).1 _ _ finds.present), ?_⟩
    intro start m starts seen
    obtain ⟨activation, admitted, rfl⟩ := Option.map_eq_some_iff.mp starts
    have prepared := (preparedCode own (admittedGiven admitted).2.2.2).1 _ _ finds.present
    exact Frame.findsPresent _ (Boundary.seenKeeps seen _ _ prepared)

example :
    let deployed := (Launch.deploy founded [1] [] 0).run founding foundingRoot
    deployed.1.isSuccess = true ∧ ((Launch.execute founded "run" [] 0).run founding deployed.2.1).1.isSuccess = true := by
  decide +kernel

theorem emptyCodeUncallable :
    let deployed := foundingLaunch.run founding foundingRoot
    deployed.1.isSuccess = true ∧ deployed.1.contract = founded ∧
      (Launch.execute founded "run" [] 0).run founding deployed.2.1 =
        (Outcome.ofRejection founded (Attempt.ofCall "run" (Arguments.pack []) Amount.zero 0) .codeIsEmpty,
          deployed.2.1, []) ∧
      Host.code? deployed.2.1 founded = none ∧ (Host.codeHash? deployed.2.1 founded).isSome = true := by
  exact ⟨by decide +kernel, rfl, rfl, by decide +kernel, by decide +kernel⟩

end Launch
end CallBoundary
