import CallBoundary.Boundary
/-! Calls and deployments and the frames they run. An invocation that is admitted and for which an
environment can be opened runs exactly one frame right below its own, its callee; the others run
none. What an invocation answers and leaves behind is what closing its callee comes to. -/
namespace CallBoundary

inductive Invocation where
  | call (c : Call)
  | deploy (d : Deployment)
  deriving DecidableEq, Repr

variable {ν E : Type} [Host E]

def Activation.opened? (a : Activation) (host : E) (amount : Amount) : Option E :=
  match Host.derive host a.contract amount (a.entry = .constructor) with
  | (.error _, _) => none
  | (.ok (), child) => some (if a.entry = .constructor then Host.register child a.code else child)

theorem Activation.openedFrom {a : Activation} {host : E} {amount : Amount} {child : E}
    (opened : a.opened? host amount = some child) :
    ∃ fresh, Host.derive host a.contract amount (a.entry = .constructor) = (.ok (), fresh) ∧
      child = if a.entry = .constructor then Host.register fresh a.code else fresh := by
  unfold opened? at opened
  cases derived : Host.derive host a.contract amount (a.entry = .constructor) with
  | mk answer fresh =>
    rw [derived] at opened
    cases answer with
    | error fault => cases opened
    | ok _ => exact ⟨fresh, rfl, (Option.some.inj opened).symm⟩

def Level.callee? (level : Level ν E) (host : E) (amount : Amount) (activation : Activation) :
    Option (Finished ν E) := do
  let run ← level.enter
  let child ← activation.opened? host amount
  some (run child activation)

namespace Invocation

def amount : Invocation → Amount
  | call c => c.amount
  | deploy d => d.amount

def args : Invocation → Bytes
  | call c => c.args
  | deploy d => d.args

def gasLimit : Invocation → Gas
  | call c => c.gasLimit
  | deploy d => d.gasLimit

def attempt : Invocation → Attempt
  | call c => c.attempt
  | deploy d => d.attempt

def perform (level : Level ν E) (f : Frame E) : Invocation → Except Fault Outcome × Frame E × Trace ν
  | call c => f.call level c
  | deploy d => f.deploy level d

def admitted? (level : Level ν E) (f : Frame E) : Invocation → Option Activation
  | call c =>
    if f.meter.exhausted then none
    else (Host.code? f.host c.contract).map fun code => c.activation code level.settings.debug
  | deploy d =>
    match f.query (.addressOfCode d.code d.args d.nonce) with
    | (.error _, _) => none
    | (.ok ⟨contract, _⟩, paid) =>
      match Host.codeHash? paid.host contract with
      | some _ => none
      | none => some (d.activation contract level.settings.debug)

theorem admittedGiven {level : Level ν E} {f : Frame E} {i : Invocation} {activation : Activation}
    (admitted : i.admitted? level f = some activation) :
    activation.gasLimit = i.gasLimit ∧ activation.args = i.args ∧
      ∀ d, i = .deploy d → activation.entry = .constructor ∧ activation.code = d.code := by
  cases i with
  | call c =>
    simp only [admitted?] at admitted
    split at admitted
    · cases admitted
    · obtain ⟨code, -, rfl⟩ := Option.map_eq_some_iff.mp admitted
      exact ⟨rfl, rfl, nofun⟩
  | deploy d =>
    simp only [admitted?] at admitted
    split at admitted
    · cases admitted
    · split at admitted
      · cases admitted
      · cases admitted
        refine ⟨rfl, rfl, ?_⟩
        rintro _ ⟨⟩
        exact ⟨rfl, rfl⟩

def callee? (level : Level ν E) (f : Frame E) (i : Invocation) : Option (Finished ν E) := do
  let activation ← i.admitted? level f
  level.callee? f.host i.amount activation

end Invocation

namespace Frame

variable {level : Level ν E} {run : E → Activation → Finished ν E} {f : Frame E} {amount : Amount} {activation : Activation}

theorem enterOpened (deeper : level.enter = some run) {child : E}
    (opened : activation.opened? f.host amount = some child) (attempt : Attempt) :
    let callee := run child activation
    let report := callee.report attempt activation.gasLimit (close callee).1
    f.enter level attempt amount activation =
      (Outcome.ofReport activation.contract report (close callee).1, { f with host := (close callee).2.1 }.record report,
        [.ran (level.depth + 1) activation callee.trace callee.ending callee.meter (close callee).2.2]) := by
  obtain ⟨fresh, derived, rfl⟩ := activation.openedFrom opened
  simp only [enter, deeper, derived]

theorem enterUnderivable (deeper : level.enter = some run) {fault : Fault} {host : E}
    (refused : Host.derive f.host activation.contract amount (activation.entry = .constructor) = (.error fault, host))
    (attempt : Attempt) :
    f.enter level attempt amount activation =
      (Outcome.ofRejection activation.contract attempt (Failure.ofFault fault),
        { f with host }.record (Report.ofRejection attempt (Failure.ofFault fault)),
        [.underivable activation.contract fault]) := by
  simp only [enter, deeper, refused]
  rfl

end Frame

def Succeeded : Except Fault Outcome → Prop
  | .ok outcome => outcome.isSuccess = true
  | .error _ => False

theorem Frame.addressCharges (f : Frame E) (code args nonce : Bytes) :
    ∃ meter, (f.query (.addressOfCode code args nonce)).2 = { f with meter } := by
  unfold query
  split
  · exact ⟨f.meter, rfl⟩
  · exact ⟨_, rfl⟩

namespace Invocation

def addressed (f : Frame E) : Invocation → Frame E
  | call _ => f
  | deploy d => (f.query (.addressOfCode d.code d.args d.nonce)).2

theorem addressedCharges (i : Invocation) (f : Frame E) : ∃ meter, i.addressed f = { f with meter } := by
  cases i with
  | call c => exact ⟨f.meter, rfl⟩
  | deploy d => exact f.addressCharges d.code d.args d.nonce

theorem performEntered {level : Level ν E} {f : Frame E} {i : Invocation} {activation : Activation}
    (admitted : i.admitted? level f = some activation) :
    let entered := (i.addressed f).enter level i.attempt i.amount activation
    i.perform level f = (.ok entered.1, entered.2) := by
  cases i with
  | call c =>
    simp only [admitted?] at admitted
    split at admitted
    · cases admitted
    · rename_i spared
      obtain ⟨code, found, rfl⟩ := Option.map_eq_some_iff.mp admitted
      simp only [perform, Frame.call, if_neg spared, found]
      rfl
  | deploy d =>
    simp only [admitted?] at admitted
    simp only [perform, Frame.deploy, addressed]
    cases asked : f.query (.addressOfCode d.code d.args d.nonce) with
    | mk answer paid =>
      rw [asked] at admitted
      cases answer with
      | error fault => cases admitted
      | ok derived =>
        obtain ⟨contract, gas⟩ := derived
        dsimp only at admitted ⊢
        cases found : Host.codeHash? paid.host contract with
        | some hash =>
          rw [found] at admitted
          cases admitted
        | none =>
          rw [found] at admitted
          cases admitted
          rfl

theorem unadmittedEnds {level : Level ν E} {f : Frame E} {i : Invocation} (absent : i.admitted? level f = none) :
    (∃ fault meter,
        (fault = .outOfGas ∨ ∃ code args nonce, (f.query (.addressOfCode code args nonce)).1 = .error fault) ∧
        ∀ other : Level ν E, i.perform other f = (.error fault, { f with meter }, [])) ∨
      ∃ contract failure meter, ∀ other : Level ν E,
        i.perform other f = (.ok (Outcome.ofRejection contract i.attempt failure),
          { f with meter }.record (Report.ofRejection i.attempt failure), []) := by
  cases i with
  | call c =>
    simp only [admitted?] at absent
    simp only [perform, Frame.call]
    split at absent
    · rename_i exhausted
      exact .inl ⟨.outOfGas, f.meter, .inl rfl, fun _ => if_pos exhausted⟩
    · rename_i spared
      refine .inr ⟨c.contract, .codeIsEmpty, f.meter, fun _ => ?_⟩
      rw [if_neg spared, Option.map_eq_none_iff.mp absent]
      rfl
  | deploy d =>
    obtain ⟨meter, charged⟩ := f.addressCharges d.code d.args d.nonce
    simp only [admitted?] at absent
    simp only [perform, Frame.deploy]
    cases asked : f.query (.addressOfCode d.code d.args d.nonce) with
    | mk answer paid =>
      rw [asked] at absent charged
      subst charged
      cases answer with
      | error fault => exact .inl ⟨fault, meter, .inr ⟨d.code, d.args, d.nonce, by rw [asked]⟩, fun _ => rfl⟩
      | ok derived =>
        obtain ⟨contract, gas⟩ := derived
        cases found : Host.codeHash? f.host contract with
        | some hash =>
          refine .inr ⟨contract, .alreadyDeployed, meter, fun _ => ?_⟩
          simp only [found]
          rfl
        | none => simp only [found, reduceCtorEq] at absent

-- The meter differs where an address had to be worked out first.
inductive Ended (level : Level ν E) (f : Frame E) (i : Invocation) : Except Fault Outcome × Frame E × Trace ν → Prop
  | starved (fault : Fault) (meter : Meter) (absent : i.admitted? level f = none)
      (reason : fault = .outOfGas ∨ ∃ code args nonce, (f.query (.addressOfCode code args nonce)).1 = .error fault) :
      Ended level f i (.error fault, { f with meter }, [])
  | declined (contract : Address) (failure : Failure) (meter : Meter) (absent : i.callee? level f = none) :
      Ended level f i (.ok (Outcome.ofRejection contract i.attempt failure),
        { f with meter }.record (Report.ofRejection i.attempt failure), [])
  | underivable (activation : Activation) (fault : Fault) (host : E) (meter : Meter)
      (absent : i.callee? level f = none)
      (refused : Host.derive f.host activation.contract i.amount (activation.entry = .constructor) = (.error fault, host)) :
      Ended level f i (.ok (Outcome.ofRejection activation.contract i.attempt (Failure.ofFault fault)),
        { f with host, meter }.record (Report.ofRejection i.attempt (Failure.ofFault fault)),
        [.underivable activation.contract fault])
  | ran (activation : Activation) (callee : Finished ν E) (meter : Meter)
      (admitted : i.admitted? level f = some activation)
      (runs : level.callee? f.host i.amount activation = some callee) :
      Ended level f i
        (.ok (Outcome.ofReport activation.contract
            (callee.report i.attempt activation.gasLimit (Frame.close callee).1) (Frame.close callee).1),
          { f with host := (Frame.close callee).2.1, meter }.record
            (callee.report i.attempt activation.gasLimit (Frame.close callee).1),
          [.ran (level.depth + 1) activation callee.trace callee.ending callee.meter (Frame.close callee).2.2])

variable (level : Level ν E) (f : Frame E) (i : Invocation)

theorem calleeOfAdmitted {activation : Activation} (admitted : i.admitted? level f = some activation) :
    i.callee? level f = level.callee? f.host i.amount activation := by
  rw [callee?, admitted]
  rfl

theorem enterEnded (meter : Meter) {activation : Activation} (admitted : i.admitted? level f = some activation) :
    let entered := Frame.enter level { f with meter } i.attempt i.amount activation
    Ended level f i (.ok entered.1, entered.2) := by
  intro entered
  have callee := i.calleeOfAdmitted level f admitted
  cases deeper : level.enter with
  | none =>
    have absent : i.callee? level f = none := by simp only [callee, Level.callee?, deeper]; rfl
    simp only [entered, Frame.enter, deeper]
    exact .declined activation.contract _ meter absent
  | some run =>
    cases derived : Host.derive f.host activation.contract i.amount (activation.entry = .constructor) with
    | mk answer host =>
      cases answer with
      | error fault =>
        have absent : i.callee? level f = none := by
          simp only [callee, Level.callee?, Activation.opened?, deeper, derived]
          rfl
        simp only [entered, Frame.enter, deeper, derived]
        exact .underivable activation fault host meter absent derived
      | ok _ =>
        simp only [entered, Frame.enter, deeper, derived]
        refine .ran activation _ meter admitted ?_
        simp only [Level.callee?, Activation.opened?, deeper, derived]
        rfl

theorem performEnded : Ended level f i (i.perform level f) := by
  cases admitted : i.admitted? level f with
  | some activation =>
    obtain ⟨meter, charged⟩ := i.addressedCharges f
    have entered := performEntered admitted
    rw [charged] at entered
    rw [entered]
    exact enterEnded level f i meter admitted
  | none =>
    have absent : i.callee? level f = none := by rw [callee?, admitted]; rfl
    rcases unadmittedEnds admitted with ⟨fault, meter, reason, ends⟩ | ⟨contract, failure, meter, ends⟩
    · rw [ends]
      exact .starved fault meter admitted reason
    · rw [ends]
      exact .declined contract failure meter absent

end Invocation

namespace Frame

structure Declined (host : E) (answer : Except Fault Outcome) (after : Frame E) : Prop where
  unsuccessful : ¬ Succeeded answer
  kept : after.host = host ∨
    ∃ contract amount deployment fault, Host.derive host contract amount deployment = (.error fault, after.host)

structure Closed (level : Level ν E) (callee : Finished ν E) (answer : Except Fault Outcome) (after : Frame E)
    (trace : Trace ν) : Prop where
  success : Succeeded answer ↔ ∃ output, (close callee).1 = .ok output
  host : after.host = (close callee).2.1
  trace : ∃ activation,
    trace = [.ran (level.depth + 1) activation callee.trace callee.ending callee.meter (close callee).2.2]

theorem succeededOfReport (contract : Address) (report : Report) (result : Result) :
    Succeeded (.ok (Outcome.ofReport contract report result)) ↔ ∃ output, result = .ok output := by
  cases result with
  | error failure => exact ⟨fun success => (Bool.false_ne_true success).elim, fun ⟨_, other⟩ => nomatch other⟩
  | ok output => exact ⟨fun _ => ⟨output, rfl⟩, fun _ => rfl⟩

omit [Host E] in
theorem recordIfKeeps {α : Type} (f : Frame E) (attempt : Option Attempt) (answer : Except Fault (Metered α)) :
    f.recordIf attempt answer = { f with reports := (f.recordIf attempt answer).reports } := by
  cases attempt with
  | none => rfl
  | some attempt =>
    cases answer with
    | ok value => rfl
    | error fault => cases fault <;> rfl

omit [Host E] in
theorem recordIfHost {α : Type} (f : Frame E) (attempt : Option Attempt) (answer : Except Fault (Metered α)) :
    (f.recordIf attempt answer).host = f.host := by
  rw [recordIfKeeps]

omit [Host E] in
theorem recordIfMeter {α : Type} (f : Frame E) (attempt : Option Attempt) (answer : Except Fault (Metered α)) :
    (f.recordIf attempt answer).meter = f.meter := by
  rw [recordIfKeeps]

theorem queryHost (f : Frame E) (q : Query) : (f.query q).2.host = f.host := by
  unfold query
  split
  · rfl
  · exact recordIfHost _ _ _

end Frame

namespace Invocation

theorem performCases (level : Level ν E) (f : Frame E) (i : Invocation) :
    (i.callee? level f = none ∧ Frame.Declined f.host (i.perform level f).1 (i.perform level f).2.1) ∨
      ∃ callee, i.callee? level f = some callee ∧
        Frame.Closed level callee (i.perform level f).1 (i.perform level f).2.1 (i.perform level f).2.2 := by
  have ended := i.performEnded level f
  generalize i.perform level f = result at ended
  cases ended with
  | starved fault meter absent reason =>
    have none : i.callee? level f = none := by rw [callee?, absent]; rfl
    exact .inl ⟨none, id, .inl rfl⟩
  | declined contract failure meter absent => exact .inl ⟨absent, Bool.false_ne_true, .inl rfl⟩
  | underivable activation fault host meter absent refused =>
    exact .inl ⟨absent, Bool.false_ne_true, .inr ⟨_, _, _, fault, refused⟩⟩
  | ran activation callee meter admitted runs =>
    refine .inr ⟨callee, (i.calleeOfAdmitted level f admitted).trans runs, ?_⟩
    exact ⟨Frame.succeededOfReport activation.contract _ _, rfl, activation, rfl⟩

end Invocation
end CallBoundary
