import CallBoundary.Trace
/-! The frame: a host environment, a meter and the reports of what was attempted so far, and what the requests that
stay in the frame do to them. The depth, the settings and the way to run what is called come from outside. A metered
request checks the meter first; sending value, reading an identity and reading the data of another contract leave a
report unless they ran out of gas. A call or a deployment is refused, in this order, where there is no code to call or
code already to deploy over, where it would go too deep, and where no environment can be opened for it. Otherwise it
runs in an environment of its own, which is committed on success and forgotten on failure; either way the caller keeps
one report. -/
namespace CallBoundary

structure Frame (E : Type) where
  host : E
  meter : Meter
  reports : List Report

structure Finished (ν E : Type) extends Frame E where
  ending : Ending
  trace : Trace ν

structure Level (ν E : Type) where
  depth : Nat
  settings : Settings
  enter : Option (E → Activation → Finished ν E)

namespace Ending

def result : Ending → Result
  | returned output => .ok output
  | faulted fault => .error (Failure.ofFault fault)
  | panicked _ => .error .internalFault

end Ending

namespace Finished

variable {ν E : Type}

def result (f : Finished ν E) : Result := if f.meter.exhausted then .error .outOfGas else f.ending.result

def report (f : Finished ν E) (attempt : Attempt) (gasLimit : Gas) (result : Result) : Report :=
  Report.ofInvocation attempt gasLimit f.meter.consumed f.reports result

end Finished

namespace Frame

variable {ν E : Type}

def ofLimit (host : E) (gasLimit : Gas) : Frame E := ⟨host, Meter.ofLimit gasLimit, []⟩

def record (f : Frame E) (report : Report) : Frame E := { f with reports := f.reports ++ [report] }

def metered {α : Type} (before after : Meter) : Except Fault α → Except Fault (Metered α)
  | .ok value => .ok ⟨value, Gas.less after.consumed before.consumed⟩
  | .error fault => .error fault

-- Reports a host operation; one that ran out of gas takes the whole frame down and is left out.
def recordAttempt {α : Type} (f : Frame E) (attempt : Attempt) : Except Fault (Metered α) → Frame E
  | .ok answer => f.record { attempt, success := true, gasUsed := answer.gasUsed }
  | .error .outOfGas => f
  | .error fault => f.record { attempt, error := (Failure.ofFault fault).display }

def attemptOfQuery : Query → Option Attempt
  | .identity address => some (Attempt.ofIdentityRead address)
  | .storageOf contract key => some (Attempt.ofDataRead contract key)
  | _ => none

def attemptOfUpdate : Update → Option Attempt
  | .send recipient amount => some (Attempt.ofTransfer recipient amount)
  | _ => none

def recordIf {α : Type} (f : Frame E) (attempt : Option Attempt) (answer : Except Fault (Metered α)) : Frame E :=
  match attempt with
  | none => f
  | some attempt => f.recordAttempt attempt answer

variable [Host E]

def query (f : Frame E) (q : Query) : Except Fault (Metered q.Answer) × Frame E :=
  if f.meter.exhausted then (.error .outOfGas, f)
  else
    let (answer, meter) := Host.query f.host f.meter q
    let answer := metered f.meter meter answer
    (answer, { f with meter }.recordIf (attemptOfQuery q) answer)

def update (f : Frame E) (u : Update) : Except Fault (Metered Unit) × Frame E :=
  if f.meter.exhausted then (.error .outOfGas, f)
  else
    let (answer, meter, host) := Host.update f.host f.meter u
    let answer := metered f.meter meter answer
    (answer, { f with meter, host }.recordIf (attemptOfUpdate u) answer)

def ask (level : Level ν E) (f : Frame E) : (p : Probe) → p.Answer
  | .depth => level.depth
  | .settings => level.settings
  | .meter => f.meter
  | .reports => f.reports
  | .debug => Host.isDebug f.host

def consumeGas (f : Frame E) (gas : Gas) : Except Fault Unit × Frame E :=
  let meter := f.meter.consume gas
  (if meter.exhausted then .error .outOfGas else .ok (), { f with meter })

def commit (level : Level ν E) (f : Frame E) : Except Fault Unit × Frame E :=
  if 0 < level.depth then (.error .nestedCommit, f)
  else
    match Host.commit f.host with
    | (.ok (), host) => (.ok (), { f with host := Host.clear host })
    | (.error fault, host) => (.error fault, { f with host })

def reject (f : Frame E) (attempt : Attempt) (contract : Address) (failure : Failure) : Outcome × Frame E :=
  (Outcome.ofRejection contract attempt failure, f.record (Report.ofRejection attempt failure))

def close (finished : Finished ν E) : Result × E × Option Fault :=
  match finished.result with
  | .error failure => (.error failure, Host.release finished.host, none)
  | .ok output =>
    match Host.commit finished.host with
    | (.ok (), host) => (.ok output, Host.release host, none)
    | (.error fault, host) => (.error (Failure.ofFault fault), Host.release host, some fault)

def enter (level : Level ν E) (f : Frame E) (attempt : Attempt) (amount : Amount) (activation : Activation) :
    Outcome × Frame E × Trace ν :=
  let deployment := activation.entry = .constructor
  match level.enter with
  | none =>
    let (outcome, after) := f.reject attempt activation.contract .callDepthExceeded
    (outcome, after, [])
  | some run =>
    match Host.derive f.host activation.contract amount deployment with
    | (.error fault, host) =>
      let (outcome, after) := { f with host }.reject attempt activation.contract (Failure.ofFault fault)
      (outcome, after, [.underivable activation.contract fault])
    | (.ok (), child) =>
      let finished := run (if deployment then Host.register child activation.code else child) activation
      let (result, host, commitFault) := close finished
      let report := finished.report attempt activation.gasLimit result
      (Outcome.ofReport activation.contract report result, { f with host }.record report,
        [.ran (level.depth + 1) activation finished.trace finished.ending finished.meter commitFault])

def call (level : Level ν E) (f : Frame E) (c : Call) : Except Fault Outcome × Frame E × Trace ν :=
  if f.meter.exhausted then (.error .outOfGas, f, [])
  else
    match Host.code? f.host c.contract with
    | none =>
      let (outcome, after) := f.reject c.attempt c.contract .codeIsEmpty
      (.ok outcome, after, [])
    | some code =>
      let (outcome, after, trace) := f.enter level c.attempt c.amount (c.activation code level.settings.debug)
      (.ok outcome, after, trace)

def deploy (level : Level ν E) (f : Frame E) (d : Deployment) : Except Fault Outcome × Frame E × Trace ν :=
  match f.query (.addressOfCode d.code d.args d.nonce) with
  | (.error fault, f) => (.error fault, f, [])
  | (.ok ⟨contract, _⟩, f) =>
    match Host.codeHash? f.host contract with
    | some _ =>
      let (outcome, after) := f.reject d.attempt contract .alreadyDeployed
      (.ok outcome, after, [])
    | none =>
      let (outcome, after, trace) := f.enter level d.attempt d.amount (d.activation contract level.settings.debug)
      (.ok outcome, after, trace)

end Frame

end CallBoundary
