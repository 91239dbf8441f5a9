import CallBoundary.Overlay
import CallBoundary.Script
import CallBoundary.Trace
/-! Scripts that work on an environment and a meter without a frame. All steps run, whatever
became of the ones before. Nested lists run in an environment of their own, which is closed at
their end, so only what was committed stays. The last value is one for all lists. -/
namespace CallBoundary.Script

inductive OverlayStep where
  | query (label : String) (q : Scope → Query)
  | update (label : String) (u : Scope → Update)
  | codeAt (label : String) (address : Scope → Address)
  | codeHashAt (label : String) (address : Scope → Address)
  | debug (label : String)
  | register (label : String) (code : Scope → Bytes)
  | commit (label : String)
  | clear (label : String)
  | setGasLimit (label : String) (limit : Gas)
  | meter (label : String)
  | changes (label : String)
  | context (label : String)
  | readStorage (label : String) (cell : Scope → Cell)
  | readBalance (label : String) (address : Scope → Address)
  | readCode (label : String) (address : Scope → Address)
  | readIdentity (label : String) (address : Scope → Address)
  | absorb (label : String) (changes : Scope → Changes)
  | derived (label : String) (contract : Scope → Address) (amount : Amount) (deployment : Bool)
      (gasLimit : Option Gas) (steps : List OverlayStep)
  | layered (label : String) (context : Scope → Context) (steps : List OverlayStep)

structure Workspace where
  overlay : Overlay
  meter : Meter
  scope : Scope := {}
  log : List (LogLine Note) := []

namespace Workspace

def noted (w : Workspace) (depth : Nat) (label : String) (answer : Except Fault Value) : Workspace :=
  { w with
    scope := match answer with
      | .ok value => w.scope.after value
      | .error _ => w.scope
    log := w.log ++ [.note depth (.step label w.meter.consumed answer none)] }

def changed (w : Workspace) (overlay : Overlay) (depth : Nat) (label : String) : Workspace :=
  { w with overlay }.noted depth label (.ok .nothing)

mutual
def step (settings : Settings) (depth : Nat) (w : Workspace) : OverlayStep → Workspace
  | .query label q =>
    let (answer, meter) := w.overlay.query w.meter (q w.scope)
    { w with meter }.noted depth label (answer.map (Value.ofAnswer (q w.scope)))
  | .update label u =>
    let (answer, meter, overlay) := w.overlay.update w.meter (u w.scope)
    { w with meter, overlay }.noted depth label (answer.map fun _ => .nothing)
  | .codeAt label address => w.noted depth label (.ok (.data (Host.code? w.overlay (address w.scope))))
  | .codeHashAt label address => w.noted depth label (.ok (.hash (Host.codeHash? w.overlay (address w.scope))))
  | .debug label => w.noted depth label (.ok (.flag (Host.isDebug w.overlay)))
  | .register label code => w.changed (Host.register w.overlay (code w.scope)) depth label
  | .commit label => w.changed w.overlay.commit depth label
  | .clear label => w.changed w.overlay.clear depth label
  | .setGasLimit label limit => { w with meter := w.meter.withLimit limit }.noted depth label (.ok .nothing)
  | .meter label => w.noted depth label (.ok (.meter w.meter))
  | .changes label => w.noted depth label (.ok (.changes w.overlay.own.changes))
  | .context label => w.noted depth label (.ok (.context w.overlay.own.context))
  | .readStorage label cell => w.noted depth label (.ok (.data (w.overlay.view.storage (cell w.scope))))
  | .readBalance label address => w.noted depth label (.ok (.amount (w.overlay.view.balance (address w.scope))))
  | .readCode label address => w.noted depth label (.ok (.data (w.overlay.view.code (address w.scope))))
  | .readIdentity label address =>
    w.noted depth label (.ok (.identity w.overlay.store.identities[address w.scope]?))
  | .absorb label changes => w.changed (w.overlay.absorb (changes w.scope)) depth label
  | .derived label contract amount deployment gasLimit inner =>
    match w.overlay.derive (contract w.scope) amount deployment with
    | (.error fault, overlay) => { w with overlay }.noted depth label (.error fault)
    | (.ok (), child) =>
      let started := { w with overlay := child, meter := gasLimit.elim w.meter Meter.ofLimit }
      let ended := steps settings (depth + 1) started inner
      let meter := if gasLimit.isSome then w.meter else ended.meter
      { ended with meter }.changed ended.overlay.release depth label
  | .layered label context inner =>
    let started := { w with overlay := w.overlay.stacked settings (context w.scope) }
    let ended := steps settings (depth + 1) started inner
    ended.changed ended.overlay.release depth label

def steps (settings : Settings) (depth : Nat) (w : Workspace) : List OverlayStep → Workspace
  | [] => w
  | first :: rest => steps settings depth (step settings depth w first) rest
end

end Workspace
end CallBoundary.Script
