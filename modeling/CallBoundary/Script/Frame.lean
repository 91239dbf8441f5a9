import CallBoundary.Interpreter.RunningSum
import CallBoundary.Script
import CallBoundary.Trace
/-! Scripts that run in frames. Every step that is carried out leaves a note. A step that fails
ends the frame unless its fault is caught; a call may pass the failure of its callee on, and may
charge its own frame with what the callee used. -/
namespace CallBoundary.Script

inductive Command where
  | query (q : Scope → Query)
  | update (u : Scope → Update)
  | event (name : String) (packed : Data)
  | debug
  | meter
  | reports
  | frame
  | consumeGas (gas : Gas)
  | setGasLimit (limit : Gas)
  | commit
  | call (c : Scope → Call) (charge bubble : Bool)
  | deploy (d : Scope → Deployment) (charge bubble : Bool)

inductive Step where
  | act (label : String) (command : Command) (caught : Bool)
  | stop (ending : Scope → Ending)

structure Done where
  answer : Except Fault Value
  gasUsed : Option Gas := none
  passedOn : Option Fault := none

namespace Done

def ofMetered {α : Type} (value : α → Value) : Except Fault (Metered α) → Done
  | .ok metered => { answer := .ok (value metered.value), gasUsed := some metered.gasUsed }
  | .error fault => { answer := .error fault }

def ofUnit : Except Fault Unit → Done
  | .ok () => { answer := .ok .nothing }
  | .error fault => { answer := .error fault }

def ofOutcome (value : Outcome → Value) (bubble : Bool) (outcome : Outcome) : Done where
  answer := .ok (value outcome)
  passedOn :=
    match outcome.result with
    | .error failure => if bubble then some (.failed failure.display) else none
    | .ok _ => none

end Done

namespace Command

def settleCall (value : Outcome → Value) (charge bubble : Bool) : Except Fault Outcome → Program Note Done
  | .error fault => pure { answer := .error fault }
  | .ok outcome => do
    if charge then
      match ← Program.run (.consumeGas outcome.gasUsed) with
      | .error fault => pure { answer := .error fault }
      | .ok () => pure (Done.ofOutcome value bubble outcome)
    else pure (Done.ofOutcome value bubble outcome)

def perform (s : Scope) : Command → Program Note Done
  | query q => do pure (Done.ofMetered (Value.ofAnswer (q s)) (← Program.run (.query (q s))))
  | update u => do pure (Done.ofMetered (fun _ => .nothing) (← Program.run (.update (u s))))
  | event name packed => do
    pure (Done.ofMetered (fun _ => .nothing) (← Program.run (.event name (packed.eval s))))
  | debug => do pure { answer := .ok (.flag (← Program.run (.ask .debug))) }
  | meter => do pure { answer := .ok (.meter (← Program.run (.ask .meter))) }
  | reports => do pure { answer := .ok (.reports (← Program.run (.ask .reports))) }
  | frame => do
    let depth ← Program.run (.ask .depth)
    let meter ← Program.run (.ask .meter)
    let settings ← Program.run (.ask .settings)
    pure { answer := .ok (.frame depth meter.consumed settings.maxCallDepth) }
  | consumeGas gas => do pure (Done.ofUnit (← Program.run (.consumeGas gas)))
  | setGasLimit limit => do
    let _ ← Program.run (.setGasLimit limit)
    pure { answer := .ok .nothing }
  | commit => do pure (Done.ofUnit (← Program.run .commit))
  | call c charge bubble => do settleCall .called charge bubble (← Program.run (.call (c s)))
  | deploy d charge bubble => do settleCall .deployed charge bubble (← Program.run (.deploy (d s)))

def noted (label : String) (s : Scope) (c : Command) : Program Note Done := do
  let done ← c.perform s
  let meter ← Program.run (.ask .meter)
  .note (.step label meter.consumed done.answer done.gasUsed) (pure done)

end Command

def Ending.toProgram : Ending → Program Note (Option Bytes)
  | .returned output => .ret output
  | .faulted fault => .raise fault
  | .panicked text => .panic text

def Scope.afterDone (s : Scope) (done : Done) : Scope :=
  match done.answer with
  | .ok value => s.after value
  | .error _ => s

def toProgram : List Step → Scope → Program Note (Option Bytes)
  | [], _ => pure none
  | .stop ending :: _, s => Ending.toProgram (ending s)
  | .act label command caught :: rest, s => do
    let done ← command.noted label s
    match done.answer, done.passedOn with
    | .error fault, _ => if caught then toProgram rest s else .raise fault
    | .ok _, some fault => .raise fault
    | .ok value, none => toProgram rest (s.after value)

def allOf : List Step → Scope → Program Note (Option Bytes)
  | [], _ => pure none
  | .stop _ :: rest, s => allOf rest s
  | .act label command _ :: rest, s => do
    let done ← command.noted label s
    allOf rest (s.afterDone done)

structure Contract where
  steps : List Step
  methods : List (String × List Step) := []
  constructor : Option (List Step) := none

namespace Contract

def stepsOf (c : Contract) : Entry → List Step
  | .constructor => c.constructor.getD c.steps
  | .method name => (c.methods.lookup name).getD c.steps

def interpreter (c : Contract) : Interpreter Note := fun activation =>
  .note (.begun activation) (toProgram (c.stepsOf activation.entry) { activation := some activation })

end Contract
end CallBoundary.Script
