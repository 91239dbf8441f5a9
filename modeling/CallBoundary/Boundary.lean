import CallBoundary.Frame
/-! The boundary between the embedder and the contracts: an interpreter and the settings it runs under. A program runs
in a frame one operation after another, each answer going back into the program, and everything that happened is kept
in order. Top-level invocations enter here. The embedder opens the root environment of the invoked contract, and
afterwards commits it if the outcome is a success and drops it if not. -/
namespace CallBoundary

variable {ν E : Type} [Host E]

namespace Frame

def step (level : Level ν E) (f : Frame E) : (op : Operation) → op.Answer × Frame E × Trace ν
  | .query q => let (answer, after) := f.query q; (answer, after, [])
  | .update u => let (answer, after) := f.update u; (answer, after, [])
  | .ask p => (f.ask level p, f, [])
  | .consumeGas gas => let (answer, after) := f.consumeGas gas; (answer, after, [])
  | .setGasLimit limit => ((), { f with meter := f.meter.withLimit limit }, [])
  | .commit => let (answer, after) := f.commit level; (answer, after, [])
  | .call c => f.call level c
  | .deploy d => f.deploy level d

end Frame

namespace Program

def exec (level : Level ν E) : Program ν (Option Bytes) → Frame E → Finished ν E
  | ret output, f => ⟨f, .returned output, []⟩
  | raise fault, f => ⟨f, .faulted fault, []⟩
  | panic text, f => ⟨f, .panicked text, []⟩
  | note n next, f =>
    let after := next.exec level f
    { after with trace := .noted n :: after.trace }
  | perform op next, f =>
    let (answer, middle, inside) := f.step level op
    let after := (next answer).exec level middle
    { after with trace := inside ++ .performed op answer :: after.trace }

end Program

structure Boundary (ν : Type) where
  interpreter : Interpreter ν
  settings : Settings

namespace Boundary

def level (b : Boundary ν) : (room depth : Nat) → Level ν E
  | 0, depth => ⟨depth, b.settings, none⟩
  | room + 1, depth =>
    ⟨depth, b.settings, some fun host activation =>
      (b.interpreter activation).exec (b.level room (depth + 1)) (Frame.ofLimit host activation.gasLimit)⟩

def top (b : Boundary ν) : Level ν E := b.level b.settings.maxCallDepth.toNat 0

def run (b : Boundary ν) (host : E) (attempt : Attempt) (activation : Activation) : Outcome × E × Trace ν :=
  let finished := (b.interpreter activation).exec b.top (Frame.ofLimit host activation.gasLimit)
  let report := finished.report attempt activation.gasLimit finished.result
  (Outcome.ofReport activation.contract report finished.result, finished.host,
    [.ran 0 activation finished.trace finished.ending finished.meter none])

def execute (b : Boundary ν) (host : E) (contract : Address) (method : String) (args : Arguments) (gasLimit : Gas) :
    Outcome × E × Trace ν :=
  let c : Call := ⟨contract, method, args.pack, Amount.zero, [], gasLimit⟩
  match Host.code? host contract with
  | none => (Outcome.ofRejection contract c.attempt .codeIsEmpty, host, [])
  | some code => b.run host c.attempt (c.activation code b.settings.debug)

-- Where the constructor fails the registration is still in the root.
def deploy (b : Boundary ν) (host : E) (contract : Address) (code : Bytes) (args : Arguments) (gasLimit : Gas) :
    Outcome × E × Trace ν :=
  let d : Deployment := ⟨code, args.pack, [], Amount.zero, gasLimit⟩
  match Host.codeHash? host contract with
  | some _ => (Outcome.ofRejection contract d.attempt .alreadyDeployed, host, [])
  | none => b.run (Host.register host code) d.attempt (d.activation contract b.settings.debug)

end Boundary

end CallBoundary
