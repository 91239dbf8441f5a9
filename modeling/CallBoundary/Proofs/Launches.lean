import CallBoundary.Proofs.Invocations
import CallBoundary.Proofs.Runs
/-! Invocations from outside: what the embedder can ask for, and all that it can come to. Where nothing
stands against it exactly one frame runs at the top, in the root environment, which holds the code
already if the invocation is a deployment. -/
namespace CallBoundary

inductive Launch where
  | execute (contract : Address) (method : String) (args : Arguments) (gasLimit : Gas)
  | deploy (contract : Address) (code : Bytes) (args : Arguments) (gasLimit : Gas)
  deriving DecidableEq, Repr

namespace Launch

variable {ν E : Type} [Host E]

def contract : Launch → Address
  | execute contract _ _ _ | deploy contract _ _ _ => contract

def invocation : Launch → Invocation
  | execute contract method args gasLimit => .call ⟨contract, method, args.pack, Amount.zero, [], gasLimit⟩
  | deploy _ code args gasLimit => .deploy ⟨code, args.pack, [], Amount.zero, gasLimit⟩

def run (b : Boundary ν) (host : E) : Launch → Outcome × E × Trace ν
  | execute contract method args gasLimit => b.execute host contract method args gasLimit
  | deploy contract code args gasLimit => b.deploy host contract code args gasLimit

def prepared (host : E) : Launch → E
  | execute _ _ _ _ => host
  | deploy _ code _ _ => Host.register host code

def Vacant (host : E) : Launch → Prop
  | execute _ _ _ _ => True
  | deploy contract _ _ _ => Host.codeHash? host contract = none

def admitted? (b : Boundary ν) (host : E) : Launch → Option Activation
  | execute contract method args gasLimit =>
    (Host.code? host contract).map fun code =>
      Call.activation ⟨contract, method, args.pack, Amount.zero, [], gasLimit⟩ code b.settings.debug
  | deploy contract code args gasLimit =>
    match Host.codeHash? host contract with
    | some _ => none
    | none => some (Deployment.activation ⟨code, args.pack, [], Amount.zero, gasLimit⟩ contract b.settings.debug)

theorem admittedGiven {b : Boundary ν} {host : E} {l : Launch} {activation : Activation}
    (admitted : l.admitted? b host = some activation) :
    activation.contract = l.contract ∧ activation.args = l.invocation.args ∧
      activation.gasLimit = l.invocation.gasLimit ∧ l.Vacant host := by
  cases l with
  | execute contract method args gasLimit =>
    obtain ⟨code, -, rfl⟩ := Option.map_eq_some_iff.mp admitted
    exact ⟨rfl, rfl, rfl, trivial⟩
  | deploy contract code args gasLimit =>
    simp only [admitted?] at admitted
    split at admitted
    · cases admitted
    · rename_i vacant
      cases admitted
      exact ⟨rfl, rfl, rfl, vacant⟩

inductive Ended (b : Boundary ν) (host : E) (l : Launch) : Outcome × E × Trace ν → Prop
  | declined (failure : Failure) (absent : l.admitted? b host = none) :
      Ended b host l (Outcome.ofRejection l.contract l.invocation.attempt failure, host, [])
  | ran (activation : Activation) (admitted : l.admitted? b host = some activation) :
      Ended b host l (b.run (l.prepared host) l.invocation.attempt activation)

theorem runEnded (b : Boundary ν) (host : E) (l : Launch) : Ended b host l (l.run b host) := by
  cases l with
  | execute contract method args gasLimit =>
    simp only [run, Boundary.execute]
    cases found : Host.code? host contract with
    | none => exact .declined .codeIsEmpty (by simp only [admitted?, found, Option.map_none])
    | some code => exact .ran _ (by simp only [admitted?, found, Option.map_some])
  | deploy contract code args gasLimit =>
    simp only [run, Boundary.deploy]
    cases found : Host.codeHash? host contract with
    | some hash => exact .declined .alreadyDeployed (by simp only [admitted?, found])
    | none => exact .ran _ (by simp only [admitted?, found])

theorem admittedRuns {b : Boundary ν} {host : E} {l : Launch} {activation : Activation}
    (admitted : l.admitted? b host = some activation) :
    l.run b host = b.run (l.prepared host) l.invocation.attempt activation := by
  have ended := l.runEnded b host
  generalize l.run b host = result at ended
  cases ended with
  | declined failure absent =>
    rw [absent] at admitted
    cases admitted
  | ran other also =>
    cases admitted.symm.trans also
    rfl

end Launch
end CallBoundary
