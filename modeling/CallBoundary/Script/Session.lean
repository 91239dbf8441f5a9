import CallBoundary.Boundary
import CallBoundary.Overlay
import CallBoundary.Script.Frame
/-! Sessions: top-level invocations one after another in one root environment, which is committed
in the end or dropped. -/
namespace CallBoundary.Script

inductive TopCall where
  | execute (contract : Address) (method : String) (args : Arguments) (gasLimit : Gas)
  | deploy (contract : Address) (code : Bytes) (args : Arguments) (gasLimit : Gas)

inductive CommitRule where
  | always
  | never
  | onSuccess
  deriving DecidableEq, Repr

structure Session where
  context : Context
  calls : List TopCall
  rule : CommitRule := .onSuccess
  commitFault : Option (Address × Fault) := none

structure CallEnd where
  log : List (LogLine Note)
  outcome : Outcome
  derivations : Nat
  commits : Nat

structure SessionEnd where
  calls : List CallEnd
  changes : Changes
  committed : Bool
  store : Store

namespace Session

abbrev Root := Counted (CommitFault Overlay)

def start (b : Boundary Note) (s : Session) (store : Store) : Root :=
  { inner := { inner := Overlay.root b.settings s.context store, rule := s.commitFault } }

def invoke (b : Boundary Note) (root : Root) : TopCall → Outcome × Root × Trace Note
  | .execute contract method args gasLimit => b.execute root contract method args gasLimit
  | .deploy contract code args gasLimit => b.deploy root contract code args gasLimit

def invokeAll (b : Boundary Note) (root : Root) : List TopCall → List CallEnd × Root
  | [] => ([], root)
  | call :: rest =>
    let (outcome, after, trace) := invoke b root call
    let (ends, last) := invokeAll b after rest
    (⟨trace.log, outcome, after.derivations, after.commits⟩ :: ends, last)

def commits (rule : CommitRule) (ends : List CallEnd) : Bool :=
  match rule with
  | .always => true
  | .never => false
  | .onSuccess => ends.all fun e => e.outcome.isSuccess

def run (b : Boundary Note) (s : Session) (store : Store) : SessionEnd :=
  let (calls, root) := invokeAll b (s.start b store) s.calls
  let overlay := root.inner.inner
  let committed := commits s.rule calls
  { calls, changes := overlay.own.changes, committed,
    store := if committed then overlay.commit.store else overlay.store }

def runAll (b : Boundary Note) (store : Store) : List Session → List SessionEnd
  | [] => []
  | s :: rest =>
    let ended := s.run b store
    ended :: runAll b ended.store rest

end Session
end CallBoundary.Script
