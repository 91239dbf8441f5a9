import CallBoundary.Bytes
/-! How a host operation or a whole invocation fails. A fault is what a frame sees of its own
operations; a failure is what its caller learns. The text of an internal fault stays on the
inner side: no failure carries it. -/
namespace CallBoundary

inductive Fault where
  | outOfGas
  | failed (message : String)
  | internal (message : String)
  deriving DecidableEq, Repr

inductive Failure where
  | outOfGas
  | internalFault
  | other (message : String)
  deriving DecidableEq, Repr

inductive Status where
  | ok
  | internalFault
  | outOfGas
  | other
  deriving DecidableEq, Repr

namespace Fault

def display : Fault → String
  | outOfGas => "out of gas"
  | failed message => message
  | internal message => "internal fault: " ++ message

def insufficientBalance : Fault := failed "insufficient balance"

def alreadyDeployed : Fault := failed "contract is already deployed"

def nestedCommit : Fault := failed "commit is only allowed at the top level"

end Fault

namespace Failure

def display : Failure → String
  | outOfGas => "out of gas"
  | internalFault => "internal fault"
  | other message => message

def ofFault : Fault → Failure
  | .outOfGas => outOfGas
  | .failed message => other message
  | .internal _ => internalFault

def status : Failure → Status
  | outOfGas => .outOfGas
  | internalFault => .internalFault
  | other _ => .other

def codeIsEmpty : Failure := other "code is empty"

def alreadyDeployed : Failure := ofFault Fault.alreadyDeployed

def callDepthExceeded : Failure := other "call depth exceeded"

end Failure

namespace Status

def all : List Status := [ok, internalFault, outOfGas, other]

def code : Status → Nat
  | ok => 0
  | internalFault => 1
  | outOfGas => 2
  | other => 3

def name : Status → String
  | ok => "Ok"
  | internalFault => "InternalFault"
  | outOfGas => "OutOfGas"
  | other => "Other"

def display : Status → String
  | ok => "ok"
  | internalFault => "internal fault"
  | outOfGas => "out of gas"
  | other => "other"

def isOk (s : Status) : Bool := s = ok

end Status
end CallBoundary
