import CallBoundary.Program
/-! What happened in a frame, in order: its notes, the operations it performed with their answers, the frames that ran
inside it with how they ended, and the calls that failed before any frame was opened. What an embedder would log of it
is a view: internal faults, breakdowns and failed commits. A breakdown is caught where the frame ends, and all that is
kept of it is its text; one whose own clean-up breaks down again, outside that catch, is not covered. -/
namespace CallBoundary

inductive Ending where
  | returned (output : Option Bytes)
  | faulted (fault : Fault)
  | panicked (text : Option String)
  deriving DecidableEq, Repr

namespace Trace

inductive Item (ν : Type) where
  | noted (n : ν)
  | performed (op : Operation) (answer : op.Answer)
  | underivable (contract : Address) (fault : Fault)
  | ran (depth : Nat) (activation : Activation) (items : List (Item ν)) (ending : Ending) (meter : Meter)
      (commitFault : Option Fault)

end Trace

abbrev Trace (ν : Type) := List (Trace.Item ν)

inductive LogLine (ν : Type) where
  | note (depth : Nat) (n : ν)
  | internalFault (contract : Address) (text : String)
  | panicked (contract : Address) (text : String)
  | commitFailed (contract : Address) (fault : Fault)

namespace LogLine

variable {ν : Type}

def unnamedPanic : String := "non-string panic payload"

def ofFault (contract : Address) : Fault → List (LogLine ν)
  | .internal text => [internalFault contract text]
  | _ => []

def ofEnding (contract : Address) : Ending → List (LogLine ν)
  | .returned _ => []
  | .faulted fault => ofFault contract fault
  | .panicked text => [panicked contract (text.getD unnamedPanic)]

end LogLine

namespace Trace

variable {ν : Type}

mutual
def Item.log (depth : Nat) : Item ν → List (LogLine ν)
  | .noted n => [.note depth n]
  | .performed _ _ => []
  | .underivable contract fault => LogLine.ofFault contract fault
  | .ran inner activation items ending _ commitFault =>
    logAll inner items ++ LogLine.ofEnding activation.contract ending ++
      (commitFault.map (LogLine.commitFailed activation.contract)).toList

def logAll (depth : Nat) : List (Item ν) → List (LogLine ν)
  | [] => []
  | item :: rest => item.log depth ++ logAll depth rest
end

def log (t : Trace ν) : List (LogLine ν) := logAll 0 t

end Trace
end CallBoundary
