import CallBoundary.Attempt
import CallBoundary.Fault
/-! What is reported of an attempt: how it ended and the reports of what it attempted in turn, in so many levels and
with so many bytes of the arguments; the wire form of reports, where a present attempt is written even when all of it
is default; and what a caller gets back from an invocation. -/
namespace CallBoundary

structure Report where
  attempt : Option Attempt := none
  success : Bool := false
  error : String := ""
  gasUsed : Gas := 0
  remainingGas : Gas := 0
  output : Bytes := []
  subs : List Report := []
  deriving Repr

namespace Report

mutual
def depth : Report → Nat
  | ⟨_, _, _, _, _, _, subs⟩ => 1 + depthAll subs

def depthAll : List Report → Nat
  | [] => 0
  | r :: rest => max r.depth (depthAll rest)
end

mutual
def size : Report → Nat
  | ⟨_, _, _, _, _, _, subs⟩ => 1 + sizeAll subs

def sizeAll : List Report → Nat
  | [] => 0
  | r :: rest => r.size + sizeAll rest
end

def maxDepth : Nat := 5

def maxArgs : Nat := 100

def clipArgs (a : Attempt) : Attempt := { a with args := a.args.take maxArgs }

def boundBelow : Nat → Report → Report
  | 0, r => { r with attempt := r.attempt.map clipArgs, subs := [] }
  | levels + 1, r => { r with attempt := r.attempt.map clipArgs, subs := r.subs.map (boundBelow levels) }

def bounded (r : Report) : Report := boundBelow (maxDepth - 1) r

mutual
def encode : Report → Bytes
  | ⟨attempt, success, error, gasUsed, remainingGas, output, subs⟩ =>
    Wire.encodeFields
      ((attempt.map fun a => ⟨1, .bytes a.encode⟩).toList ++ Wire.Field.ofNat 2 success.toNat ++
        Wire.Field.ofBytes 3 (Text.bytes error) ++ Wire.Field.ofNat 4 gasUsed.toNat ++
        Wire.Field.ofNat 5 remainingGas.toNat ++ Wire.Field.ofBytes 6 output ++ fieldsOfSubs subs)

def fieldsOfSubs : List Report → List Wire.Field
  | [] => []
  | r :: rest => ⟨7, .bytes r.encode⟩ :: fieldsOfSubs rest
end

-- `nested` is the budget one level down, and is absent where the budget is used up. An attempt that comes twice is
-- merged, field by field.
def merge (nested : Option Nat) (r : Report) : Wire.Field → Option Report
  | ⟨1, .bytes raw⟩ => do
    let attempt ← Attempt.read (← nested) (r.attempt.getD {}) raw
    some { r with attempt := some attempt }
  | ⟨2, .varint n⟩ => some { r with success := n ≠ 0 }
  | ⟨3, .bytes raw⟩ => (Text.ofBytes? raw).map fun error => { r with error }
  | ⟨4, .varint n⟩ => some { r with gasUsed := UInt64.ofNat n }
  | ⟨5, .varint n⟩ => some { r with remainingGas := UInt64.ofNat n }
  | ⟨6, .bytes raw⟩ => some { r with output := raw }
  | ⟨7, .bytes _⟩ => some r
  | ⟨number, _⟩ => if number ≤ 7 ∨ nested.isNone then none else some r

def rawSubs (fields : List Wire.Field) : List Bytes :=
  fields.filterMap fun
    | ⟨7, .bytes raw⟩ => some raw
    | _ => none

def read : Nat → Bytes → Option Report
  | 0, raw => do
    let fields ← Wire.readFields 0 [] raw
    if rawSubs fields = [] then fields.foldlM (merge none) {} else none
  | budget + 1, raw => do
    let fields ← Wire.readFields (budget + 1) [] raw
    let r ← fields.foldlM (merge (some budget)) {}
    let subs ← (rawSubs fields).mapM (read budget)
    some { r with subs }

def decode (raw : Bytes) : Option Report := read Wire.nestingLimit raw

end Report

abbrev Result := Except Failure (Option Bytes)

namespace Report

-- The whole report of an invocation. One that ran out of gas has used its limit, whatever its meter says, and a
-- failure has no output.
def whole (attempt : Attempt) (gasLimit gasUsed : Gas) (subs : List Report) (result : Result) : Report :=
  match result with
  | .ok output =>
    { attempt, success := true, gasUsed, remainingGas := Gas.less gasLimit gasUsed, output := output.getD [], subs }
  | .error failure =>
    let used := if failure = .outOfGas then gasLimit else gasUsed
    { attempt, error := failure.display, gasUsed := used, remainingGas := Gas.less gasLimit used, subs }

def ofInvocation (attempt : Attempt) (gasLimit gasUsed : Gas) (subs : List Report) (result : Result) : Report :=
  (whole attempt gasLimit gasUsed subs result).bounded

def ofRejection (attempt : Attempt) (failure : Failure) : Report :=
  ofInvocation attempt attempt.gasLimit 0 [] (.error failure)

end Report

structure Outcome where
  contract : Address
  gasUsed : Gas
  report : Bytes
  result : Result

namespace Outcome

def ofReport (contract : Address) (report : Report) (result : Result) : Outcome :=
  ⟨contract, report.gasUsed, report.encode, result⟩

def ofRejection (contract : Address) (attempt : Attempt) (failure : Failure) : Outcome :=
  ofReport contract (Report.ofRejection attempt failure) (.error failure)

def status (o : Outcome) : Status :=
  match o.result with
  | .ok _ => .ok
  | .error failure => failure.status

def isSuccess (o : Outcome) : Bool :=
  match o.result with
  | .ok _ => true
  | .error _ => false

end Outcome

end CallBoundary
