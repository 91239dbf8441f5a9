import CallBoundary.Program
/-! Scripts. A script is a list of steps, and the data in a step may refer to the value of the last step that had one
and to what the frame was entered with; outside a frame there is nothing of the kind to refer to. Steps have values
and leave notes. -/
namespace CallBoundary

namespace Script

structure Scope where
  last : Bytes := []
  activation : Option Activation := none

inductive Data where
  | literal (raw : Bytes)
  | repeated (data : Data) (count : Nat)
  | joined (parts : List Data)
  | packed (args : List (Option Data))
  | last
  | arg (index : Nat)
  | args
  | context
  | code
  | self

namespace Data

def repeatBytes (raw : Bytes) (count : Nat) : Bytes := (List.replicate count raw).flatten

mutual
def eval (s : Scope) : Data → Bytes
  | literal raw => raw
  | repeated data count => repeatBytes (data.eval s) count
  | joined parts => evalAll s parts
  | packed items => Arguments.pack (evalArgs s items)
  | last => s.last
  | arg index => (s.activation.bind fun a => (a.arguments[index]?).join).getD []
  | args => s.activation.elim [] Activation.args
  | context => s.activation.elim [] Activation.context
  | code => s.activation.elim [] Activation.code
  | self => s.activation.elim [] fun a => a.contract.toList

def evalAll (s : Scope) : List Data → Bytes
  | [] => []
  | data :: rest => data.eval s ++ evalAll s rest

def evalArg (s : Scope) : Option Data → Option Bytes
  | none => none
  | some data => some (data.eval s)

def evalArgs (s : Scope) : List (Option Data) → Arguments
  | [] => []
  | item :: rest => evalArg s item :: evalArgs s rest
end

def evalFixed (n : Nat) (s : Scope) (data : Data) : FixedBytes n := FixedBytes.last n (data.eval s)

end Data

inductive Value where
  | nothing
  | flag (value : Bool)
  | data (value : Option Bytes)
  | word8 (value : UInt8)
  | word16 (value : UInt16)
  | word64 (value : UInt64)
  | signed64 (value : Int64)
  | amount (value : Amount)
  | address (value : Address)
  | hash (value : Option Hash)
  | meter (value : Meter)
  | reports (value : List Report)
  | frame (depth : Nat) (consumed : Gas) (maxCallDepth : UInt64)
  | called (outcome : Outcome)
  | deployed (outcome : Outcome)
  | changes (value : Changes)
  | context (value : Context)
  | identity (value : Option Identity)

namespace Value

def bytes? : Value → Option Bytes
  | data value => some (value.getD [])
  | word8 value => some (Bytes.le 1 value.toNat)
  | word16 value => some (Bytes.le 2 value.toNat)
  | word64 value => some (Bytes.le 8 value.toNat)
  | signed64 value => some (Bytes.le 8 value.toUInt64.toNat)
  | amount value => some value.encode
  | address value => some value.toList
  | hash value => some (value.elim [] FixedBytes.toList)
  | called outcome => some outcome.report
  | deployed outcome => some outcome.contract.toList
  | _ => none

def ofAnswer : (q : Query) → q.Answer → Value
  | .storage _, a | .storageOf _ _, a | .identity _, a | .codeOf _, a | .ownCode, a | .blockHeader _, a => data a
  | .blockNumber, a | .networkSize, a => word64 a
  | .blockTimestamp, a => signed64 a
  | .blockSeed, a | .globalState, a => data (some a)
  | .epoch, a => word16 a
  | .minFeePerGas, a | .balance _, a | .payAmount, a => amount a
  | .identityState _, a => word8 a
  | .caller, a | .originalCaller, a | .contractAddress, a | .addressOfCode _ _ _, a | .addressOfHash _ _ _, a =>
    address a
  | .codeHash, a => hash a
  | .keccak _, a => hash (some a)

end Value

def Scope.after (s : Scope) (value : Value) : Scope := { s with last := value.bytes?.getD s.last }

inductive Note where
  | begun (activation : Activation)
  | step (label : String) (consumed : Gas) (answer : Except Fault Value) (gasUsed : Option Gas)

end Script

end CallBoundary
