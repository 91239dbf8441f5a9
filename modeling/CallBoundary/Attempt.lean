import CallBoundary.Gas
import CallBoundary.State
/-! The record of one attempted operation and its wire form. The kind is kept as the number it
was read as, so that a record of an unknown kind survives reading and writing. -/
namespace CallBoundary

structure Attempt where
  kindCode : UInt32 := 0
  amount : Bytes := []
  method : String := ""
  args : Bytes := []
  gasLimit : Gas := 0
  code : Bytes := []
  nonce : Bytes := []
  deriving DecidableEq, Repr

namespace Attempt

inductive Kind where
  | functionCall
  | transfer
  | deployContract
  | readContractData
  | readIdentity
  deriving DecidableEq, Repr

namespace Kind

def all : List Kind := [functionCall, transfer, deployContract, readContractData, readIdentity]

def code : Kind → UInt32
  | functionCall => 1
  | transfer => 2
  | deployContract => 3
  | readContractData => 4
  | readIdentity => 5

def ofCode? (n : UInt32) : Option Kind := all.find? fun k => k.code = n

def name : Kind → String
  | functionCall => "FunctionCall"
  | transfer => "Transfer"
  | deployContract => "DeployContract"
  | readContractData => "ReadContractData"
  | readIdentity => "ReadIdentity"

def display : Kind → String
  | functionCall => "function call"
  | transfer => "transfer"
  | deployContract => "deploy contract"
  | readContractData => "read contract data"
  | readIdentity => "read identity"

end Kind

def kind? (a : Attempt) : Option Kind := Kind.ofCode? a.kindCode

def ofCall (method : String) (args : Bytes) (amount : Amount) (gasLimit : Gas) : Attempt :=
  { kindCode := Kind.functionCall.code, amount := amount.encode, method, args, gasLimit }

def deployMethod : String := "deploy"

def ofDeploy (code args nonce : Bytes) (amount : Amount) (gasLimit : Gas) : Attempt :=
  { kindCode := Kind.deployContract.code, amount := amount.encode, method := deployMethod, args, gasLimit, code, nonce }

-- A transfer names its recipient in the place of the arguments.
def ofTransfer (recipient : Address) (amount : Amount) : Attempt :=
  { kindCode := Kind.transfer.code, amount := amount.encode, args := recipient.toList }

def ofDataRead (contract : Address) (key : Bytes) : Attempt :=
  { kindCode := Kind.readContractData.code, args := Arguments.pack [some contract.toList, some key] }

def ofIdentityRead (address : Address) : Attempt :=
  { kindCode := Kind.readIdentity.code, args := address.toList }

def fields (a : Attempt) : List Wire.Field :=
  Wire.Field.ofNat 1 a.kindCode.toNat ++ Wire.Field.ofBytes 2 a.amount ++ Wire.Field.ofBytes 3 (Text.bytes a.method) ++
  Wire.Field.ofBytes 4 a.args ++ Wire.Field.ofNat 5 a.gasLimit.toNat ++ Wire.Field.ofBytes 6 a.code ++
  Wire.Field.ofBytes 7 a.nonce

def encode (a : Attempt) : Bytes := Wire.encodeFields a.fields

def merge (budget : Nat) (a : Attempt) : Wire.Field → Option Attempt
  | ⟨1, .varint n⟩ => some { a with kindCode := UInt32.ofNat n }
  | ⟨2, .bytes raw⟩ => some { a with amount := raw }
  | ⟨3, .bytes raw⟩ => (Text.ofBytes? raw).map fun method => { a with method }
  | ⟨4, .bytes raw⟩ => some { a with args := raw }
  | ⟨5, .varint n⟩ => some { a with gasLimit := UInt64.ofNat n }
  | ⟨6, .bytes raw⟩ => some { a with code := raw }
  | ⟨7, .bytes raw⟩ => some { a with nonce := raw }
  | ⟨number, _⟩ => if number ≤ 7 ∨ budget = 0 then none else some a

def read (budget : Nat) (start : Attempt) (raw : Bytes) : Option Attempt :=
  Wire.readMessage budget (merge budget) start raw

def decode (raw : Bytes) : Option Attempt := read Wire.nestingLimit {} raw

end Attempt
end CallBoundary
