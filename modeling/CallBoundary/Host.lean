import CallBoundary.Fault
import CallBoundary.Gas
import CallBoundary.State
/-! What a frame needs of the environment it runs in. A query changes nothing and has an answer of its own type; an
update answers with success alone. An environment is the innermost of a chain; deriving opens one more inside it, and
releasing closes the innermost and forgets what it has not committed. Every operation that can fail returns the
environment it leaves behind as well. Two hosts are made around another one: the one counts the environments opened in
it, the attempts that failed included, and its commits, but nothing of what happens further inside; in the other the
environments opened for one contract cannot be committed. -/
namespace CallBoundary

inductive Query where
  | storage (key : Bytes)
  | storageOf (contract : Address) (key : Bytes)
  | blockNumber
  | blockTimestamp
  | blockSeed
  | epoch
  | minFeePerGas
  | networkSize
  | balance (address : Address)
  | identityState (address : Address)
  | identity (address : Address)
  | caller
  | originalCaller
  | contractAddress
  | codeOf (address : Address)
  | ownCode
  | codeHash
  | addressOfCode (code args nonce : Bytes)
  | addressOfHash (hash : Hash) (args nonce : Bytes)
  | payAmount
  | keccak (data : Bytes)
  | blockHeader (height : UInt64)
  | globalState
  deriving DecidableEq, Repr

namespace Query

abbrev Answer : Query → Type
  | storage _ | storageOf _ _ | identity _ | codeOf _ | ownCode | blockHeader _ => Option Bytes
  | blockNumber | networkSize => UInt64
  | blockTimestamp => Int64
  | blockSeed | globalState => Bytes
  | epoch => UInt16
  | minFeePerGas | balance _ | payAmount => Amount
  | identityState _ => UInt8
  | caller | originalCaller | contractAddress | addressOfCode _ _ _ | addressOfHash _ _ _ => Address
  | codeHash => Option Hash
  | keccak _ => Hash

end Query

inductive Update where
  | setStorage (key value : Bytes)
  | removeStorage (key : Bytes)
  | send (recipient : Address) (amount : Amount)
  | subBalance (amount : Amount)
  | addBalance (address : Address) (amount : Amount)
  | emit (name : String) (args : Arguments)
  deriving DecidableEq, Repr

class Host (E : Type) where
  query : E → Meter → (q : Query) → Except Fault q.Answer × Meter
  update : E → Meter → Update → Except Fault Unit × Meter × E
  derive : E → (contract : Address) → (amount : Amount) → (deployment : Bool) → Except Fault Unit × E
  release : E → E
  -- The code at an address, where empty code counts as none.
  code? : E → Address → Option Bytes
  -- The hash of the code at an address, where empty code counts as code.
  codeHash? : E → Address → Option Hash
  register : E → Bytes → E
  commit : E → Except Fault Unit × E
  clear : E → E
  isDebug : E → Bool

structure Counted (E : Type) where
  inner : E
  derivations : Nat := 0
  commits : Nat := 0
  openInside : Nat := 0

namespace Counted

variable {E : Type} [Host E]

def derive (c : Counted E) (contract : Address) (amount : Amount) (deployment : Bool) :
    Except Fault Unit × Counted E :=
  let (answer, inner) := Host.derive c.inner contract amount deployment
  let counted := { c with inner, derivations := if c.openInside = 0 then c.derivations + 1 else c.derivations }
  match answer with
  | .error fault => (.error fault, counted)
  | .ok () => (.ok (), { counted with openInside := c.openInside + 1 })

def commit (c : Counted E) : Except Fault Unit × Counted E :=
  let (answer, inner) := Host.commit c.inner
  (answer, { c with inner, commits := if c.openInside = 0 then c.commits + 1 else c.commits })

instance : Host (Counted E) where
  query c := Host.query c.inner
  update c m u :=
    let (answer, meter, inner) := Host.update c.inner m u
    (answer, meter, { c with inner })
  derive := derive
  release c := { c with inner := Host.release c.inner, openInside := c.openInside - 1 }
  code? c := Host.code? c.inner
  codeHash? c := Host.codeHash? c.inner
  register c code := { c with inner := Host.register c.inner code }
  commit := commit
  clear c := { c with inner := Host.clear c.inner }
  isDebug c := Host.isDebug c.inner

end Counted

structure CommitFault (E : Type) where
  inner : E
  rule : Option (Address × Fault)
  path : List Address := []

namespace CommitFault

variable {E : Type} [Host E]

def fault? (c : CommitFault E) : Option Fault :=
  match c.rule, c.path with
  | some (contract, fault), innermost :: _ => if innermost = contract then some fault else none
  | _, _ => none

def derive (c : CommitFault E) (contract : Address) (amount : Amount) (deployment : Bool) :
    Except Fault Unit × CommitFault E :=
  match Host.derive c.inner contract amount deployment with
  | (.error fault, inner) => (.error fault, { c with inner })
  | (.ok (), inner) => (.ok (), { c with inner, path := contract :: c.path })

def commit (c : CommitFault E) : Except Fault Unit × CommitFault E :=
  match c.fault? with
  | some fault => (.error fault, c)
  | none =>
    let (answer, inner) := Host.commit c.inner
    (answer, { c with inner })

instance : Host (CommitFault E) where
  query c := Host.query c.inner
  update c m u :=
    let (answer, meter, inner) := Host.update c.inner m u
    (answer, meter, { c with inner })
  derive := derive
  release c := { c with inner := Host.release c.inner, path := c.path.tail }
  code? c := Host.code? c.inner
  codeHash? c := Host.codeHash? c.inner
  register c code := { c with inner := Host.register c.inner code }
  commit := commit
  clear c := { c with inner := Host.clear c.inner }
  isDebug c := Host.isDebug c.inner

end CommitFault

end CallBoundary
