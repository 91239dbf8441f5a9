import CallBoundary.Overlay
import CallBoundary.Proofs.Content
/-! Environments that keep whole copies. Each holds everything it sees, and the events that wait in
it: a new environment starts from a copy of the one around it, a commit puts its copy in the place
of that one's, clearing copies anew, and releasing forgets the copy. Nothing is ever laid over
anything, so a read is one lookup. As everywhere, a transfer debits before it credits, and a credit
that overflows leaves the debit in place. -/
namespace CallBoundary

structure Copy where
  context : Context
  tariff : Tariff
  debug : Bool
  content : Content
  events : List Event := []

structure Copies where
  own : Copy
  below : List Copy
  store : Store

namespace Copies

def root (settings : Settings) (context : Context) (store : Store) : Copies :=
  ⟨{ context, tariff := settings.tariff, debug := settings.debug, content := Content.ofStore store }, [], store⟩

def view (c : Copies) : View := c.own.content.view

def contract (c : Copies) : Address := c.own.context.contract

def contentBelow (c : Copies) : Content :=
  match c.below with
  | [] => Content.ofStore c.store
  | parent :: _ => parent.content

def valueAt (c : Copies) (contract : Address) (key : Bytes) : Option Bytes :=
  (c.own.content.storage[(⟨contract, key⟩ : Cell)]?).filter (· ≠ [])

open Overlay (lengthOf queryFault? updateFault? eventLength)

def queryCharges (c : Copies) : Query → List Gas
  | .storage key => [c.own.tariff.readCost (lengthOf (c.valueAt c.contract key))]
  | .storageOf contract key => [c.own.tariff.readCost (lengthOf (c.valueAt contract key))]
  | .blockNumber | .blockTimestamp | .blockSeed | .epoch | .minFeePerGas | .networkSize
  | .caller | .originalCaller | .contractAddress | .payAmount | .blockHeader _ | .globalState =>
    [c.own.tariff.contextRead]
  | .balance _ => [c.own.tariff.balanceRead]
  | .identityState _ | .identity _ => [c.own.tariff.identityRead]
  | .codeOf address => [c.own.tariff.codeCost (lengthOf (c.view.code address))]
  | .ownCode => [c.own.tariff.codeCost (lengthOf (c.view.code c.contract))]
  | .codeHash => [c.own.tariff.codeRead]
  | .addressOfCode code _ _ => [c.own.tariff.hashCost code.length, c.own.tariff.derivation]
  | .addressOfHash _ _ _ => [c.own.tariff.derivation]
  | .keccak data => [c.own.tariff.hashCost data.length]

def answer (c : Copies) : (q : Query) → q.Answer
  | .storage key => c.valueAt c.contract key
  | .storageOf contract key => c.valueAt contract key
  | .blockNumber => c.store.chain.blockNumber
  | .blockTimestamp => c.store.chain.blockTimestamp
  | .blockSeed => c.store.chain.blockSeed
  | .epoch => c.store.chain.epoch
  | .minFeePerGas => c.store.chain.minFeePerGas
  | .networkSize => c.store.chain.networkSize
  | .balance address => c.view.balance address
  | .identityState address => (c.store.identities[address]?).elim 0 Identity.state
  | .identity address => (c.store.identities[address]?).map Identity.data
  | .caller => c.own.context.caller
  | .originalCaller => c.own.context.originalCaller
  | .contractAddress => c.contract
  | .codeOf address => c.view.code address
  | .ownCode => c.view.code c.contract
  | .codeHash => (c.view.code c.contract).map Keccak.hash
  | .addressOfCode code args nonce => Address.ofDeployment (Keccak.hash code) args nonce
  | .addressOfHash hash args nonce => Address.ofDeployment hash args nonce
  | .payAmount => c.own.context.payAmount
  | .keccak data => Keccak.hash data
  | .blockHeader height => c.store.chain.headers[height]?
  | .globalState => c.store.chain.globalState

def query (c : Copies) (m : Meter) (q : Query) : Except Fault q.Answer × Meter :=
  match queryFault? q with
  | some fault => (.error fault, m)
  | none =>
    let charged := m.consumeAll (c.queryCharges q)
    if charged.exhausted then (.error .outOfGas, charged) else (.ok (c.answer q), charged)

def write (c : Copies) (f : Content → Content) : Copies :=
  { c with own := { c.own with content := f c.own.content } }

def emit (c : Copies) (event : Event) : Copies :=
  { c with own := { c.own with events := c.own.events ++ [event] } }

def debit (c : Copies) (address : Address) (amount : Amount) : Except Fault Copies :=
  match (c.view.balance address).sub? amount with
  | none => .error .insufficientBalance
  | some rest => .ok (c.write fun content => content.setBalance address rest)

def credit (c : Copies) (address : Address) (amount : Amount) : Except Fault Copies :=
  match (c.view.balance address).add? amount with
  | none => .error (.internal ("balance overflow for " ++ Address.checksummed address))
  | some total => .ok (c.write fun content => content.setBalance address total)

def settle (c : Copies) : Except Fault Copies → Except Fault Unit × Copies
  | .error fault => (.error fault, c)
  | .ok after => (.ok (), after)

def transfer (c : Copies) (payer payee : Address) (amount : Amount) : Except Fault Unit × Copies :=
  match c.debit payer amount with
  | .error fault => (.error fault, c)
  | .ok debited => debited.settle (debited.credit payee amount)

def updateCharge (c : Copies) : Update → Gas
  | .setStorage key value => c.own.tariff.writeCost key.length value.length
  | .removeStorage _ => c.own.tariff.removal
  | .send _ _ | .subBalance _ | .addBalance _ _ => c.own.tariff.transfer
  | .emit name args => c.own.tariff.eventCost (eventLength name args)

def apply (c : Copies) : Update → Except Fault Unit × Copies
  | .setStorage key value => (.ok (), c.write fun content => content.setStorage ⟨c.contract, key⟩ (some value))
  | .removeStorage key => (.ok (), c.write fun content => content.setStorage ⟨c.contract, key⟩ none)
  | .send recipient amount => c.transfer c.contract recipient amount
  | .subBalance amount => c.settle (c.debit c.contract amount)
  | .addBalance address amount => c.settle (c.credit address amount)
  | .emit name args => (.ok (), c.emit ⟨c.contract, name, args⟩)

def update (c : Copies) (m : Meter) (u : Update) : Except Fault Unit × Meter × Copies :=
  match updateFault? u with
  | some fault => (.error fault, m, c)
  | none =>
    let charged := m.consume (c.updateCharge u)
    if charged.exhausted then (.error .outOfGas, charged, c)
    else ((c.apply u).1, charged, (c.apply u).2)

def nest (c : Copies) (contract : Address) (amount : Amount) : Copies :=
  { c with
    own :=
      { context := { contract, caller := c.contract, originalCaller := c.own.context.originalCaller,
                     payAmount := amount },
        tariff := c.own.tariff, debug := c.own.debug, content := c.own.content },
    below := c.own :: c.below }

def derive (c : Copies) (contract : Address) (amount : Amount) (deployment : Bool) : Except Fault Unit × Copies :=
  if deployment && (c.view.code contract).isSome then (.error .alreadyDeployed, c)
  else if amount.value = 0 then (.ok (), c.nest contract amount)
  else
    match (c.nest contract amount).transfer c.contract contract amount with
    | (.ok (), paid) => (.ok (), paid)
    | (.error fault, _) => (.error fault, c)

def release (c : Copies) : Copies :=
  match c.below with
  | [] => c
  | parent :: rest => { c with own := parent, below := rest }

def commit (c : Copies) : Copies :=
  let emptied := { c with own := { c.own with events := [] } }
  match c.below with
  | [] =>
    { emptied with
      store :=
        { c.store with
          storage := c.own.content.storage
          balances := c.own.content.balances
          code := c.own.content.code
          events := c.store.events ++ c.own.events } }
  | parent :: rest =>
    { emptied with below := { parent with content := c.own.content, events := parent.events ++ c.own.events } :: rest }

def clear (c : Copies) : Copies := { c with own := { c.own with content := c.contentBelow, events := [] } }

instance : Host Copies where
  query := query
  update := update
  derive := derive
  release := release
  code? c address := (c.view.code address).filter (· ≠ [])
  codeHash? c address := (c.view.code address).map Keccak.hash
  register c code := c.write fun content => content.setCode c.contract code
  commit c := (.ok (), c.commit)
  clear := clear
  isDebug c := c.own.debug

end Copies
end CallBoundary
