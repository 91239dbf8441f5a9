import CallBoundary.Address
import CallBoundary.Host
import CallBoundary.Settings
/-! A chain of environments over a store, and the host it is. Each keeps its writes to itself until it commits them
into the next one below, the last of them into the store; reads fall through the chain. A request whose key is too
long is refused before anything is charged; otherwise all charges come first, and only a request that is paid for has
an effect or an answer. An empty value counts as none. A transfer debits before it credits, and a credit that
overflows leaves the debit in place. -/
namespace CallBoundary

structure Layer where
  context : Context
  tariff : Tariff
  debug : Bool
  changes : Changes := Changes.empty

structure Overlay where
  own : Layer
  below : List Layer
  store : Store

namespace Overlay

def viewThrough : List Layer → View → View
  | [], v => v
  | layer :: rest, v => layer.changes.onto (viewThrough rest v)

def view (o : Overlay) : View := viewThrough (o.own :: o.below) o.store.view

def contract (o : Overlay) : Address := o.own.context.contract

def write (o : Overlay) (f : Changes → Changes) : Overlay :=
  { o with own := { o.own with changes := f o.own.changes } }

def nest (o : Overlay) (context : Context) (tariff : Tariff) (debug : Bool) : Overlay :=
  { o with own := { context, tariff, debug }, below := o.own :: o.below }

def release (o : Overlay) : Overlay :=
  match o.below with
  | [] => o
  | layer :: rest => { o with own := layer, below := rest }

def absorb (o : Overlay) (changes : Changes) : Overlay := o.write fun own => own.merge changes

def commit (o : Overlay) : Overlay :=
  let emptied := o.write fun _ => Changes.empty
  match o.below with
  | [] => { emptied with store := o.store.absorb o.own.changes }
  | layer :: rest =>
    { emptied with below := { layer with changes := layer.changes.merge o.own.changes } :: rest }

def clear (o : Overlay) : Overlay := o.write fun _ => Changes.empty

def maxKeyLength : Nat := 32

def keyFault? (key : Bytes) : Option Fault :=
  if maxKeyLength < key.length then
    some (.internal ("storage key of " ++ toString key.length ++ " bytes exceeds " ++ toString maxKeyLength))
  else none

def queryFault? : Query → Option Fault
  | .storage key | .storageOf _ key => keyFault? key
  | _ => none

def updateFault? : Update → Option Fault
  | .setStorage key _ | .removeStorage key => keyFault? key
  | _ => none

def valueAt (o : Overlay) (contract : Address) (key : Bytes) : Option Bytes :=
  (o.view.storage ⟨contract, key⟩).filter (· ≠ [])

def lengthOf (data : Option Bytes) : Nat := data.elim 0 List.length

def queryCharges (o : Overlay) : Query → List Gas
  | .storage key => [o.own.tariff.readCost (lengthOf (o.valueAt o.contract key))]
  | .storageOf contract key => [o.own.tariff.readCost (lengthOf (o.valueAt contract key))]
  | .blockNumber | .blockTimestamp | .blockSeed | .epoch | .minFeePerGas | .networkSize
  | .caller | .originalCaller | .contractAddress | .payAmount | .blockHeader _ | .globalState =>
    [o.own.tariff.contextRead]
  | .balance _ => [o.own.tariff.balanceRead]
  | .identityState _ | .identity _ => [o.own.tariff.identityRead]
  | .codeOf address => [o.own.tariff.codeCost (lengthOf (o.view.code address))]
  | .ownCode => [o.own.tariff.codeCost (lengthOf (o.view.code o.contract))]
  | .codeHash => [o.own.tariff.codeRead]
  | .addressOfCode code _ _ => [o.own.tariff.hashCost code.length, o.own.tariff.derivation]
  | .addressOfHash _ _ _ => [o.own.tariff.derivation]
  | .keccak data => [o.own.tariff.hashCost data.length]

def answer (o : Overlay) : (q : Query) → q.Answer
  | .storage key => o.valueAt o.contract key
  | .storageOf contract key => o.valueAt contract key
  | .blockNumber => o.store.chain.blockNumber
  | .blockTimestamp => o.store.chain.blockTimestamp
  | .blockSeed => o.store.chain.blockSeed
  | .epoch => o.store.chain.epoch
  | .minFeePerGas => o.store.chain.minFeePerGas
  | .networkSize => o.store.chain.networkSize
  | .balance address => o.view.balance address
  | .identityState address => (o.store.identities[address]?).elim 0 Identity.state
  | .identity address => (o.store.identities[address]?).map Identity.data
  | .caller => o.own.context.caller
  | .originalCaller => o.own.context.originalCaller
  | .contractAddress => o.contract
  | .codeOf address => o.view.code address
  | .ownCode => o.view.code o.contract
  | .codeHash => (o.view.code o.contract).map Keccak.hash
  | .addressOfCode code args nonce => Address.ofDeployment (Keccak.hash code) args nonce
  | .addressOfHash hash args nonce => Address.ofDeployment hash args nonce
  | .payAmount => o.own.context.payAmount
  | .keccak data => Keccak.hash data
  | .blockHeader height => o.store.chain.headers[height]?
  | .globalState => o.store.chain.globalState

def query (o : Overlay) (m : Meter) (q : Query) : Except Fault q.Answer × Meter :=
  match queryFault? q with
  | some fault => (.error fault, m)
  | none =>
    let charged := m.consumeAll (o.queryCharges q)
    if charged.exhausted then (.error .outOfGas, charged) else (.ok (o.answer q), charged)

def eventLength (name : String) (args : Arguments) : Nat :=
  name.utf8ByteSize + (args.flatMap fun arg => arg.getD []).length

def updateCharge (o : Overlay) : Update → Gas
  | .setStorage key value => o.own.tariff.writeCost key.length value.length
  | .removeStorage _ => o.own.tariff.removal
  | .send _ _ | .subBalance _ | .addBalance _ _ => o.own.tariff.transfer
  | .emit name args => o.own.tariff.eventCost (eventLength name args)

def debit (o : Overlay) (address : Address) (amount : Amount) : Except Fault Overlay :=
  match (o.view.balance address).sub? amount with
  | none => .error .insufficientBalance
  | some rest => .ok (o.write fun c => c.setBalance address rest)

def credit (o : Overlay) (address : Address) (amount : Amount) : Except Fault Overlay :=
  match (o.view.balance address).add? amount with
  | none => .error (.internal ("balance overflow for " ++ Address.checksummed address))
  | some total => .ok (o.write fun c => c.setBalance address total)

def settle (o : Overlay) : Except Fault Overlay → Except Fault Unit × Overlay
  | .error fault => (.error fault, o)
  | .ok after => (.ok (), after)

def transfer (o : Overlay) (payer payee : Address) (amount : Amount) : Except Fault Unit × Overlay :=
  match o.debit payer amount with
  | .error fault => (.error fault, o)
  | .ok debited => debited.settle (debited.credit payee amount)

def apply (o : Overlay) : Update → Except Fault Unit × Overlay
  | .setStorage key value => (.ok (), o.write fun c => c.setStorage ⟨o.contract, key⟩ (some value))
  | .removeStorage key => (.ok (), o.write fun c => c.setStorage ⟨o.contract, key⟩ none)
  | .send recipient amount => o.transfer o.contract recipient amount
  | .subBalance amount => o.settle (o.debit o.contract amount)
  | .addBalance address amount => o.settle (o.credit address amount)
  | .emit name args => (.ok (), o.write fun c => c.emit ⟨o.contract, name, args⟩)

def update (o : Overlay) (m : Meter) (u : Update) : Except Fault Unit × Meter × Overlay :=
  match updateFault? u with
  | some fault => (.error fault, m, o)
  | none =>
    let charged := m.consume (o.updateCharge u)
    if charged.exhausted then (.error .outOfGas, charged, o)
    else ((o.apply u).1, charged, (o.apply u).2)

def childContext (o : Overlay) (contract : Address) (amount : Amount) : Context :=
  { contract, caller := o.contract, originalCaller := o.own.context.originalCaller, payAmount := amount }

-- The amount is moved inside the new environment, so releasing that one undoes the move.
def derive (o : Overlay) (contract : Address) (amount : Amount) (deployment : Bool) : Except Fault Unit × Overlay :=
  if deployment && (o.view.code contract).isSome then (.error .alreadyDeployed, o)
  else
    let child := o.nest (o.childContext contract amount) o.own.tariff o.own.debug
    if amount.value = 0 then (.ok (), child)
    else
      match child.transfer o.contract contract amount with
      | (.ok (), paid) => (.ok (), paid)
      | (.error fault, _) => (.error fault, o)

instance : Host Overlay where
  query := query
  update := update
  derive := derive
  release := release
  code? o address := (o.view.code address).filter (· ≠ [])
  codeHash? o address := (o.view.code address).map Keccak.hash
  register o code := o.write fun c => c.setCode o.contract code
  commit o := (.ok (), o.commit)
  clear := clear
  isDebug o := o.own.debug

def layerOf (settings : Settings) (context : Context) : Layer :=
  { context, tariff := settings.tariff, debug := settings.debug }

def root (settings : Settings) (context : Context) (store : Store) : Overlay :=
  ⟨layerOf settings context, [], store⟩

def stacked (o : Overlay) (settings : Settings) (context : Context) : Overlay :=
  o.nest context settings.tariff settings.debug

end Overlay

end CallBoundary
