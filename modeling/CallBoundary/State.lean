import CallBoundary.Arguments
/-! What the world of contracts consists of: amounts of value, cells of storage, balances, code, events, identities
and the chain. A view is the part that contracts can change, as functions of what is asked. Amounts are whole numbers
below 2^256, and adding and subtracting fail instead of wrapping; their byte form is big-endian without leading zeros,
and reading takes leading zeros as well, but no more than 32 bytes, whatever they hold. Writes may be held back: a
storage entry without a value is then a removal, which hides what lies below; balances and code can be replaced but
not removed, and events are only added. A removal that reaches the store leaves nothing behind. -/
namespace CallBoundary

def Amount.limit : Nat := 0x10000000000000000000000000000000000000000000000000000000000000000

structure Amount where
  value : Nat
  bound : value < Amount.limit
  deriving DecidableEq, Repr

namespace Amount

theorem valueInj : {a b : Amount} → a.value = b.value → a = b
  | ⟨_, _⟩, ⟨_, _⟩, rfl => rfl

def ofNat? (n : Nat) : Option Amount := if h : n < limit then some ⟨n, h⟩ else none

def zero : Amount := ⟨0, by decide⟩

def add? (a b : Amount) : Option Amount := ofNat? (a.value + b.value)

def sub? (a b : Amount) : Option Amount :=
  if b.value ≤ a.value then some ⟨a.value - b.value, Nat.lt_of_le_of_lt (Nat.sub_le _ _) a.bound⟩ else none

def encode (a : Amount) : Bytes := (Bytes.be 32 a.value).dropWhile (· == 0)

def decode? (raw : Bytes) : Option Amount :=
  if raw.length ≤ 32 then ofNat? (Bytes.readBe raw) else none

end Amount

structure Cell where
  contract : Address
  key : Bytes
  deriving DecidableEq, Repr

namespace Cell

instance : Ord Cell := ⟨compareLex (compareOn contract) (compareOn key)⟩

instance : Std.TransOrd Cell := inferInstanceAs (Std.TransCmp (compareLex (compareOn contract) (compareOn key)))

instance : Std.LawfulEqOrd Cell where
  eq_of_compare {a b} h := by
    have both : (compare a.contract b.contract).then (compare a.key b.key) = .eq := h
    rw [Ordering.then_eq_eq] at both
    obtain ⟨_, _⟩ := a
    obtain ⟨_, _⟩ := b
    simp only [Cell.mk.injEq]
    exact ⟨Std.LawfulEqOrd.eq_of_compare both.1, Std.LawfulEqOrd.eq_of_compare both.2⟩

end Cell

structure Event where
  contract : Address
  name : String
  args : Arguments
  deriving DecidableEq, Repr

structure Identity where
  state : UInt8
  data : Bytes
  deriving DecidableEq, Repr

structure Chain where
  blockNumber : UInt64 := 0
  blockTimestamp : Int64 := 0
  blockSeed : Bytes := []
  epoch : UInt16 := 0
  minFeePerGas : Amount := Amount.zero
  networkSize : UInt64 := 0
  headers : Std.ExtTreeMap UInt64 Bytes := ∅
  globalState : Bytes := []

structure Context where
  contract : Address
  caller : Address
  originalCaller : Address
  payAmount : Amount
  deriving DecidableEq, Repr

@[ext]
structure View where
  storage : Cell → Option Bytes
  balance : Address → Amount
  code : Address → Option Bytes

structure Changes where
  storage : Std.ExtTreeMap Cell (Option Bytes)
  balances : Std.ExtTreeMap Address Amount
  code : Std.ExtTreeMap Address Bytes
  events : List Event

namespace Changes

def empty : Changes := ⟨∅, ∅, ∅, []⟩

def isEmpty (c : Changes) : Bool :=
  c.storage.isEmpty && c.balances.isEmpty && c.code.isEmpty && c.events.isEmpty

def merge (c later : Changes) : Changes where
  storage := c.storage ∪ later.storage
  balances := c.balances ∪ later.balances
  code := c.code ∪ later.code
  events := c.events ++ later.events

def setStorage (c : Changes) (cell : Cell) (value : Option Bytes) : Changes :=
  { c with storage := c.storage.insert cell value }

def setBalance (c : Changes) (address : Address) (amount : Amount) : Changes :=
  { c with balances := c.balances.insert address amount }

def setCode (c : Changes) (address : Address) (code : Bytes) : Changes :=
  { c with code := c.code.insert address code }

def emit (c : Changes) (event : Event) : Changes := { c with events := c.events ++ [event] }

def onto (c : Changes) (v : View) : View where
  storage cell := c.storage[cell]?.getD (v.storage cell)
  balance address := c.balances[address]?.getD (v.balance address)
  code address := c.code[address]?.or (v.code address)

end Changes

structure Store where
  storage : Std.ExtTreeMap Cell Bytes := ∅
  balances : Std.ExtTreeMap Address Amount := ∅
  code : Std.ExtTreeMap Address Bytes := ∅
  identities : Std.ExtTreeMap Address Identity := ∅
  chain : Chain := {}
  events : List Event := []

namespace Store

def view (s : Store) : View where
  storage cell := s.storage[cell]?
  balance address := s.balances[address]?.getD Amount.zero
  code address := s.code[address]?

def absorb (s : Store) (c : Changes) : Store :=
  { s with
    storage := (s.storage.map (fun _ value => some value) ∪ c.storage).filterMap fun _ value => value
    balances := s.balances ∪ c.balances
    code := s.code ∪ c.code
    events := s.events ++ c.events }

end Store

end CallBoundary
