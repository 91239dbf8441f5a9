import CallBoundary.Gas
/-! The settings of the call boundary: what each kind of host operation costs, how many invocations may be open at
once below a top-level one, and whether frames are told that they are being debugged. Costs of data are linear in its
length; hashing is charged by the word of 32 bytes, a part of a word as a whole one. -/
namespace CallBoundary

structure Tariff where
  writeByte : Gas
  readByte : Gas
  removal : Gas
  contextRead : Gas
  balanceRead : Gas
  transfer : Gas
  identityRead : Gas
  codeRead : Gas
  codeByte : Gas
  derivation : Gas
  event : Gas
  eventByte : Gas
  hash : Gas
  hashWord : Gas
  deriving DecidableEq, Repr

namespace Tariff

def standard : Tariff where
  writeByte := 10
  readByte := 10
  removal := 10
  contextRead := 5
  balanceRead := 20
  transfer := 100
  identityRead := 50
  codeRead := 50
  codeByte := 1
  derivation := 100
  event := 100
  eventByte := 10
  hash := 30
  hashWord := 6

def free : Tariff := ⟨0, 0, 0, 0, 0, 0, 0, 0, 0, 0, 0, 0, 0, 0⟩

def writeCost (t : Tariff) (key value : Nat) : Gas := Gas.times t.writeByte (key + value)

def readCost (t : Tariff) (value : Nat) : Gas := Gas.times t.readByte value

def codeCost (t : Tariff) (code : Nat) : Gas := Gas.plus t.codeRead (Gas.times t.codeByte code)

def eventCost (t : Tariff) (payload : Nat) : Gas := Gas.plus t.event (Gas.times t.eventByte payload)

def hashCost (t : Tariff) (data : Nat) : Gas := Gas.plus t.hash (Gas.times t.hashWord ((data + 31) / 32))

end Tariff

structure Settings where
  debug : Bool
  maxCallDepth : UInt64
  tariff : Tariff
  deriving DecidableEq, Repr

def Settings.standard : Settings := ⟨false, 64, Tariff.standard⟩

end CallBoundary
