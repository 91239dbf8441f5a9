import CallBoundary.Address
import CallBoundary.Program
/-! Interpreters. A registry looks code up by its hash among known programs: every run costs a fixed amount before
anything else, and code that is not known fails. One such program is a contract that keeps a sum: its constructor
stores an operand, and its one method adds an operand to what is stored and returns the sum. A sum that would not fit
fails and changes nothing. -/
namespace CallBoundary

structure Registry (ν : Type) where
  known : List (Bytes × Interpreter ν)
  baseCost : Gas := 1000

namespace Registry

variable {ν : Type}

-- Codes of one hash are one code here, and the later of two programs for it takes its place.
def lookup? (r : Registry ν) (code : Bytes) : Option (Interpreter ν) :=
  (r.known.reverse.find? fun known => Keccak.hash known.1 = Keccak.hash code).map Prod.snd

def unknownCode : Fault := .failed "unknown code"

def interpreter (r : Registry ν) : Interpreter ν := fun activation => do
  Program.consumeGas r.baseCost
  match r.lookup? activation.code with
  | none => .raise unknownCode
  | some body => body activation

theorem interpreterKnown (a : Activation) (body : Interpreter ν) (baseCost : Gas) :
    interpreter ⟨[(a.code, body)], baseCost⟩ a = (do Program.consumeGas baseCost; body a) := by
  simp [interpreter, lookup?]

end Registry

namespace RunningSum

def key : Bytes := Text.bytes "sum"

def encode (value : UInt64) : Bytes := Bytes.le 8 value.toNat

def decode? (raw : Bytes) : Option UInt64 :=
  if raw.length = 8 then some (UInt64.ofNat (Bytes.readLe raw)) else none

def operand? (a : Activation) : Option UInt64 := do
  let first ← a.arguments.head?
  let raw ← first
  decode? raw

def add? (a b : UInt64) : Option UInt64 :=
  if a.toNat + b.toNat < UInt64.size then some (a + b) else none

def store {ν : Type} (sum : UInt64) : Program ν (Option Bytes) := do
  let _ ← Program.update (.setStorage key (encode sum))
  pure (some (encode sum))

def interpreter {ν : Type} : Interpreter ν := fun activation =>
  match operand? activation with
  | none => .raise (.failed "expected a u64 argument")
  | some operand =>
    match activation.entry with
    | .constructor => store operand
    | .method name =>
      if name = "compute" then do
        let stored ← Program.query (.storage key)
        match add? ((stored.value.bind decode?).getD 0) operand with
        | none => .raise (.failed "sum overflow")
        | some sum => store sum
      else .raise (.failed ("unknown method " ++ name))

end RunningSum

end CallBoundary
