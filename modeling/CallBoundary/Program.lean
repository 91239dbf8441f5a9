import CallBoundary.Host
import CallBoundary.Report
import CallBoundary.Settings
/-! What runs in a frame, and all that it is told when it starts. A program is a finite tree: each operation it
performs has one branch for every answer it may get. So code can do anything it likes with an answer, loop by means of
calls, end with a fault or break down, but no frame goes on for ever by itself. An interpreter makes its program of
the activation alone: one that keeps a state of its own from run to run is not covered, as what it does next would
hang on more than the answers. -/
namespace CallBoundary

inductive Entry where
  | method (name : String)
  | constructor
  deriving DecidableEq, Repr

namespace Entry

def method? : Entry → Option String
  | method name => some name
  | constructor => none

def display : Entry → String
  | method name => name
  | constructor => "deploy"

end Entry

structure Activation where
  code : Bytes
  entry : Entry
  args : Bytes
  context : Bytes
  contract : Address
  gasLimit : Gas
  debug : Bool
  deriving DecidableEq, Repr

def Activation.arguments (a : Activation) : Arguments := Arguments.unpack a.args

structure Metered (α : Type) where
  value : α
  gasUsed : Gas

inductive Probe where
  | depth
  | settings
  | meter
  | reports
  | debug
  deriving DecidableEq, Repr

abbrev Probe.Answer : Probe → Type
  | depth => Nat
  | settings => Settings
  | meter => Meter
  | reports => List Report
  | debug => Bool

structure Call where
  contract : Address
  method : String
  args : Bytes
  amount : Amount
  context : Bytes
  gasLimit : Gas
  deriving DecidableEq, Repr

structure Deployment where
  code : Bytes
  args : Bytes
  nonce : Bytes
  amount : Amount
  gasLimit : Gas
  deriving DecidableEq, Repr

namespace Call

def attempt (c : Call) : Attempt := Attempt.ofCall c.method c.args c.amount c.gasLimit

def activation (c : Call) (code : Bytes) (debug : Bool) : Activation :=
  { code, entry := .method c.method, args := c.args, context := c.context, contract := c.contract,
    gasLimit := c.gasLimit, debug }

end Call

namespace Deployment

def attempt (d : Deployment) : Attempt := Attempt.ofDeploy d.code d.args d.nonce d.amount d.gasLimit

def activation (d : Deployment) (contract : Address) (debug : Bool) : Activation :=
  { code := d.code, entry := .constructor, args := d.args, context := [], contract, gasLimit := d.gasLimit,
    debug }

end Deployment

inductive Operation where
  | query (q : Query)
  | update (u : Update)
  | ask (p : Probe)
  | consumeGas (gas : Gas)
  | setGasLimit (limit : Gas)
  | commit
  | call (c : Call)
  | deploy (d : Deployment)
  deriving DecidableEq, Repr

abbrev Operation.Answer : Operation → Type
  | query q => Except Fault (Metered q.Answer)
  | update _ => Except Fault (Metered Unit)
  | ask p => p.Answer
  | consumeGas _ | commit => Except Fault Unit
  | setGasLimit _ => Unit
  | call _ | deploy _ => Except Fault Outcome

-- A program hands over the arguments of an event as they are packed; its host is given the list.
abbrev Operation.event (name : String) (packed : Bytes) : Operation := .update (.emit name (Arguments.unpack packed))

inductive Program (ν α : Type) where
  | ret (value : α)
  | raise (fault : Fault)
  | panic (text : Option String)
  | note (n : ν) (next : Program ν α)
  | perform (op : Operation) (next : op.Answer → Program ν α)

namespace Program

variable {ν α β : Type}

def bind : Program ν α → (α → Program ν β) → Program ν β
  | ret value, f => f value
  | raise fault, _ => raise fault
  | panic text, _ => panic text
  | note n next, f => note n (next.bind f)
  | perform op next, f => perform op fun answer => (next answer).bind f

instance : Monad (Program ν) where
  pure := ret
  bind := bind

def run (op : Operation) : Program ν op.Answer := perform op ret

def ofExcept : Except Fault α → Program ν α
  | .ok value => ret value
  | .error fault => raise fault

def query (q : Query) : Program ν (Metered q.Answer) := do ofExcept (← run (.query q))

def update (u : Update) : Program ν (Metered Unit) := do ofExcept (← run (.update u))

def event (name : String) (packed : Bytes) : Program ν (Metered Unit) := do ofExcept (← run (.event name packed))

def consumeGas (gas : Gas) : Program ν Unit := do ofExcept (← run (.consumeGas gas))

end Program

abbrev Interpreter (ν : Type) := Activation → Program ν (Option Bytes)

end CallBoundary
