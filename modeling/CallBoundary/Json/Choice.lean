import CallBoundary.Attempt
import CallBoundary.Fault
import CallBoundary.Json
/-! Data in JSON text. A record is an object with any of its members in any order, or an array of its first members in
their own order; what is missing keeps its standard value. Members with names that are not known are passed over, but
one that is known may come once only. One of several names is that name as a string, or an object whose one member has
that name and no value. -/
namespace CallBoundary

structure Member (σ : Type) where
  name : String
  read : Json → σ → Option σ
  write : σ → String

namespace Member

variable {σ : Type}

def readObject (members : List (Member σ)) : (seen : List String) → σ → List (Option String × Json) → Option σ
  | _, record, [] => some record
  | seen, record, (name, value) :: rest => do
    let name ← name
    match members.find? fun m => m.name = name with
    | none => readObject members seen record rest
    | some m =>
      if name ∈ seen then none
      else readObject members (name :: seen) (← m.read value record) rest

def readArray : List (Member σ) → σ → List Json → Option σ
  | _, record, [] => some record
  | [], _, _ :: _ => none
  | m :: members, record, value :: rest => do readArray members (← m.read value record) rest

def readRecord (members : List (Member σ)) (standard : σ) : Json → Option σ
  | .object entries => readObject members [] standard entries
  | .array items => readArray members standard items
  | _ => none

def writeRecord (members : List (Member σ)) (record : σ) : String :=
  "\x7b" ++ ",".intercalate (members.map fun m => "\"" ++ m.name ++ "\":" ++ m.write record) ++ "\x7d"

def readBool : Json → Option Bool
  | .bool value => some value
  | _ => none

def readWord : Json → Option UInt64
  | .number numeral => do
    let n ← Json.natural? numeral
    if n < UInt64.size then some (UInt64.ofNat n) else none
  | _ => none

def ofBool (name : String) (get : σ → Bool) (set : σ → Bool → σ) : Member σ where
  name := name
  read value record := (readBool value).map (set record)
  write record := if get record then "true" else "false"

def ofWord (name : String) (get : σ → UInt64) (set : σ → UInt64 → σ) : Member σ where
  name := name
  read value record := (readWord value).map (set record)
  write record := toString (get record).toNat

end Member

namespace Json

def choice? : Json → Option String
  | .string name => name
  | .object [(name, .null)] => name
  | _ => none

def readChoice {α : Type} (choices : List α) (name : α → String) (text : String) : Option α := do
  let value ← ofText? text
  let chosen ← value.choice?
  choices.find? fun c => name c = chosen

end Json

def Attempt.Kind.ofText? (text : String) : Option Attempt.Kind := Json.readChoice all Kind.name text

def Status.ofText? (text : String) : Option Status := Json.readChoice all Status.name text

end CallBoundary
