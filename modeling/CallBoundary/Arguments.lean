import CallBoundary.Wire
/-! Lists of arguments, each a byte string or nil. A packed list opens with a tag: after the
structured tag come the arguments one by one, after the plain tag one argument as it stands.
Unpacking never fails; what is neither is the empty list. -/
namespace CallBoundary

abbrev Arguments := List (Option Bytes)

namespace Arguments

def plainTag : UInt8 := 0

def structuredTag : UInt8 := 1

structure Slot where
  value : Bytes
  absent : Bool
  deriving DecidableEq, Repr

namespace Slot

def ofArgument : Option Bytes → Slot
  | some value => ⟨value, false⟩
  | none => ⟨[], true⟩

def toArgument (e : Slot) : Option Bytes := if e.absent then none else some e.value

def fields (e : Slot) : List Wire.Field :=
  Wire.Field.ofBytes 1 e.value ++ Wire.Field.ofNat 2 e.absent.toNat

def merge (budget : Nat) (e : Slot) : Wire.Field → Option Slot
  | ⟨1, .bytes raw⟩ => some { e with value := raw }
  | ⟨2, .varint n⟩ => some { e with absent := n ≠ 0 }
  | ⟨number, _⟩ => if number ≤ 2 ∨ budget = 0 then none else some e

def read (budget : Nat) (raw : Bytes) : Option Slot := Wire.readMessage budget (merge budget) ⟨[], false⟩ raw

end Slot

def fields (args : Arguments) : List Wire.Field :=
  args.map fun arg => ⟨1, .bytes (Wire.encodeFields (Slot.ofArgument arg).fields)⟩

def pack (args : Arguments) : Bytes := structuredTag :: Wire.encodeFields args.fields

def readSlot? : Wire.Field → Option (Option Slot)
  | ⟨1, .bytes raw⟩ => (Slot.read (Wire.nestingLimit - 1) raw).map some
  | ⟨number, _⟩ => if number = 1 then none else some none

def readSlots (raw : Bytes) : Option (List Slot) := do
  let fields ← Wire.readFields Wire.nestingLimit [] raw
  let slots ← fields.mapM readSlot?
  some (slots.filterMap id)

def unpack : Bytes → Arguments
  | [] => []
  | tag :: rest =>
    if tag = plainTag then [some rest]
    else if tag = structuredTag then ((readSlots rest).getD []).map Slot.toArgument
    else []

end Arguments
end CallBoundary
