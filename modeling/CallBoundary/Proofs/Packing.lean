import CallBoundary.Arguments
import CallBoundary.Proofs.Fields
/-! Lists of arguments read back as they were packed: in order, with the nils where they were, and with
nil and the empty value apart. A list may be of any length; only each value in it has to be such as fits
into a memory, where no byte string is as long as 2^63. -/
namespace CallBoundary

theorem Wire.varintLength {room n : Nat} (bound : n < 128 ^ room) (positive : 0 < room) :
    (varint n).length ≤ room := by
  induction room generalizing n with
  | zero => cases positive
  | succ room ih =>
    rw [varint]
    split
    · exact positive
    · rename_i large
      rcases Nat.eq_zero_or_pos room with rfl | more
      · omega
      · have high : n / 128 < 128 ^ room := Nat.div_lt_of_lt_mul (by rw [Nat.pow_succ] at bound; omega)
        exact Nat.succ_le_succ (ih high more)

namespace Arguments

def memoryBound : Nat := 0x8000000000000000

def Addressable (args : Arguments) : Prop := ∀ value : Bytes, some value ∈ args → value.length < memoryBound

namespace Slot

theorem toArgumentOfArgument (arg : Option Bytes) : (ofArgument arg).toArgument = arg := by
  cases arg <;> rfl

theorem fieldsShaped (e : Slot) : ∀ field ∈ e.fields, field.Shaped := by
  intro field member
  have flag : e.absent.toNat < UInt64.size := Nat.lt_of_le_of_lt e.absent.toNat_le (by decide)
  rcases List.mem_append.mp member with values | flags
  · exact Wire.Field.shapedOfBytes (by decide) _ field values
  · exact Wire.Field.shapedOfNat (by decide) flag field flags

theorem mergeFields (budget : Nat) (e : Slot) : e.fields.foldlM (merge budget) ⟨[], false⟩ = some e := by
  obtain ⟨value, absent⟩ := e
  have values : (Wire.Field.ofBytes 1 value).foldlM (merge budget) ⟨[], false⟩ = some ⟨value, false⟩ :=
    Wire.mergeBytes (fun value => (⟨value, false⟩ : Slot)) rfl rfl
  have flags : (Wire.Field.ofNat 2 absent.toNat).foldlM (merge budget) ⟨value, false⟩ = some ⟨value, absent⟩ := by
    apply Wire.mergeNumber
    · cases absent <;> simp
    · cases absent <;> rfl
  simp only [fields, List.foldlM_append, values, flags, Option.bind_eq_bind, Option.bind_some]

theorem readWritten (budget : Nat) (e : Slot) (short : (Wire.encodeFields e.fields).length < UInt64.size) :
    read budget (Wire.encodeFields e.fields) = some e := by
  unfold read Wire.readMessage
  rw [Wire.readFieldsWritten budget e.fieldsShaped short]
  exact e.mergeFields budget

theorem fieldsLength {arg : Option Bytes} (bound : ∀ value, arg = some value → value.length < memoryBound) :
    (Wire.encodeFields (ofArgument arg).fields).length < memoryBound + 11 := by
  cases arg with
  | none => decide +kernel
  | some value =>
    have small := bound value rfl
    have count : (Wire.varint value.length).length ≤ 9 :=
      Wire.varintLength (Nat.lt_of_lt_of_le small (by decide)) (by decide)
    have key : (Wire.Field.key 1 2).length = 1 := by decide +kernel
    have written : Wire.encodeFields (ofArgument (some value)).fields =
        Wire.encodeFields (Wire.Field.ofBytes 1 value) := by
      simp [ofArgument, fields, Wire.Field.ofNat]
    rw [written]
    unfold Wire.Field.ofBytes
    split
    · decide
    · simp only [Wire.encodeFields, List.flatMap_singleton, Wire.Field.encode, List.length_append, key]
      omega

end Slot

def slotField (arg : Option Bytes) : Wire.Field := ⟨1, .bytes (Wire.encodeFields (Slot.ofArgument arg).fields)⟩

theorem slotFieldLength {arg : Option Bytes} (bound : ∀ value, arg = some value → value.length < memoryBound) :
    (slotField arg).encode.length < UInt64.size := by
  have inside := Slot.fieldsLength bound
  have wide : memoryBound + 11 ≤ 128 ^ 10 := by decide
  have count := Wire.varintLength (Nat.lt_of_lt_of_le inside wide) (by decide)
  have key : (Wire.Field.key 1 2).length = 1 := by decide +kernel
  simp only [slotField, Wire.Field.encode, List.length_append, key]
  simp only [memoryBound, UInt64.size] at *
  omega

theorem readSlotWritten {arg : Option Bytes} (short : (Wire.encodeFields (Slot.ofArgument arg).fields).length < UInt64.size) :
    readSlot? (slotField arg) = some (some (Slot.ofArgument arg)) := by
  simp only [slotField, readSlot?, Slot.readWritten _ _ short, Option.map_some]

theorem readEachWritten {args : Arguments}
    (short : ∀ arg ∈ args, (Wire.encodeFields (Slot.ofArgument arg).fields).length < UInt64.size) :
    (args.map slotField).mapM readSlot? = some (args.map fun arg => some (Slot.ofArgument arg)) := by
  induction args with
  | nil => rfl
  | cons arg rest ih =>
    have head := readSlotWritten (short arg List.mem_cons_self)
    have tail := ih fun other member => short other (List.mem_cons_of_mem arg member)
    simp [head, tail]

theorem readSlotsWritten {args : Arguments} (bound : Addressable args) :
    readSlots (Wire.encodeFields args.fields) = some (args.map Slot.ofArgument) := by
  have shaped : ∀ field ∈ args.map slotField, field.Shaped := by
    intro field member
    obtain ⟨arg, -, rfl⟩ := List.mem_map.mp member
    exact ⟨by decide, by decide⟩
  have short : ∀ field ∈ args.map slotField, field.encode.length < UInt64.size := by
    intro field member
    obtain ⟨arg, listed, rfl⟩ := List.mem_map.mp member
    exact slotFieldLength fun value same => bound value (same ▸ listed)
  have slots : ∀ arg ∈ args, (Wire.encodeFields (Slot.ofArgument arg).fields).length < UInt64.size := by
    intro arg listed
    exact Nat.lt_of_lt_of_le (Slot.fieldsLength fun value same => bound value (same ▸ listed)) (by decide)
  have listed : readSlots (Wire.encodeFields (args.map slotField)) = some (args.map Slot.ofArgument) := by
    simp [readSlots, Wire.readFieldsEach Wire.nestingLimit shaped short, readEachWritten slots, List.filterMap_map]
  exact listed

theorem unpackPack {args : Arguments} (bound : Addressable args) : unpack args.pack = args := by
  have opened : unpack args.pack = ((readSlots (Wire.encodeFields args.fields)).getD []).map Slot.toArgument := rfl
  rw [opened, readSlotsWritten bound, Option.getD_some, List.map_map]
  simp [Function.comp_def, Slot.toArgumentOfArgument]

/-- What is packed unpacks to the same list, so no two lists are packed alike, and what has been
packed comes out the same when it is unpacked and packed again. -/
theorem packedListsReadBack :
    (∀ args : Arguments, Addressable args → unpack args.pack = args) ∧
      (∀ args others : Arguments, Addressable args → Addressable others → args.pack = others.pack → args = others) ∧
      ∀ (raw : Bytes) (args : Arguments), Addressable args → raw = args.pack → (unpack raw).pack = raw := by
  refine ⟨fun args bound => unpackPack bound, ?_, ?_⟩
  · intro args others bound also same
    rw [← unpackPack bound, same, unpackPack also]
  · rintro raw args bound rfl
    rw [unpackPack bound]

def mixed : Arguments := [none, some [], some (List.replicate 300 7), none]

theorem mixedReadsBack : Addressable mixed ∧ unpack mixed.pack = mixed ∧ (unpack mixed.pack).pack = mixed.pack := by
  have bound : Addressable mixed := by
    intro value member
    simp only [mixed, List.mem_cons, reduceCtorEq, Option.some.injEq, List.not_mem_nil, or_false, false_or] at member
    rcases member with rfl | rfl <;> decide +kernel
  exact ⟨bound, packedListsReadBack.1 mixed bound, packedListsReadBack.2.2 mixed.pack mixed bound rfl⟩

end Arguments
end CallBoundary
