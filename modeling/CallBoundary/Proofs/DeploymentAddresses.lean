import CallBoundary.Overlay
import CallBoundary.Proofs.CutLists
/-! Which deployments land at the same address. What is hashed for one does not say where its arguments end and
its nonce begins: bytes at the end of the arguments can as well stand at the front of the nonce. Nothing else is
lost, so beside such pairs only a collision of the hash brings two deployments to one address. -/
namespace CallBoundary

theorem Arguments.packBegins {args others : Arguments} (bound : Addressable others) {part : Bytes}
    (begins : args.pack = others.pack ++ part) :
    ∃ kept, others = args.take kept ∧ part = Wire.encodeFields (fields (args.drop kept)) := by
  have cut : args.pack.take others.pack.length = others.pack := by rw [begins, List.take_left]
  have initial : ∃ kept, others = args.take kept := by
    rcases args.unpackCut others.pack.length with nothing | ⟨kept, -, read⟩
    · exact ⟨0, by rw [← unpackPack bound, ← cut, nothing, List.take_zero]⟩
    · exact ⟨kept, by rw [← read, cut, unpackPack bound]⟩
  obtain ⟨kept, rfl⟩ := initial
  exact ⟨kept, rfl, List.append_cancel_left (begins.symm.trans (args.packSplit kept))⟩

theorem Arguments.fieldsNonempty {args : Arguments} (more : 0 < args.length) : Wire.encodeFields (fields args) ≠ [] := by
  obtain ⟨arg, rest, rfl⟩ := List.exists_cons_of_length_pos more
  have keyed := Wire.keyNonempty 1 2 (Wire.varint (Wire.encodeFields (Slot.ofArgument arg).fields).length)
  exact List.append_ne_nil_of_left_ne_nil (List.append_ne_nil_of_left_ne_nil keyed _) _

structure Origin where
  code : Hash
  args : Bytes
  nonce : Bytes
  deriving DecidableEq, Repr

def Keccak.Collide (p q : Bytes) : Prop := p ≠ q ∧ Hash.toAddress (Keccak.hash p) = Hash.toAddress (Keccak.hash q)

namespace Origin

def preimage (x : Origin) : Bytes := Address.preimage x.code x.args x.nonce

def address (x : Origin) : Address := Address.ofDeployment x.code x.args x.nonce

def MovedTo (x y : Origin) : Prop :=
  x.code = y.code ∧ ∃ part, part ≠ [] ∧ x.args = y.args ++ part ∧ y.nonce = part ++ x.nonce

theorem preimagesShared (x y : Origin) :
    x.preimage = y.preimage ↔ x.code = y.code ∧ x.args ++ x.nonce = y.args ++ y.nonce := by
  have lengths : x.code.toList.length = y.code.toList.length := by
    rw [x.code.lengthToList, y.code.lengthToList]
  constructor
  · intro same
    simp only [preimage, Address.preimage, List.append_assoc] at same
    obtain ⟨codes, rest⟩ := List.append_inj same lengths
    exact ⟨FixedBytes.toListInj codes, rest⟩
  · rintro ⟨codes, rest⟩
    simp only [preimage, Address.preimage, List.append_assoc, codes, rest]

theorem movedSpliced {x y : Origin} (moved : x.MovedTo y) : x.args ++ x.nonce = y.args ++ y.nonce := by
  obtain ⟨-, part, -, args, nonce⟩ := moved
  rw [args, nonce, List.append_assoc]

theorem splicedMoved {x y : Origin} (codes : x.code = y.code) {part : Bytes} (args : x.args = y.args ++ part)
    (nonce : y.nonce = part ++ x.nonce) : x = y ∨ x.MovedTo y := by
  by_cases nothing : part = []
  · subst nothing
    rw [List.append_nil] at args
    rw [List.nil_append] at nonce
    obtain ⟨_, _, _⟩ := x
    obtain ⟨_, _, _⟩ := y
    cases codes
    cases args
    cases nonce
    exact .inl rfl
  · exact .inr ⟨codes, part, nothing, args, nonce⟩

theorem preimagesMoved (x y : Origin) : x.preimage = y.preimage ↔ x = y ∨ x.MovedTo y ∨ y.MovedTo x := by
  rw [preimagesShared]
  constructor
  · rintro ⟨codes, spliced⟩
    rcases List.append_eq_append_iff.mp spliced with ⟨part, args, nonce⟩ | ⟨part, args, nonce⟩
    · rcases splicedMoved codes.symm args nonce with same | moved
      · exact .inl same.symm
      · exact .inr (.inr moved)
    · rcases splicedMoved codes args nonce with same | moved
      · exact .inl same
      · exact .inr (.inl moved)
  · rintro (rfl | moved | moved)
    · exact ⟨rfl, rfl⟩
    · exact ⟨moved.1, movedSpliced moved⟩
    · exact ⟨moved.1.symm, (movedSpliced moved).symm⟩

theorem movedLengths {x y : Origin} (moved : x.MovedTo y) :
    y.args.length < x.args.length ∧ x.nonce.length < y.nonce.length := by
  obtain ⟨-, part, nonempty, args, nonce⟩ := moved
  have positive := List.length_pos_of_ne_nil nonempty
  rw [args, nonce, List.length_append, List.length_append]
  omega

theorem movedPacked {x y : Origin} {args others : Arguments} (bound : Arguments.Addressable others)
    (packed : x.args = args.pack) (also : y.args = others.pack) :
    x.MovedTo y ↔ x.code = y.code ∧ ∃ kept, kept < args.length ∧ others = args.take kept ∧
      y.nonce = Wire.encodeFields (Arguments.fields (args.drop kept)) ++ x.nonce := by
  constructor
  · rintro ⟨codes, part, nonempty, begins, nonce⟩
    rw [packed, also] at begins
    obtain ⟨kept, initial, rfl⟩ := Arguments.packBegins bound begins
    refine ⟨codes, kept, ?_, initial, nonce⟩
    by_contra past
    rw [List.drop_of_length_le (Nat.le_of_not_lt past)] at nonempty
    exact nonempty rfl
  · rintro ⟨codes, kept, within, rfl, nonce⟩
    refine ⟨codes, _, ?_, by rw [packed, also, ← args.packSplit kept], nonce⟩
    exact Arguments.fieldsNonempty (by rw [List.length_drop]; omega)

/-- What is hashed tells deployments apart, unless bytes have moved between arguments and nonce; so where two of
them share an address, they are the same, or such a pair, or the hash collides. The arguments being packed lists, bytes
have moved where one list begins the other and the arguments that it lacks stand before the nonce. Where the arguments
are of one length, or the nonces are, nothing can have moved. -/
theorem addressesTellOriginsUnlessMoved (x y : Origin) :
    (x.preimage = y.preimage ↔ x = y ∨ x.MovedTo y ∨ y.MovedTo x) ∧
      (x.address = y.address ↔ (x = y ∨ x.MovedTo y ∨ y.MovedTo x) ∨ Keccak.Collide x.preimage y.preimage) ∧
      (∀ args others : Arguments, Arguments.Addressable others → x.args = args.pack → y.args = others.pack →
        (x.MovedTo y ↔ x.code = y.code ∧ ∃ kept, kept < args.length ∧ others = args.take kept ∧
          y.nonce = Wire.encodeFields (Arguments.fields (args.drop kept)) ++ x.nonce)) ∧
      (x.args.length = y.args.length ∨ x.nonce.length = y.nonce.length → (x.preimage = y.preimage ↔ x = y)) ∧
      ∀ o : Overlay, o.answer (.addressOfHash x.code x.args x.nonce) = x.address ∧
        ∀ code, Keccak.hash code = x.code → o.answer (.addressOfCode code x.args x.nonce) = x.address := by
  have moved := preimagesMoved x y
  refine ⟨moved, ?_, fun _ _ bound => movedPacked bound, ?_, fun o => ⟨rfl, ?_⟩⟩
  · rw [← moved]
    constructor
    · intro shared
      by_cases same : x.preimage = y.preimage
      · exact .inl same
      · exact .inr ⟨same, shared⟩
    · rintro (same | collide)
      · exact congrArg (fun raw => Hash.toAddress (Keccak.hash raw)) same
      · exact collide.2
  · intro lengths
    rw [moved]
    constructor
    · rintro (same | away | back)
      · exact same
      · have longer := movedLengths away
        omega
      · have longer := movedLengths back
        omega
    · exact .inl
  · intro code hashed
    exact congrArg (fun hash => Address.ofDeployment hash x.args x.nonce) hashed

theorem movedBytesShareAddress :
    let code := Keccak.hash [0xc0, 0xde]
    let x : Origin := ⟨code, Arguments.pack [some []], []⟩
    let y : Origin := ⟨code, Arguments.pack [], [0x0a, 0]⟩
    x ≠ y ∧ x.preimage = y.preimage ∧ x.address = y.address := by
  intro code x y
  have differ : x.args ≠ y.args := by decide +kernel
  have spliced : x.args ++ x.nonce = y.args ++ y.nonce := by decide +kernel
  have same : x.preimage = y.preimage := (preimagesShared x y).mpr ⟨rfl, spliced⟩
  exact ⟨fun equal => differ (congrArg args equal), same, congrArg (fun raw => Hash.toAddress (Keccak.hash raw)) same⟩

end Origin
end CallBoundary
