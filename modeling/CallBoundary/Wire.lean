import CallBoundary.Bytes
/-! The wire form of messages. A number stands in groups of seven bits, the lowest group first, every byte but the
last with its high bit set. A reader takes at most ten bytes, and of the tenth only the lowest bit, so what it returns
is below 2^64; forms longer than needed are read as well. A message is a list of numbered fields, and reading it is in
two steps: bytes to fields, which knows the six forms a field can have and no message type, and fields to a message,
one at a time. Groups are old and carry nothing here, but they must close properly; their contents are dropped. A
budget bounds how deep messages and groups may nest. -/
namespace CallBoundary

namespace Wire

def varint (n : Nat) : Bytes :=
  if n < 128 then [UInt8.ofNat n] else UInt8.ofNat (n % 128 + 128) :: varint (n / 128)
termination_by n
decreasing_by omega

def readVarintWithin : Nat → Bytes → Option (Nat × Bytes)
  | 0, _ => none
  | _ + 1, [] => none
  | room + 1, b :: rest =>
    if b < 128 then
      if room = 0 ∧ 1 < b then none else some (b.toNat, rest)
    else do
      let (high, tail) ← readVarintWithin room rest
      some (b.toNat - 128 + 128 * high, tail)

def readVarint (raw : Bytes) : Option (Nat × Bytes) := readVarintWithin 10 raw

theorem readVarintWithinShorter {room raw n rest} (h : readVarintWithin room raw = some (n, rest)) :
    rest.length < raw.length := by
  induction room generalizing raw n rest with
  | zero => simp [readVarintWithin] at h
  | succ room ih =>
    match raw with
    | [] => simp [readVarintWithin] at h
    | b :: tail =>
      simp only [readVarintWithin] at h
      split at h
      · split at h
        · simp at h
        · simp only [Option.some.injEq, Prod.mk.injEq] at h
          simp [h.2]
      · simp only [Option.bind_eq_bind, Option.bind_eq_some_iff, Option.some.injEq, Prod.mk.injEq] at h
        obtain ⟨⟨high, last⟩, inner, _, same⟩ := h
        have := ih inner
        simp only [← same, List.length_cons]
        omega

theorem readVarintShorter {raw n rest} (h : readVarint raw = some (n, rest)) :
    rest.length < raw.length := readVarintWithinShorter h

inductive Payload where
  | varint (n : Nat)
  | fixed64 (raw : Bytes)
  | bytes (raw : Bytes)
  | group
  | fixed32 (raw : Bytes)
  deriving DecidableEq, Repr

structure Field where
  number : Nat
  payload : Payload
  deriving DecidableEq, Repr

namespace Field

def key (number form : Nat) : Bytes := varint (8 * number + form)

def encode : Field → Bytes
  | ⟨number, .varint n⟩ => key number 0 ++ varint n
  | ⟨number, .fixed64 raw⟩ => key number 1 ++ raw
  | ⟨number, .bytes raw⟩ => key number 2 ++ varint raw.length ++ raw
  | ⟨number, .group⟩ => key number 3 ++ key number 4
  | ⟨number, .fixed32 raw⟩ => key number 5 ++ raw

def ofNat (number n : Nat) : List Field := if n = 0 then [] else [⟨number, .varint n⟩]

def ofBytes (number : Nat) (raw : Bytes) : List Field := if raw = [] then [] else [⟨number, .bytes raw⟩]

end Field

def encodeFields (fields : List Field) : Bytes := fields.flatMap Field.encode

-- Both stand in one number of 32 bits, of which the lowest three are the form, and no field has the number zero.
def readKey (raw : Bytes) : Option (Nat × Nat × Bytes) := do
  let (key, rest) ← readVarint raw
  if key < UInt32.size ∧ 8 ≤ key then some (key / 8, key % 8, rest) else none

def readExactly (length : Nat) (raw : Bytes) : Option (Bytes × Bytes) :=
  let body := raw.take length
  if body.length = length then some (body, raw.drop length) else none

def readPayload (form : Nat) (raw : Bytes) : Option (Payload × Bytes) :=
  match form with
  | 0 => (readVarint raw).map fun (n, rest) => (.varint n, rest)
  | 1 => (readExactly 8 raw).map fun (body, rest) => (.fixed64 body, rest)
  | 2 => do
    let (length, rest) ← readVarint raw
    (readExactly length rest).map fun (body, tail) => (.bytes body, tail)
  | 5 => (readExactly 4 raw).map fun (body, rest) => (.fixed32 body, rest)
  | _ => none

theorem readKeyShorter {raw number form rest} (h : readKey raw = some (number, form, rest)) :
    rest.length < raw.length := by
  simp only [readKey, Option.bind_eq_bind, Option.bind_eq_some_iff] at h
  obtain ⟨⟨key, tail⟩, read, last⟩ := h
  split at last
  · simp only [Option.some.injEq, Prod.mk.injEq] at last
    have := readVarintShorter read
    rw [← last.2.2]
    exact this
  · simp at last

theorem readExactlyLength {length raw body rest} (h : readExactly length raw = some (body, rest)) :
    rest.length ≤ raw.length := by
  simp only [readExactly] at h
  split at h
  · simp only [Option.some.injEq, Prod.mk.injEq] at h
    simp [← h.2]
  · simp at h

theorem readPayloadLength {form raw payload rest} (h : readPayload form raw = some (payload, rest)) :
    rest.length ≤ raw.length := by
  unfold readPayload at h
  split at h
  · simp only [Option.map_eq_some_iff, Prod.mk.injEq] at h
    obtain ⟨⟨n, tail⟩, read, _, same⟩ := h
    exact same ▸ Nat.le_of_lt (readVarintShorter read)
  · simp only [Option.map_eq_some_iff, Prod.mk.injEq] at h
    obtain ⟨⟨body, tail⟩, read, _, same⟩ := h
    exact same ▸ readExactlyLength read
  · simp only [Option.bind_eq_bind, Option.bind_eq_some_iff, Option.map_eq_some_iff, Prod.mk.injEq] at h
    obtain ⟨⟨length, middle⟩, first, ⟨body, tail⟩, read, _, same⟩ := h
    have one := readVarintShorter first
    have two := readExactlyLength read
    exact same ▸ Nat.le_trans two (Nat.le_of_lt one)
  · simp only [Option.map_eq_some_iff, Prod.mk.injEq] at h
    obtain ⟨⟨body, tail⟩, read, _, same⟩ := h
    exact same ▸ readExactlyLength read
  · simp at h

-- `groups` holds the numbers of the groups that are open, the innermost first; only a field outside all groups is
-- returned, a closed outermost group as one field. What stands in a group is skipped, and skipping needs room left
-- in the budget at that depth.
def readFields (budget : Nat) (groups : List Nat) (raw : Bytes) : Option (List Field) :=
  if raw = [] then
    if groups = [] then some [] else none
  else
    match _opened : readKey raw with
    | none => none
    | some (number, 3, rest) =>
      if groups.length < budget then readFields budget (number :: groups) rest else none
    | some (number, 4, rest) =>
      match groups with
      | [] => none
      | inner :: outer =>
        if inner = number then
          let tail := readFields budget outer rest
          if outer = [] then tail.map (⟨number, .group⟩ :: ·) else tail
        else none
    | some (number, form, rest) =>
      match _read : readPayload form rest with
      | none => none
      | some (payload, after) =>
        if groups = [] then (readFields budget [] after).map (⟨number, payload⟩ :: ·)
        else if groups.length < budget then readFields budget groups after
        else none
termination_by raw.length
decreasing_by
  · exact readKeyShorter _opened
  · exact readKeyShorter _opened
  · exact Nat.lt_of_le_of_lt (readPayloadLength _read) (readKeyShorter _opened)
  · exact Nat.lt_of_le_of_lt (readPayloadLength _read) (readKeyShorter _opened)

def nestingLimit : Nat := 100

def readMessage {α : Type} (budget : Nat) (merge : α → Field → Option α) (start : α) (raw : Bytes) : Option α := do
  let fields ← readFields budget [] raw
  fields.foldlM merge start

end Wire

end CallBoundary
