import CallBoundary.Proofs.Reading
/-! What is written is no longer than what it was read from. The writer takes the shortest form of every
number, leaves out defaults and unknown fields and writes each known field once; a reader takes other
forms as well. So whatever was read from bytes that can be counted can be written again. -/
namespace CallBoundary

namespace Wire

theorem varintStep (n : Nat) : (varint n).length ≤ (varint (n / 128)).length + 1 := by
  rw [varint.eq_def n]
  split
  · exact Nat.le_add_left 1 _
  · exact Nat.le_refl _

theorem varintLengthMono {a b : Nat} (le : a ≤ b) : (varint a).length ≤ (varint b).length := by
  induction b using Nat.strongRecOn generalizing a with
  | ind b ih =>
    rw [varint.eq_def a, varint.eq_def b]
    split
    · split
      · exact Nat.le_refl 1
      · exact Nat.succ_le_succ (Nat.zero_le _)
    · rw [if_neg (by omega)]
      exact Nat.succ_le_succ (ih (b / 128) (by omega) (by omega))

theorem varintLengthAdd (a b : Nat) : (varint (a + b)).length ≤ (varint a).length + (varint b).length + 1 := by
  have step := varintStep (a + b)
  rcases Nat.le_total a b with le | le
  · have larger := varintLengthMono (by omega : (a + b) / 128 ≤ b)
    omega
  · have larger := varintLengthMono (by omega : (a + b) / 128 ≤ a)
    omega

theorem readVarintWithinLength {room n : Nat} {raw rest : Bytes} (h : readVarintWithin room raw = some (n, rest)) :
    (varint n).length + rest.length ≤ raw.length := by
  induction room generalizing raw n rest with
  | zero => simp [readVarintWithin] at h
  | succ room ih =>
    cases raw with
    | nil => simp [readVarintWithin] at h
    | cons b tail =>
      have byte := b.toNat_lt
      simp only [readVarintWithin, UInt8.lt_iff_toNat_lt, UInt8.reduceToNat] at h
      split at h
      · rename_i small
        split at h
        · cases h
        · cases h
          rw [varint, if_pos small]
          simp only [List.length_cons, List.length_nil]
          omega
      · simp only [Option.bind_eq_bind, Option.bind_eq_some_iff, Option.some.injEq, Prod.mk.injEq] at h
        obtain ⟨⟨high, last⟩, inner, rfl, rfl⟩ := h
        have shorter := ih inner
        have step := varintStep (b.toNat - 128 + 128 * high)
        rw [show (b.toNat - 128 + 128 * high) / 128 = high by omega] at step
        simp only [List.length_cons]
        omega

theorem readKeyLength {raw rest : Bytes} {number form : Nat} (h : readKey raw = some (number, form, rest)) :
    (Field.key number form).length + rest.length ≤ raw.length := by
  simp only [readKey, Option.bind_eq_bind, Option.bind_eq_some_iff] at h
  obtain ⟨⟨key, tail⟩, read, last⟩ := h
  split at last
  · cases last
    rw [Field.key, Nat.div_add_mod]
    exact readVarintWithinLength read
  · cases last

theorem readExactlyTakes {length : Nat} {raw body rest : Bytes} (h : readExactly length raw = some (body, rest)) :
    body.length = length ∧ body.length + rest.length = raw.length := by
  simp only [readExactly] at h
  split at h
  · rename_i whole
    cases h
    refine ⟨whole, ?_⟩
    simp only [List.length_take, List.length_drop]
    omega
  · cases h

namespace Field

def weight (field : Field) : Nat :=
  match field.payload with
  | .varint _ | .bytes _ => field.encode.length
  | _ => 0

theorem ofNatLength {number n m : Nat} (le : n ≤ m) :
    (encodeFields (ofNat number n)).length ≤ weight ⟨number, .varint m⟩ := by
  have shorter := varintLengthMono le
  unfold ofNat
  split
  · exact Nat.zero_le _
  · simp only [encodeFields, List.flatMap_singleton, weight, encode, List.length_append]
    omega

theorem ofCountLength (number n : Nat) :
    (encodeFields (ofNat number (UInt64.ofNat n).toNat)).length ≤ weight ⟨number, .varint n⟩ := by
  apply ofNatLength
  rw [UInt64.toNat_ofNat']
  exact Nat.mod_le _ _

theorem ofBytesLength (number : Nat) (raw : Bytes) :
    (encodeFields (ofBytes number raw)).length ≤ weight ⟨number, .bytes raw⟩ := by
  unfold ofBytes
  split
  · exact Nat.zero_le _
  · simp only [encodeFields, List.flatMap_singleton, weight]
    exact Nat.le_refl _

end Field

theorem readPayloadWeight (number : Nat) {form : Nat} {raw rest : Bytes} {payload : Payload}
    (h : readPayload form raw = some (payload, rest)) :
    Field.weight ⟨number, payload⟩ + rest.length ≤ (Field.key number form).length + raw.length := by
  unfold readPayload at h
  split at h
  · simp only [Option.map_eq_some_iff, Prod.mk.injEq] at h
    obtain ⟨⟨n, tail⟩, read, rfl, rfl⟩ := h
    have shorter := readVarintWithinLength read
    simp only [Field.weight, Field.encode, List.length_append]
    omega
  · simp only [Option.map_eq_some_iff, Prod.mk.injEq] at h
    obtain ⟨⟨body, tail⟩, read, rfl, rfl⟩ := h
    have shorter := (readExactlyTakes read).2
    simp only [Field.weight]
    omega
  · simp only [Option.bind_eq_bind, Option.bind_eq_some_iff, Option.map_eq_some_iff, Prod.mk.injEq] at h
    obtain ⟨⟨length, middle⟩, first, ⟨body, tail⟩, read, rfl, rfl⟩ := h
    have counted : (varint length).length + middle.length ≤ raw.length := readVarintWithinLength first
    obtain ⟨rfl, whole⟩ : body.length = length ∧ body.length + tail.length = middle.length := readExactlyTakes read
    simp only [Field.weight, Field.encode, List.length_append]
    omega
  · simp only [Option.map_eq_some_iff, Prod.mk.injEq] at h
    obtain ⟨⟨body, tail⟩, read, rfl, rfl⟩ := h
    have shorter := (readExactlyTakes read).2
    simp only [Field.weight]
    omega
  · cases h

def weights (fields : List Field) : Nat := (fields.map Field.weight).sum

theorem weightsCons (field : Field) (fields : List Field) : weights (field :: fields) = field.weight + weights fields := by
  simp [weights]

theorem readFieldsWeight {budget : Nat} {groups : List Nat} {raw : Bytes} {fields : List Field}
    (h : readFields budget groups raw = some fields) : weights fields ≤ raw.length := by
  fun_induction readFields budget groups raw generalizing fields with
  | case1 =>
    cases h
    exact Nat.le_refl 0
  | case4 groups raw nonempty number rest opened room ih =>
    exact Nat.le_trans (ih h) (Nat.le_of_lt (readKeyShorter opened))
  | case7 raw nonempty rest number opened tail =>
    rename_i ih
    -- The outermost group has closed: it is kept as a field, but nothing is written for it.
    obtain ⟨others, read, rfl⟩ := Option.map_eq_some_iff.mp h
    have shorter := readKeyShorter opened
    have later := ih read
    have unwritten : Field.weight ⟨number, .group⟩ = 0 := rfl
    rw [weightsCons]
    omega
  | case8 raw nonempty rest number outer tail more opened =>
    rename_i ih
    exact Nat.le_trans (ih h) (Nat.le_of_lt (readKeyShorter opened))
  | case11 raw nonempty number form rest starts ends opened payload after read ih =>
    obtain ⟨others, continued, rfl⟩ := Option.map_eq_some_iff.mp h
    have key := readKeyLength opened
    have own := readPayloadWeight number read
    have later := ih continued
    rw [weightsCons]
    omega
  | case12 groups raw nonempty number form rest starts ends opened payload after read grouped room ih =>
    have skipped := readPayloadLength read
    exact Nat.le_trans (ih h) (Nat.le_trans skipped (Nat.le_of_lt (readKeyShorter opened)))
  | case2 | case3 | case5 | case6 | case9 | case10 | case13 => cases h

section Folding

variable {α : Type} {merge : α → Field → Option α} {fields : List Field} {start after : α}

theorem foldKeeps (P : α → Prop) (each : ∀ {a b : α} {field : Field}, merge a field = some b → P a → P b)
    (folds : fields.foldlM merge start = some after) (holds : P start) : P after := by
  induction fields generalizing start with
  | nil =>
    cases folds
    exact holds
  | cons field rest ih =>
    simp only [List.foldlM_cons, Option.bind_eq_bind, Option.bind_eq_some_iff] at folds
    obtain ⟨middle, first, later⟩ := folds
    exact ih later (each first holds)

theorem foldWeight (size : α → Nat) (weight : Field → Nat)
    (each : ∀ {a b : α} {field : Field}, merge a field = some b → size b ≤ size a + weight field)
    (folds : fields.foldlM merge start = some after) : size after ≤ size start + (fields.map weight).sum := by
  induction fields generalizing start with
  | nil =>
    cases folds
    exact Nat.le_refl _
  | cons field rest ih =>
    simp only [List.foldlM_cons, Option.bind_eq_bind, Option.bind_eq_some_iff] at folds
    obtain ⟨middle, first, later⟩ := folds
    have here := each first
    have there := ih later
    rw [List.map_cons, List.sum_cons]
    omega

end Folding

end Wire

theorem Text.bytesOfBytes {raw : Bytes} {text : String} (read : ofBytes? raw = some text) : bytes text = raw := by
  unfold ofBytes? String.fromUTF8? at read
  split at read
  · cases read
    simp [bytes, String.fromUTF8]
  · cases read

namespace Attempt

theorem encodeLength (a : Attempt) :
    a.encode.length = (Wire.encodeFields (Wire.Field.ofNat 1 a.kindCode.toNat)).length +
      (Wire.encodeFields (Wire.Field.ofBytes 2 a.amount)).length +
      (Wire.encodeFields (Wire.Field.ofBytes 3 (Text.bytes a.method))).length +
      (Wire.encodeFields (Wire.Field.ofBytes 4 a.args)).length +
      (Wire.encodeFields (Wire.Field.ofNat 5 a.gasLimit.toNat)).length +
      (Wire.encodeFields (Wire.Field.ofBytes 6 a.code)).length +
      (Wire.encodeFields (Wire.Field.ofBytes 7 a.nonce)).length := by
  simp only [encode, fields, Wire.encodeFields, List.flatMap_append, List.length_append]

theorem mergeLength {budget : Nat} {a b : Attempt} {field : Wire.Field} (merged : merge budget a field = some b) :
    b.encode.length ≤ a.encode.length + field.weight := by
  unfold merge at merged
  split at merged
  · rename_i n
    cases merged
    have own : (Wire.encodeFields (Wire.Field.ofNat 1 (UInt32.ofNat n).toNat)).length ≤ _ :=
      Wire.Field.ofNatLength (m := n) (by rw [UInt32.toNat_ofNat']; exact Nat.mod_le _ _)
    simp only [encodeLength]
    omega
  · rename_i raw
    cases merged
    have own := Wire.Field.ofBytesLength 2 raw
    simp only [encodeLength]
    omega
  · rename_i raw
    obtain ⟨method, read, rfl⟩ := Option.map_eq_some_iff.mp merged
    have own := Wire.Field.ofBytesLength 3 raw
    simp only [encodeLength, Text.bytesOfBytes read]
    omega
  · rename_i raw
    cases merged
    have own := Wire.Field.ofBytesLength 4 raw
    simp only [encodeLength]
    omega
  · rename_i n
    cases merged
    have own := Wire.Field.ofCountLength 5 n
    simp only [encodeLength]
    omega
  · rename_i raw
    cases merged
    have own := Wire.Field.ofBytesLength 6 raw
    simp only [encodeLength]
    omega
  · rename_i raw
    cases merged
    have own := Wire.Field.ofBytesLength 7 raw
    simp only [encodeLength]
    omega
  · split at merged
    · cases merged
    · cases merged
      exact Nat.le_add_right _ _

theorem readLength {budget : Nat} {start a : Attempt} {raw : Bytes} (done : read budget start raw = some a) :
    a.encode.length ≤ start.encode.length + raw.length := by
  simp only [read, Wire.readMessage, Option.bind_eq_bind, Option.bind_eq_some_iff] at done
  obtain ⟨fields, opened, folds⟩ := done
  have folded := Wire.foldWeight (fun a => a.encode.length) Wire.Field.weight mergeLength folds
  exact Nat.le_trans folded (Nat.add_le_add_left (Wire.readFieldsWeight opened) _)

end Attempt

namespace Report

def ownLength (r : Report) : Nat := (Wire.encodeFields r.ownFields).length

def ownWeight : Wire.Field → Nat
  | ⟨7, .bytes _⟩ => 0
  | field => field.weight

def subsWeight (raws : List Bytes) : Nat := (raws.map fun raw => Wire.Field.weight ⟨7, .bytes raw⟩).sum

theorem attemptLength {before : Option Attempt} {a : Attempt} {raw : Bytes}
    (bound : a.encode.length ≤ (before.getD {}).encode.length + raw.length) :
    (Wire.encodeFields [⟨1, .bytes a.encode⟩]).length ≤
      (Wire.encodeFields (before.map fun a => ⟨1, .bytes a.encode⟩).toList).length +
        Wire.Field.weight ⟨1, .bytes raw⟩ := by
  have key : (Wire.Field.key 1 2).length = 1 := by decide +kernel
  have count := Wire.varintLengthMono bound
  cases before with
  | none =>
    have blank : ((none : Option Attempt).getD {}).encode.length = 0 := by decide +kernel
    rw [blank, Nat.zero_add] at bound count
    simp only [Option.map_none, Option.toList_none, Wire.encodeFields, List.flatMap_nil, List.flatMap_singleton,
      Wire.Field.weight, Wire.Field.encode, List.length_append, List.length_nil]
    omega
  | some old =>
    have both := Wire.varintLengthAdd old.encode.length raw.length
    rw [Option.getD_some] at bound count
    simp only [Option.map_some, Option.toList_some, Wire.encodeFields, List.flatMap_singleton, Wire.Field.weight,
      Wire.Field.encode, List.length_append, key]
    omega

theorem ownLengthParts (r : Report) :
    r.ownLength = (Wire.encodeFields (r.attempt.map fun a => ⟨1, .bytes a.encode⟩).toList).length +
      (Wire.encodeFields (Wire.Field.ofNat 2 r.success.toNat)).length +
      (Wire.encodeFields (Wire.Field.ofBytes 3 (Text.bytes r.error))).length +
      (Wire.encodeFields (Wire.Field.ofNat 4 r.gasUsed.toNat)).length +
      (Wire.encodeFields (Wire.Field.ofNat 5 r.remainingGas.toNat)).length +
      (Wire.encodeFields (Wire.Field.ofBytes 6 r.output)).length := by
  simp only [ownLength, ownFields, Wire.encodeFields, List.flatMap_append, List.length_append]

theorem encodeLength (r : Report) : r.encode.length = r.ownLength + subsWeight (r.subs.map encode) := by
  have subs : (Wire.encodeFields (fieldsOfSubs r.subs)).length = subsWeight (r.subs.map encode) := by
    simp only [fieldsOfSubsMap, Wire.encodeFields, List.flatMap_map, List.length_flatMap, subsWeight, List.map_map]
    rfl
  rw [encodeOwn, Wire.encodeFields, List.flatMap_append, List.length_append]
  exact congrArg (r.ownLength + ·) subs

theorem weightsSplit (fields : List Wire.Field) :
    (fields.map ownWeight).sum + subsWeight (rawSubs fields) = Wire.weights fields := by
  induction fields with
  | nil => rfl
  | cons field rest ih =>
    have own : ownWeight field + subsWeight (rawSubs [field]) = field.weight := by
      unfold ownWeight
      split
      · simp [rawSubs, subsWeight]
      · rename_i other
        have none : rawSubs [field] = [] := by
          simp only [rawSubs, List.filterMap_cons, List.filterMap_nil]
        rw [none]
        rfl
    have whole : rawSubs (field :: rest) = rawSubs [field] ++ rawSubs rest := rawSubsAppend [field] rest
    rw [whole, Wire.weightsCons, List.map_cons, List.sum_cons, subsWeight, List.map_append, List.sum_append]
    simp only [subsWeight] at own ih
    omega

theorem mergeLength {nested : Option Nat} {r s : Report} {field : Wire.Field} (merged : merge nested r field = some s) :
    s.ownLength ≤ r.ownLength + ownWeight field := by
  unfold merge at merged
  split at merged
  · rename_i raw
    simp only [Option.bind_eq_bind, Option.bind_eq_some_iff, Option.some.injEq] at merged
    obtain ⟨budget, -, attempt, read, rfl⟩ := merged
    have own := attemptLength (Attempt.readLength read)
    simp only [ownLengthParts, ownWeight, Option.map_some, Option.toList_some]
    omega
  · rename_i n
    cases merged
    have own : (Wire.encodeFields (Wire.Field.ofNat 2 (decide (n ≠ 0)).toNat)).length ≤ _ :=
      Wire.Field.ofNatLength (m := n) (by by_cases zero : n = 0 <;> simp [zero]; omega)
    simp only [ownLengthParts, ownWeight]
    omega
  · rename_i raw
    obtain ⟨error, read, rfl⟩ := Option.map_eq_some_iff.mp merged
    have own := Wire.Field.ofBytesLength 3 raw
    simp only [ownLengthParts, ownWeight, Text.bytesOfBytes read]
    omega
  · rename_i n
    cases merged
    have own := Wire.Field.ofCountLength 4 n
    simp only [ownLengthParts, ownWeight]
    omega
  · rename_i n
    cases merged
    have own := Wire.Field.ofCountLength 5 n
    simp only [ownLengthParts, ownWeight]
    omega
  · rename_i raw
    cases merged
    have own := Wire.Field.ofBytesLength 6 raw
    simp only [ownLengthParts, ownWeight]
    omega
  · cases merged
    exact Nat.le_add_right _ _
  · split at merged
    · cases merged
    · cases merged
      exact Nat.le_add_right _ _

theorem readAllCons {reader : Bytes → Option Report} {raw : Bytes} {rest : List Bytes} {subs : List Report}
    (done : (raw :: rest).mapM reader = some subs) :
    ∃ sub others, reader raw = some sub ∧ rest.mapM reader = some others ∧ subs = sub :: others := by
  simp only [List.mapM_cons, Option.bind_eq_bind, Option.bind_eq_some_iff, Option.pure_def, Option.some.injEq] at done
  obtain ⟨sub, first, others, later, rfl⟩ := done
  exact ⟨sub, others, first, later, rfl⟩

theorem readAllLength {reader : Bytes → Option Report} {raws : List Bytes} {subs : List Report}
    (each : ∀ {raw sub}, reader raw = some sub → sub.encode.length ≤ raw.length)
    (done : raws.mapM reader = some subs) : subsWeight (subs.map encode) ≤ subsWeight raws := by
  induction raws generalizing subs with
  | nil =>
    cases done
    exact Nat.le_refl _
  | cons raw rest ih =>
    obtain ⟨sub, others, first, later, rfl⟩ := readAllCons done
    have shorter := each first
    have count := Wire.varintLengthMono shorter
    have there := ih later
    simp only [subsWeight, List.map_cons, List.sum_cons, Wire.Field.weight, Wire.Field.encode, List.length_append] at there ⊢
    omega

theorem readAllKeeps {reader : Bytes → Option Report} {raws : List Bytes} {subs : List Report} (P : Report → Prop)
    (each : ∀ {raw sub}, reader raw = some sub → P sub) (done : raws.mapM reader = some subs) : ∀ sub ∈ subs, P sub := by
  induction raws generalizing subs with
  | nil =>
    cases done
    exact nofun
  | cons raw rest ih =>
    obtain ⟨sub, others, first, later, rfl⟩ := readAllCons done
    exact List.forall_mem_cons.mpr ⟨each first, ih later⟩

theorem mergeKeeps {nested : Option Nat} {r s : Report} {field : Wire.Field} (merged : merge nested r field = some s) :
    s.subs = r.subs ∧ (nested = none → s.attempt = r.attempt) := by
  unfold merge at merged
  split at merged
  · simp only [Option.bind_eq_bind, Option.bind_eq_some_iff, Option.some.injEq] at merged
    obtain ⟨budget, rfl, attempt, read, rfl⟩ := merged
    exact ⟨rfl, fun none => by cases none⟩
  · cases merged
    exact ⟨rfl, fun _ => rfl⟩
  · obtain ⟨error, read, rfl⟩ := Option.map_eq_some_iff.mp merged
    exact ⟨rfl, fun _ => rfl⟩
  · cases merged
    exact ⟨rfl, fun _ => rfl⟩
  · cases merged
    exact ⟨rfl, fun _ => rfl⟩
  · cases merged
    exact ⟨rfl, fun _ => rfl⟩
  · cases merged
    exact ⟨rfl, fun _ => rfl⟩
  · split at merged
    · cases merged
    · cases merged
      exact ⟨rfl, fun _ => rfl⟩

theorem foldKeepsSubs {nested : Option Nat} {r : Report} {fields : List Wire.Field}
    (folds : fields.foldlM (merge nested) {} = some r) : r.subs = [] :=
  Wire.foldKeeps (fun r : Report => r.subs = []) (fun merged bare => (mergeKeeps merged).1.trans bare) folds rfl

theorem foldKeepsBare {r : Report} {fields : List Wire.Field} (folds : fields.foldlM (merge none) {} = some r) :
    r.attempt = none :=
  Wire.foldKeeps (fun r : Report => r.attempt = none) (fun merged bare => ((mergeKeeps merged).2 rfl).trans bare) folds rfl

theorem readFlat {raw : Bytes} {r : Report} (done : read 0 raw = some r) :
    ∃ fields, Wire.readFields 0 [] raw = some fields ∧ rawSubs fields = [] ∧ fields.foldlM (merge none) {} = some r := by
  simp only [read, Option.bind_eq_bind, Option.bind_eq_some_iff] at done
  obtain ⟨fields, opened, last⟩ := done
  split at last
  · rename_i bare
    exact ⟨fields, opened, bare, last⟩
  · cases last

theorem readNested {budget : Nat} {raw : Bytes} {r : Report} (done : read (budget + 1) raw = some r) :
    ∃ fields own subs, Wire.readFields (budget + 1) [] raw = some fields ∧
      fields.foldlM (merge (some budget)) {} = some own ∧ (rawSubs fields).mapM (read budget) = some subs ∧
        r = { own with subs } := by
  simp only [read, Option.bind_eq_bind, Option.bind_eq_some_iff, Option.some.injEq] at done
  obtain ⟨fields, opened, own, folds, subs, inside, rfl⟩ := done
  exact ⟨fields, own, subs, opened, folds, inside, rfl⟩

theorem foldLength {nested : Option Nat} {budget : Nat} {raw : Bytes} {r : Report} {fields : List Wire.Field}
    (opened : Wire.readFields budget [] raw = some fields) (folds : fields.foldlM (merge nested) {} = some r) :
    r.ownLength + subsWeight (rawSubs fields) ≤ raw.length := by
  have own := Wire.foldWeight ownLength ownWeight mergeLength folds
  have blank : ownLength {} = 0 := by decide +kernel
  have split := weightsSplit fields
  have whole := Wire.readFieldsWeight opened
  omega

theorem readLength {budget : Nat} {raw : Bytes} {r : Report} (done : read budget raw = some r) :
    r.encode.length ≤ raw.length := by
  induction budget generalizing raw r with
  | zero =>
    obtain ⟨fields, opened, bare, folds⟩ := readFlat done
    have whole := foldLength opened folds
    rw [encodeLength, foldKeepsSubs folds, List.map_nil, ← bare]
    exact whole
  | succ budget ih =>
    obtain ⟨fields, own, subs, opened, folds, inside, rfl⟩ := readNested done
    have whole := foldLength opened folds
    have below := readAllLength ih inside
    have same : ({ own with subs } : Report).ownLength = own.ownLength := rfl
    rw [encodeLength, same]
    dsimp only
    omega

theorem readNesting {budget : Nat} {raw : Bytes} {r : Report} (done : read budget raw = some r) : r.nesting ≤ budget := by
  induction budget generalizing raw r with
  | zero =>
    obtain ⟨fields, opened, bare, folds⟩ := readFlat done
    exact (nestingNone r).mpr ⟨foldKeepsBare folds, foldKeepsSubs folds⟩
  | succ budget ih =>
    obtain ⟨fields, own, subs, opened, folds, inside, rfl⟩ := readNested done
    exact (nestingWithin budget _).mpr (readAllKeeps (fun r => r.nesting ≤ budget) ih inside)

/-- A report whose messages nest no deeper than the limit reads back from its bytes, and any other one does
not. So no two reports are written alike, and whatever was read from any bytes at all reads back again. -/
theorem reportsReadBack :
    (∀ r : Report, r.encode.length < UInt64.size →
        decode r.encode = if r.nesting ≤ Wire.nestingLimit then some r else none) ∧
      (∀ r s : Report, r.encode.length < UInt64.size → r.encode = s.encode → r = s) ∧
      ∀ (raw : Bytes) (r : Report), raw.length < UInt64.size → decode raw = some r → decode r.encode = some r := by
  refine ⟨fun r short => readByNesting Wire.nestingLimit short, ?_, ?_⟩
  · intro r s short same
    -- A reader that goes as deep as both of them tells them apart, whatever the limit.
    have first := readByNesting (max r.nesting s.nesting) short
    have second := readByNesting (max r.nesting s.nesting) (same ▸ short)
    rw [if_pos (Nat.le_max_left _ _)] at first
    rw [if_pos (Nat.le_max_right _ _), ← same, first] at second
    exact Option.some.inj second
  · intro raw r short done
    rw [decode, readByNesting Wire.nestingLimit (Nat.lt_of_le_of_lt (readLength done) short)]
    exact if_pos (readNesting done)

def chained : Nat → Report
  | 0 => { attempt := some {} }
  | levels + 1 => { subs := [chained levels] }

def repeated : Bytes := [26, 1, 65, 16, 0, 26, 1, 66]

theorem chainedReadBack :
    decode (chained 99).encode = some (chained 99) ∧ decode (chained 100).encode = none ∧
      ∃ r, decode repeated = some r ∧ r.error = "B" ∧ decode r.encode = some r := by
  obtain ⟨reads, -, again⟩ := reportsReadBack
  have shallow := reads (chained 99) (by decide +kernel)
  have deep := reads (chained 100) (by decide +kernel)
  have told : (decode repeated).map Report.error = some "B" := by decide +kernel
  obtain ⟨r, decoded, error⟩ := Option.map_eq_some_iff.mp told
  rw [if_pos (by decide +kernel)] at shallow
  rw [if_neg (by decide +kernel)] at deep
  exact ⟨shallow, deep, r, decoded, error, again repeated r (by decide) decoded⟩

end Report
end CallBoundary
