import CallBoundary.Proofs.Fields
import CallBoundary.Report
/-! Reports read back from their wire form, exactly as far as the reader goes: a report whose messages nest
deeper than that is refused. The bytes of a report are to be such that they can be counted in 64 bits; those
of every report inside it then can be as well. -/
namespace CallBoundary

namespace Attempt

theorem fieldsShaped (a : Attempt) : ∀ field ∈ a.fields, field.Shaped := by
  intro field member
  have kind : a.kindCode.toNat < UInt64.size := Nat.lt_trans a.kindCode.toNat_lt (by decide)
  simp only [fields, List.mem_append] at member
  rcases member with (((((kinds | amounts) | methods) | args) | limits) | codes) | nonces
  · exact Wire.Field.shapedOfNat (by decide) kind field kinds
  · exact Wire.Field.shapedOfBytes (by decide) _ field amounts
  · exact Wire.Field.shapedOfBytes (by decide) _ field methods
  · exact Wire.Field.shapedOfBytes (by decide) _ field args
  · exact Wire.Field.shapedOfNat (by decide) a.gasLimit.toNat_lt field limits
  · exact Wire.Field.shapedOfBytes (by decide) _ field codes
  · exact Wire.Field.shapedOfBytes (by decide) _ field nonces

theorem mergeFields (budget : Nat) (a : Attempt) : a.fields.foldlM (merge budget) {} = some a := by
  obtain ⟨kindCode, amount, method, args, gasLimit, code, nonce⟩ := a
  have kinds : (Wire.Field.ofNat 1 kindCode.toNat).foldlM (merge budget) {} = some { kindCode } := by
    apply Wire.mergeNumber
    · intro zero
      rw [show kindCode = 0 from UInt32.toNat_inj.mp zero]
    · simp only [merge, UInt32.ofNat_toNat]
  have amounts : (Wire.Field.ofBytes 2 amount).foldlM (merge budget) { kindCode } = some { kindCode, amount } :=
    Wire.mergeBytes (fun amount => ({ kindCode, amount } : Attempt)) rfl rfl
  have methods : (Wire.Field.ofBytes 3 (Text.bytes method)).foldlM (merge budget) { kindCode, amount } =
      some { kindCode, amount, method } :=
    Wire.mergeText (fun method => ({ kindCode, amount, method } : Attempt)) rfl fun _ => rfl
  have arguments : (Wire.Field.ofBytes 4 args).foldlM (merge budget) { kindCode, amount, method } =
      some { kindCode, amount, method, args } :=
    Wire.mergeBytes (fun args => ({ kindCode, amount, method, args } : Attempt)) rfl rfl
  have limits : (Wire.Field.ofNat 5 gasLimit.toNat).foldlM (merge budget) { kindCode, amount, method, args } =
      some { kindCode, amount, method, args, gasLimit } := by
    apply Wire.mergeNumber
    · intro zero
      rw [show gasLimit = 0 from UInt64.toNat_inj.mp zero]
    · simp only [merge, UInt64.ofNat_toNat]
  have codes : (Wire.Field.ofBytes 6 code).foldlM (merge budget) { kindCode, amount, method, args, gasLimit } =
      some { kindCode, amount, method, args, gasLimit, code } :=
    Wire.mergeBytes (fun code => ({ kindCode, amount, method, args, gasLimit, code } : Attempt)) rfl rfl
  have nonces : (Wire.Field.ofBytes 7 nonce).foldlM (merge budget) { kindCode, amount, method, args, gasLimit, code } =
      some { kindCode, amount, method, args, gasLimit, code, nonce } :=
    Wire.mergeBytes (fun nonce => ({ kindCode, amount, method, args, gasLimit, code, nonce } : Attempt)) rfl rfl
  simp only [fields, List.foldlM_append, kinds, amounts, methods, arguments, limits, codes, nonces, Option.bind_eq_bind,
    Option.bind_some]

theorem readWritten (budget : Nat) (a : Attempt) (short : a.encode.length < UInt64.size) :
    read budget {} a.encode = some a := by
  have fields := Wire.readFieldsWritten budget a.fieldsShaped short
  unfold read Wire.readMessage
  rw [encode, fields]
  exact a.mergeFields budget

end Attempt

namespace Report

def ownFields (r : Report) : List Wire.Field :=
  (r.attempt.map fun a => ⟨1, .bytes a.encode⟩).toList ++ Wire.Field.ofNat 2 r.success.toNat ++
    Wire.Field.ofBytes 3 (Text.bytes r.error) ++ Wire.Field.ofNat 4 r.gasUsed.toNat ++
    Wire.Field.ofNat 5 r.remainingGas.toNat ++ Wire.Field.ofBytes 6 r.output

theorem encodeOwn (r : Report) : r.encode = Wire.encodeFields (r.ownFields ++ fieldsOfSubs r.subs) := by
  cases r
  rfl

theorem fieldsOfSubsMap (subs : List Report) : fieldsOfSubs subs = subs.map fun r => ⟨7, .bytes r.encode⟩ := by
  induction subs with
  | nil => rfl
  | cons r rest ih => rw [fieldsOfSubs, ih, List.map_cons]

theorem fieldsShaped (r : Report) : ∀ field ∈ r.ownFields ++ fieldsOfSubs r.subs, field.Shaped := by
  intro field member
  have flag : r.success.toNat < UInt64.size := Nat.lt_of_le_of_lt r.success.toNat_le (by decide)
  simp only [ownFields, fieldsOfSubsMap, List.mem_append, Option.mem_toList, Option.map_eq_some_iff, List.mem_map]
    at member
  rcases member with ((((((⟨a, -, rfl⟩ | flags) | errors) | used) | remaining) | outputs) | ⟨sub, -, rfl⟩)
  · exact ⟨by decide, by decide⟩
  · exact Wire.Field.shapedOfNat (by decide) flag field flags
  · exact Wire.Field.shapedOfBytes (by decide) _ field errors
  · exact Wire.Field.shapedOfNat (by decide) r.gasUsed.toNat_lt field used
  · exact Wire.Field.shapedOfNat (by decide) r.remainingGas.toNat_lt field remaining
  · exact Wire.Field.shapedOfBytes (by decide) _ field outputs
  · exact ⟨by decide, by decide⟩

theorem mergeOwn (nested : Option Nat) {r : Report} (room : r.attempt ≠ none → nested ≠ none)
    (short : r.encode.length < UInt64.size) :
    r.ownFields.foldlM (merge nested) {} = some { r with subs := [] } := by
  obtain ⟨attempt, success, error, gasUsed, remainingGas, output, subs⟩ := r
  have attempts : (attempt.map fun a => (⟨1, .bytes a.encode⟩ : Wire.Field)).toList.foldlM (merge nested) {} =
      some { attempt } := by
    cases attempt with
    | none => rfl
    | some a =>
      have inside : a.encode.length < UInt64.size := by
        refine Nat.lt_of_le_of_lt (Wire.bytesShorter 1 ?_) (encodeOwn _ ▸ short)
        simp [ownFields]
      obtain ⟨budget, rfl⟩ := Option.ne_none_iff_exists'.mp (room (Option.some_ne_none a))
      simp [merge, a.readWritten budget inside]
  have flags : (Wire.Field.ofNat 2 success.toNat).foldlM (merge nested) { attempt } =
      some { attempt, success } := by
    apply Wire.mergeNumber
    · cases success <;> simp
    · cases success <;> rfl
  have errors : (Wire.Field.ofBytes 3 (Text.bytes error)).foldlM (merge nested) { attempt, success } =
      some { attempt, success, error } :=
    Wire.mergeText (fun error => ({ attempt, success, error } : Report)) rfl fun _ => rfl
  have used : (Wire.Field.ofNat 4 gasUsed.toNat).foldlM (merge nested) { attempt, success, error } =
      some { attempt, success, error, gasUsed } := by
    apply Wire.mergeNumber
    · intro zero
      rw [show gasUsed = 0 from UInt64.toNat_inj.mp zero]
    · simp only [merge, UInt64.ofNat_toNat]
  have remaining : (Wire.Field.ofNat 5 remainingGas.toNat).foldlM (merge nested)
      { attempt, success, error, gasUsed } = some { attempt, success, error, gasUsed, remainingGas } := by
    apply Wire.mergeNumber
    · intro zero
      rw [show remainingGas = 0 from UInt64.toNat_inj.mp zero]
    · simp only [merge, UInt64.ofNat_toNat]
  have outputs : (Wire.Field.ofBytes 6 output).foldlM (merge nested)
      { attempt, success, error, gasUsed, remainingGas } =
        some { attempt, success, error, gasUsed, remainingGas, output } :=
    Wire.mergeBytes (fun output => ({ attempt, success, error, gasUsed, remainingGas, output } : Report)) rfl rfl
  simp only [ownFields, List.foldlM_append, attempts, flags, errors, used, remaining, outputs, Option.bind_eq_bind,
    Option.bind_some]

theorem mergeSubs (nested : Option Nat) (r : Report) (subs : List Report) :
    (fieldsOfSubs subs).foldlM (merge nested) r = some r := by
  induction subs with
  | nil => rfl
  | cons sub rest ih => simpa [fieldsOfSubs, merge] using ih

theorem rawSubsAppend (before after : List Wire.Field) : rawSubs (before ++ after) = rawSubs before ++ rawSubs after :=
  List.filterMap_append

theorem rawSubsOfNat (number n : Nat) : rawSubs (Wire.Field.ofNat number n) = [] := by
  unfold Wire.Field.ofNat
  split <;> simp [rawSubs]

theorem rawSubsOfBytes {number : Nat} (other : number ≠ 7) (raw : Bytes) :
    rawSubs (Wire.Field.ofBytes number raw) = [] := by
  unfold Wire.Field.ofBytes
  split <;> simp [rawSubs, other]

theorem rawSubsWritten (r : Report) : rawSubs (r.ownFields ++ fieldsOfSubs r.subs) = r.subs.map encode := by
  have attempts : rawSubs (r.attempt.map fun a => (⟨1, .bytes a.encode⟩ : Wire.Field)).toList = [] := by
    cases r.attempt <;> rfl
  have subs : rawSubs (fieldsOfSubs r.subs) = r.subs.map encode := by
    simp [rawSubs, fieldsOfSubsMap, List.filterMap_map]
  simp only [ownFields, rawSubsAppend, attempts, rawSubsOfNat, rawSubsOfBytes (by decide : 3 ≠ 7),
    rawSubsOfBytes (by decide : 6 ≠ 7), subs, List.nil_append]

theorem mergeOwnStarved {r : Report} {a : Attempt} (attempted : r.attempt = some a) (start : Report) :
    r.ownFields.foldlM (merge none) start = none := by
  simp [ownFields, attempted, merge]

mutual
def nesting : Report → Nat
  | ⟨attempt, _, _, _, _, _, subs⟩ => max attempt.isSome.toNat (nestingAll subs)

def nestingAll : List Report → Nat
  | [] => 0
  | r :: rest => max (r.nesting + 1) (nestingAll rest)
end

theorem nestingAllWithin (levels : Nat) (subs : List Report) :
    nestingAll subs ≤ levels + 1 ↔ ∀ r ∈ subs, r.nesting ≤ levels := by
  induction subs with
  | nil => simp [nestingAll]
  | cons r rest ih => simp [nestingAll, ih]

theorem nestingNone (r : Report) : r.nesting ≤ 0 ↔ r.attempt = none ∧ r.subs = [] := by
  obtain ⟨attempt, _, _, _, _, _, subs⟩ := r
  cases attempt <;> cases subs <;> simp [nesting, nestingAll]

theorem nestingWithin (levels : Nat) (r : Report) : r.nesting ≤ levels + 1 ↔ ∀ sub ∈ r.subs, sub.nesting ≤ levels := by
  obtain ⟨attempt, _, _, _, _, _, subs⟩ := r
  have own : attempt.isSome.toNat ≤ levels + 1 := Nat.le_trans attempt.isSome.toNat_le (Nat.le_add_left 1 levels)
  rw [nesting, Nat.max_le, nestingAllWithin]
  exact and_iff_right own

theorem subsDepth {r : Report} {subs : List Report} (member : r ∈ subs) : r.depth ≤ depthAll subs := by
  induction subs with
  | nil => cases member
  | cons first rest ih =>
    rw [depthAll]
    rcases List.mem_cons.mp member with rfl | later
    · exact Nat.le_max_left _ _
    · exact Nat.le_trans (ih later) (Nat.le_max_right _ _)

theorem nestingLeDepth {levels : Nat} {r : Report} (depth : r.depth ≤ levels) : r.nesting ≤ levels := by
  induction levels generalizing r with
  | zero =>
    cases r
    simp only [Report.depth] at depth
    omega
  | succ levels ih =>
    rw [nestingWithin]
    intro sub member
    have whole := subsDepth member
    cases r
    simp only [Report.depth] at depth whole
    exact ih (by omega)

theorem readAllWritten {reader : Bytes → Option Report} {subs : List Report}
    (each : ∀ r ∈ subs, reader r.encode = some r) : (subs.map encode).mapM reader = some subs := by
  induction subs with
  | nil => rfl
  | cons r rest ih =>
    have head := each r List.mem_cons_self
    have tail := ih fun other member => each other (List.mem_cons_of_mem r member)
    simp [head, tail]

theorem readAllRefused {reader : Bytes → Option Report} {r : Report} {subs : List Report} (member : r ∈ subs)
    (refused : reader r.encode = none) : (subs.map encode).mapM reader = none := by
  induction subs with
  | nil => cases member
  | cons first rest ih =>
    rcases List.mem_cons.mp member with rfl | later
    · simp [refused]
    · simp [ih later]

theorem subShorter {r sub : Report} (member : sub ∈ r.subs) : sub.encode.length ≤ r.encode.length := by
  have field : (⟨7, .bytes sub.encode⟩ : Wire.Field) ∈ r.ownFields ++ fieldsOfSubs r.subs := by
    rw [fieldsOfSubsMap]
    exact List.mem_append_right _ (List.mem_map.mpr ⟨sub, member, rfl⟩)
  exact encodeOwn r ▸ Wire.bytesShorter 7 field

theorem readByNesting (budget : Nat) {r : Report} (short : r.encode.length < UInt64.size) :
    read budget r.encode = if r.nesting ≤ budget then some r else none := by
  induction budget generalizing r with
  | zero =>
    have fields := Wire.readFieldsWritten 0 r.fieldsShaped (encodeOwn r ▸ short)
    rw [← encodeOwn] at fields
    simp only [read, fields, Option.bind_eq_bind, Option.bind_some, rawSubsWritten, List.map_eq_nil_iff, nestingNone]
    by_cases bare : r.subs = []
    · cases attempted : r.attempt with
      | none =>
        have own := mergeOwn none (fun some => (some attempted).elim) short
        simp only [bare, List.foldlM_append, own, fieldsOfSubs, Option.bind_eq_bind, Option.bind_some]
        cases r
        cases bare
        rfl
      | some a => simp [bare, List.foldlM_append, mergeOwnStarved attempted]
    · simp only [bare, if_false, and_false]
  | succ budget ih =>
    have fields := Wire.readFieldsWritten (budget + 1) r.fieldsShaped (encodeOwn r ▸ short)
    rw [← encodeOwn] at fields
    have own := mergeOwn (some budget) (fun _ => Option.some_ne_none budget) short
    have inside (sub : Report) (member : sub ∈ r.subs) :
        read budget sub.encode = if sub.nesting ≤ budget then some sub else none :=
      ih (Nat.lt_of_le_of_lt (subShorter member) short)
    simp only [read, fields, List.foldlM_append, own, mergeSubs, rawSubsWritten, Option.bind_eq_bind, Option.bind_some,
      nestingWithin]
    split
    · rename_i shallow
      have subs := readAllWritten fun sub member => (inside sub member).trans (if_pos (shallow sub member))
      simp only [subs, Option.bind_some]
      cases r
      rfl
    · rename_i deep
      obtain ⟨sub, member, deeper⟩ := not_forall₂.mp deep
      simp only [readAllRefused member ((inside sub member).trans (if_neg deeper)), Option.bind_none]

theorem decodeWritten {r : Report} (depth : r.depth ≤ Wire.nestingLimit) (short : r.encode.length < UInt64.size) :
    decode r.encode = some r :=
  (readByNesting Wire.nestingLimit short).trans (if_pos (nestingLeDepth depth))

end Report
end CallBoundary
