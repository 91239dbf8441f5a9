import CallBoundary.Proofs.Bounding
import CallBoundary.Proofs.Packing
/-! Packed lists that were cut off somewhere. A number cut inside never reads, as all its bytes but the last announce
another one, and a byte string cut inside is shorter than the length before it says. So a cut list reads as
nothing unless the cut is between two arguments, and there it reads as the arguments in front of it. Neither
lists nor values need a bound here: a length that 64 bits cannot hold does not read either. -/
namespace CallBoundary

namespace Wire

theorem readLastByte {n : Nat} (small : n < 128) (room : Nat) (rest : Bytes) :
    readVarintWithin (room + 1) (UInt8.ofNat n :: rest) = if room = 0 ∧ 1 < n then none else some (n, rest) := by
  have byte : (UInt8.ofNat n).toNat = n := byteToNat (by omega)
  simp only [readVarintWithin, UInt8.lt_iff_toNat_lt, byte, UInt8.reduceToNat, small, if_true]

theorem readMoreByte (n room : Nat) (rest : Bytes) :
    readVarintWithin (room + 1) (UInt8.ofNat (n % 128 + 128) :: rest) =
      (readVarintWithin room rest).map fun read => (n % 128 + 128 * read.1, read.2) := by
  have byte : (UInt8.ofNat (n % 128 + 128)).toNat = n % 128 + 128 := byteToNat (by omega)
  have more : ¬ n % 128 + 128 < 128 := by omega
  simp only [readVarintWithin, UInt8.lt_iff_toNat_lt, byte, UInt8.reduceToNat, more, if_false, Nat.add_sub_cancel]
  cases readVarintWithin room rest <;> rfl

theorem readVarintCut (room n k : Nat) (rest : Bytes) :
    readVarintWithin (room + 1) ((varint n ++ rest).take k) = none ∨
      n < 2 * 128 ^ room ∧ (varint n).length ≤ k ∧
        readVarintWithin (room + 1) ((varint n ++ rest).take k) = some (n, rest.take (k - (varint n).length)) := by
  induction n using varint.induct generalizing room k with
  | case1 n small =>
    rw [varint, if_pos small]
    cases k with
    | zero => exact .inl rfl
    | succ k =>
      rw [List.singleton_append, List.take_succ_cons, readLastByte small]
      split
      · exact .inl rfl
      · rename_i fits
        refine .inr ⟨?_, Nat.le_add_left _ _, rfl⟩
        rcases Nat.eq_zero_or_pos room with rfl | more
        · omega
        · have wide : 128 ^ 1 ≤ 128 ^ room := Nat.pow_le_pow_right (by decide) more
          omega
  | case2 n large ih =>
    rw [varint, if_neg large]
    cases k with
    | zero => exact .inl rfl
    | succ k =>
      rw [List.cons_append, List.take_succ_cons, readMoreByte]
      cases room with
      | zero => exact .inl rfl
      | succ room =>
        rcases ih room k with unread | ⟨bound, whole, read⟩
        · exact .inl (by rw [unread]; rfl)
        · refine .inr ⟨by rw [Nat.pow_succ]; omega, Nat.succ_le_succ whole, ?_⟩
          rw [read, List.length_cons, Nat.add_sub_add_right, Option.map_some, Nat.mod_add_div]

theorem readExactlyCut (raw rest : Bytes) (k : Nat) :
    readExactly raw.length ((raw ++ rest).take k) =
      if raw.length ≤ k then some (raw, rest.take (k - raw.length)) else none := by
  split
  · rename_i whole
    rw [List.take_append, List.take_of_length_le whole]
    exact readExactlyWritten raw (rest.take (k - raw.length))
  · rename_i cut
    have shorter : ((raw ++ rest).take k).length < raw.length := by
      rw [List.length_take]
      omega
    simp only [readExactly, List.length_take]
    exact if_neg (by omega)

theorem keyLength {number form : Nat} (known : number ≤ 7) (low : form < 8) : (Field.key number form).length = 1 := by
  rw [Field.key, varint, if_pos (by omega)]
  rfl

theorem readFieldsUnread {budget number form : Nat} {raw rest : Bytes} (nonempty : raw ≠ [])
    (opened : readKey raw = some (number, form, rest)) (ungrouped : form ≠ 3 ∧ form ≠ 4)
    (unread : readPayload form rest = none) : readFields budget [] raw = none := by
  rw [readFieldsKeyed nonempty opened ungrouped, unread]
  rfl

theorem readFieldsCutFirst {number : Nat} (known : 0 < number ∧ number ≤ 7) (budget k : Nat) (raw rest : Bytes) :
    let field : Field := ⟨number, .bytes raw⟩
    let cut := (field.encode ++ rest).take k
    k = 0 ∨ readFields budget [] cut = none ∨
      raw.length < UInt64.size ∧ field.encode.length ≤ k ∧
        readFields budget [] cut = (readFields budget [] (rest.take (k - field.encode.length))).map (field :: ·) := by
  intro field cut
  have one : (Field.key number 2).length = 1 := keyLength known.2 (by decide)
  have length : field.encode.length = 1 + (varint raw.length).length + raw.length := by
    simp only [field, Field.encode, List.length_append, one]
  cases k with
  | zero => exact .inl rfl
  | succ k =>
    refine .inr ?_
    have split : cut = Field.key number 2 ++ (varint raw.length ++ (raw ++ rest)).take k := by
      simp only [cut, field, Field.encode, List.append_assoc]
      rw [List.take_append, one, Nat.add_sub_cancel, List.take_of_length_le (by omega)]
    have nonempty := keyNonempty number 2 ((varint raw.length ++ (raw ++ rest)).take k)
    have opened := readKeyWritten known (by decide : 2 < 8) ((varint raw.length ++ (raw ++ rest)).take k)
    rw [split]
    rcases readVarintCut 9 raw.length k (raw ++ rest) with unread | ⟨bound, counted, read⟩
    · have missing : readPayload 2 ((varint raw.length ++ (raw ++ rest)).take k) = none := by
        simp only [readPayload, readVarint, unread]
        rfl
      exact .inl (readFieldsUnread nonempty opened (by decide) missing)
    · have body : readPayload 2 ((varint raw.length ++ (raw ++ rest)).take k) =
          (readExactly raw.length ((raw ++ rest).take (k - (varint raw.length).length))).map
            fun parts => (.bytes parts.1, parts.2) := by
        simp only [readPayload, readVarint, read]
        rfl
      rw [readExactlyCut] at body
      split at body
      · rename_i whole
        have behind : k - (varint raw.length).length - raw.length = k + 1 - field.encode.length := by omega
        refine .inr ⟨by simpa using bound, by omega, ?_⟩
        rw [readFieldsOpened nonempty opened (by decide) body, behind]
      · exact .inl (readFieldsUnread nonempty opened (by decide) body)

theorem readFieldsCut {number : Nat} (known : 0 < number ∧ number ≤ 7) (budget k : Nat) (raws : List Bytes) :
    let written (raws : List Bytes) := encodeFields (raws.map fun raw => ⟨number, .bytes raw⟩)
    readFields budget [] ((written raws).take k) = none ∨
      ∃ kept, (∀ raw ∈ raws.take kept, raw.length < UInt64.size) ∧ (written raws).take k = written (raws.take kept) ∧
        readFields budget [] ((written raws).take k) = some ((raws.take kept).map fun raw => ⟨number, .bytes raw⟩) := by
  intro written
  have nothing : readFields budget [] [] = some [] := by simp [readFields]
  have vacuous : ∀ raw ∈ ([] : List Bytes), raw.length < UInt64.size := fun _ absent => absurd absent List.not_mem_nil
  induction raws generalizing k with
  | nil => exact .inr ⟨0, vacuous, List.take_nil, by rw [show written [] = [] from rfl, List.take_nil, nothing]; rfl⟩
  | cons raw rest ih =>
    have split : written (raw :: rest) = Field.encode ⟨number, .bytes raw⟩ ++ written rest := List.flatMap_cons
    rw [split]
    rcases readFieldsCutFirst known budget k raw (written rest) with rfl | unread | ⟨bound, whole, read⟩
    · exact .inr ⟨0, vacuous, rfl, nothing⟩
    · exact .inl unread
    · rw [read]
      rcases ih (k - (Field.encode ⟨number, .bytes raw⟩).length) with unread | ⟨kept, bounds, cut, later⟩
      · exact .inl (by rw [unread]; rfl)
      · refine .inr ⟨kept + 1, ?_, ?_, ?_⟩
        · rw [List.take_succ_cons]
          exact List.forall_mem_cons.mpr ⟨bound, bounds⟩
        · rw [List.take_append, List.take_of_length_le whole, cut, List.take_succ_cons]
          exact List.flatMap_cons.symm
        · rw [later, List.take_succ_cons]
          rfl

end Wire

namespace Arguments

theorem readSlotsCut (args : Arguments) (n : Nat) :
    let cut := (Wire.encodeFields args.fields).take n
    readSlots cut = none ∨
      ∃ kept, cut = Wire.encodeFields (fields (args.take kept)) ∧
        readSlots cut = some ((args.take kept).map Slot.ofArgument) := by
  intro cut
  let raw (arg : Option Bytes) : Bytes := Wire.encodeFields (Slot.ofArgument arg).fields
  have listed (args : Arguments) : (args.map raw).map (fun raw => ⟨1, .bytes raw⟩) = fields args := List.map_map
  have fielded := Wire.readFieldsCut (by decide : 0 < 1 ∧ 1 ≤ 7) Wire.nestingLimit n (args.map raw)
  simp only [← List.map_take, listed] at fielded
  rcases fielded with unread | ⟨kept, short, same, read⟩
  · refine .inl ?_
    simp only [readSlots, cut, unread]
    rfl
  · have each := readEachWritten fun arg member => short (raw arg) (List.mem_map_of_mem member)
    refine .inr ⟨kept, same, ?_⟩
    simp only [readSlots, cut, read, Option.bind_eq_bind, Option.bind_some]
    rw [show fields (args.take kept) = (args.take kept).map slotField from rfl, each, Option.bind_some,
      List.filterMap_map]
    exact congrArg some (congrFun List.filterMap_eq_map _)

theorem unpackCut (args : Arguments) (n : Nat) :
    unpack (args.pack.take n) = [] ∨
      ∃ kept, args.pack.take n = pack (args.take kept) ∧ unpack (args.pack.take n) = args.take kept := by
  cases n with
  | zero => exact .inl rfl
  | succ n =>
    have tagged : args.pack.take (n + 1) = structuredTag :: (Wire.encodeFields args.fields).take n := rfl
    have opened (raw : Bytes) : unpack (structuredTag :: raw) = ((readSlots raw).getD []).map Slot.toArgument := rfl
    rw [tagged, opened]
    rcases readSlotsCut args n with unread | ⟨kept, cut, read⟩
    · exact .inl (by rw [unread]; rfl)
    · refine .inr ⟨kept, congrArg (structuredTag :: ·) cut, ?_⟩
      rw [read, Option.getD_some, List.map_map]
      simp [Function.comp_def, Slot.toArgumentOfArgument]

theorem packSplit (args : Arguments) (kept : Nat) :
    args.pack = pack (args.take kept) ++ Wire.encodeFields (fields (args.drop kept)) := by
  have parted : fields args = fields (args.take kept) ++ fields (args.drop kept) := by
    simp only [fields, ← List.map_append, List.take_append_drop]
  simp only [pack, parted, Wire.encodeFields, List.flatMap_append, List.cons_append]

theorem addressableTake {args : Arguments} (bound : Addressable args) (kept : Nat) : Addressable (args.take kept) :=
  fun value member => bound value (List.mem_of_mem_take member)

/-- Cut after any number of bytes, a packed list unpacks to an initial part of the list: to nothing, or where what is left
is the packed form of that part. Every initial part can be got in this way. So it is with the arguments of
each attempt that a bounded report keeps, as many bytes as it keeps of them. -/
theorem cutListsUnpackToInitialParts (args : Arguments) :
    (∀ n, unpack (args.pack.take n) <+: args ∧
      (unpack (args.pack.take n) = [] ∨
        ∃ kept, args.pack.take n = pack (args.take kept) ∧ unpack (args.pack.take n) = args.take kept)) ∧
    (Addressable args → ∀ kept, ∃ n, unpack (args.pack.take n) = args.take kept) ∧
    ∀ (r node : Report) (path : List Nat), r.bounded.descend? path = some node →
      ∃ original, r.descend? path = some original ∧
        ∀ attempt, original.attempt = some attempt → attempt.args = args.pack →
          ∃ clipped, node.attempt = some clipped ∧ clipped.args = args.pack.take 100 ∧ unpack clipped.args <+: args := by
  have initial (n : Nat) : unpack (args.pack.take n) <+: args := by
    rcases args.unpackCut n with nothing | ⟨kept, -, part⟩
    · exact nothing ▸ List.nil_prefix
    · exact part ▸ args.take_prefix kept
  refine ⟨fun n => ⟨initial n, args.unpackCut n⟩, ?_, ?_⟩
  · intro bound kept
    refine ⟨(pack (args.take kept)).length, ?_⟩
    rw [args.packSplit kept, List.take_left, unpackPack (addressableTake bound kept)]
  · intro r node path found
    obtain ⟨original, levels, reached, rfl⟩ := Report.boundedDescend found
    refine ⟨original, reached, ?_⟩
    intro attempt attempted packed
    refine ⟨Report.clipArgs attempt, ?_, ?_, ?_⟩
    · rw [(Report.boundKeeps levels original).1, attempted]
      rfl
    · exact congrArg (List.take 100) packed
    · rw [show (Report.clipArgs attempt).args = args.pack.take 100 from congrArg (List.take 100) packed]
      exact initial 100

end Arguments
end CallBoundary
