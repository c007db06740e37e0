/-
The record format as a frame codec.

The encoder of `storage_write_record` and the two decoders agree on every file
shorter than 2^63 bytes, the range of a file offset.  Below that length none
of the wrapping size computations of the decoders wraps, so a whole frame is
decoded to the record it was made from and a frame cut short is refused.
-/

import OriginDb.Storage
import OriginDb.Foundation.FramedLog

namespace OriginDb

open Foundation

/-! ### The padded size -/

private theorem and_not_seven (value : UInt64) :
    (value &&& ~~~7).toNat = value.toNat / 8 * 8 := by
  have mask : (~~~(7 : UInt64)).toNat = (2 ^ 61 - 1) <<< 3 := by decide
  have rounded : value.toNat / 8 * 8 = (value.toNat >>> 3) <<< 3 := by
    rw [Nat.shiftRight_eq_div_pow, Nat.shiftLeft_eq]
  rw [UInt64.toNat_and, mask, rounded]
  apply Nat.eq_of_testBit_eq
  intro bit
  rw [Nat.testBit_and, Nat.testBit_shiftLeft, Nat.testBit_shiftLeft,
    Nat.testBit_two_pow_sub_one, Nat.testBit_shiftRight]
  by_cases low : bit < 3
  · have notHigh : ¬3 ≤ bit := by omega
    simp only [ge_iff_le, notHigh, decide_false, Bool.false_and, Bool.and_false]
  · have high : 3 ≤ bit := by omega
    by_cases inWord : bit - 3 < 61
    · simp [high, inWord]
    · have beyond : value.toNat < 2 ^ bit :=
        Nat.lt_of_lt_of_le value.toNat_lt (Nat.pow_le_pow_right (by omega) (by omega))
      have same : 3 + (bit - 3) = bit := by omega
      simp [inWord, same, Nat.testBit_lt_two_pow beyond]

theorem recordPaddedSize_toNat (dimension metaLen : UInt64) :
    (recordPaddedSize dimension metaLen).toNat =
      (24 + 4 * dimension.toNat + metaLen.toNat + 7) % 2 ^ 64 / 8 * 8 := by
  have header : recordHeaderBytes.toNat = 24 := rfl
  have four : (4 : UInt64).toNat = 4 := rfl
  have seven : (7 : UInt64).toNat = 7 := rfl
  rw [recordPaddedSize, and_not_seven]
  simp only [UInt64.toNat_add, UInt64.toNat_mul, header, four, seven]
  omega

theorem recordPaddedSize_of_small (dimension metaLen : UInt64)
    (small : 24 + 4 * dimension.toNat + metaLen.toNat + 7 < 2 ^ 64) :
    (recordPaddedSize dimension metaLen).toNat =
      (24 + 4 * dimension.toNat + metaLen.toNat + 7) / 8 * 8 := by
  rw [recordPaddedSize_toNat, Nat.mod_eq_of_lt small]

/-! ### Words and vectors inside a file -/

theorem bytesAt_append (before middle after : List UInt8) :
    bytesAt (before ++ (middle ++ after)) before.length middle.length = middle := by
  simp only [bytesAt, List.drop_left, List.take_left]

theorem u64At_append (before after : List UInt8) (value : UInt64) :
    u64At (before ++ (LittleEndian.encode 8 value.toNat ++ after)) before.length = value := by
  have word := bytesAt_append before (LittleEndian.encode 8 value.toNat) after
  rw [LittleEndian.encode_length] at word
  rw [u64At, word, LittleEndian.decode_encode_of_lt value.toNat_lt, UInt64.ofNat_toNat]

theorem u32At_append (before after : List UInt8) (value : UInt32) :
    u32At (before ++ (LittleEndian.encode 4 value.toNat ++ after)) before.length = value := by
  have word := bytesAt_append before (LittleEndian.encode 4 value.toNat) after
  rw [LittleEndian.encode_length] at word
  rw [u32At, word, LittleEndian.decode_encode_of_lt value.toNat_lt, UInt32.ofNat_toNat]

@[simp] theorem vectorBytes_length (values : List UInt32) :
    (StoredRecord.vectorBytes values).length = 4 * values.length := by
  induction values with
  | nil => rfl
  | cons value rest ih =>
      simp only [StoredRecord.vectorBytes, List.flatMap_cons, List.length_append,
        LittleEndian.encode_length, List.length_cons] at ih ⊢
      omega

theorem floatsAt_append (before after : List UInt8) (values : List UInt32) :
    floatsAt (before ++ (StoredRecord.vectorBytes values ++ after)) before.length
      values.length = values := by
  induction values generalizing before with
  | nil => rfl
  | cons value rest ih =>
      have split : before ++ (StoredRecord.vectorBytes (value :: rest) ++ after) =
          before ++ (LittleEndian.encode 4 value.toNat ++
            (StoredRecord.vectorBytes rest ++ after)) := by
        simp only [StoredRecord.vectorBytes, List.flatMap_cons, List.append_assoc]
      have later := ih (before ++ LittleEndian.encode 4 value.toNat)
      rw [List.append_assoc, List.length_append, LittleEndian.encode_length] at later
      rw [split, List.length_cons, floatsAt, u32At_append, later]

/-! ### Sizes of frames -/

namespace StoredRecord

variable {dimension : UInt64}

/-- Bytes of a frame before its padding. -/
def used (record : StoredRecord dimension) : Nat :=
  24 + 4 * dimension.toNat + record.metaBytes.length

theorem encode_length_eq (record : StoredRecord dimension) :
    record.encode.length = record.used + record.padding := by
  simp only [encode, used, List.length_append, LittleEndian.encode_length, vectorBytes_length,
    record.vector_length, List.length_replicate]

theorem metaLen_toNat {record : StoredRecord dimension}
    (small : record.encode.length < 2 ^ 63) :
    record.metaLen.toNat = record.metaBytes.length := by
  rw [encode_length_eq, used] at small
  rw [metaLen, UInt64.toNat_ofNat']
  omega

theorem encode_length {record : StoredRecord dimension}
    (small : record.encode.length < 2 ^ 63) :
    record.encode.length = (record.used + 7) / 8 * 8 := by
  have lenEq := metaLen_toNat small
  have lengthEq := record.encode_length_eq
  have paddedEq := recordPaddedSize_of_small dimension record.metaLen
    (by rw [lenEq]; unfold used at lengthEq; omega)
  have usedEq : (recordHeaderBytes + 4 * dimension + record.metaLen).toNat = record.used := by
    have header : recordHeaderBytes.toNat = 24 := rfl
    have four : (4 : UInt64).toNat = 4 := rfl
    unfold used at lengthEq ⊢
    simp only [UInt64.toNat_add, UInt64.toNat_mul, header, four, lenEq]
    omega
  have paddingEq : record.padding = (record.used + 7) / 8 * 8 - record.used := by
    rw [padding, UInt64.toNat_sub_of_le _ _ (UInt64.le_iff_toNat_le.mpr (by
      rw [usedEq, paddedEq, lenEq]; unfold used; omega)), usedEq, paddedEq, lenEq, used]
  omega

theorem encode_length_padded (record : StoredRecord dimension)
    (small : record.encode.length < 2 ^ 63) :
    record.encode.length = (recordPaddedSize dimension record.metaLen).toNat := by
  have lenEq := metaLen_toNat small
  have lengthEq := record.encode_length_eq
  rw [encode_length small, recordPaddedSize_of_small _ _ (by
    rw [lenEq]; unfold used at lengthEq; omega), lenEq, used]

theorem encode_length_mod (record : StoredRecord dimension)
    (small : record.encode.length < 2 ^ 63) : record.encode.length % 8 = 0 := by
  rw [encode_length small]
  omega

theorem header_le_encode (record : StoredRecord dimension) : 24 ≤ record.encode.length := by
  rw [encode_length_eq, used]
  omega

/-- A frame is its three header words followed by the vector, the metadata
and the padding. -/
theorem encode_eq_header (record : StoredRecord dimension) :
    record.encode =
      LittleEndian.encode 8 record.id.toNat ++ (LittleEndian.encode 8 record.flags.toNat ++
        (LittleEndian.encode 8 record.metaLen.toNat ++ (vectorBytes record.vector ++
          (record.metaBytes ++ List.replicate record.padding 0)))) := by
  simp only [encode, List.append_assoc]

theorem flags_and_one (record : StoredRecord dimension) :
    (record.flags &&& 1 != 0) = record.isDeleted := by
  unfold flags
  cases record.isDeleted <;> decide

theorem canon_metadata_of_nonempty {record : StoredRecord dimension}
    (nonempty : record.metaBytes ≠ []) :
    record.canon.metadata = some (CString.ofBytes record.metaBytes) := by
  simp only [canon, if_neg nonempty]
  cases found : record.metadata with
  | none => simp only [metaBytes, found, Option.map_none, Option.getD_none, ne_eq,
      not_true_eq_false] at nonempty
  | some text =>
      simp only [metaBytes, found, Option.map_some, Option.getD_some, CString.ofBytes_bytes]

end StoredRecord

/-! ### The header words of a frame -/

section Header

variable (before rest : List UInt8) (first second third : UInt64)

theorem u64At_header :
    let file := before ++ (LittleEndian.encode 8 first.toNat ++
      (LittleEndian.encode 8 second.toNat ++ (LittleEndian.encode 8 third.toNat ++ rest)))
    u64At file before.length = first ∧ u64At file (before.length + 8) = second ∧
      u64At file (before.length + 16) = third := by
  intro file
  refine ⟨u64At_append before _ first, ?_, ?_⟩
  · have word := u64At_append (before ++ LittleEndian.encode 8 first.toNat)
      (LittleEndian.encode 8 third.toNat ++ rest) second
    rw [List.append_assoc, List.length_append, LittleEndian.encode_length] at word
    exact word
  · have word := u64At_append (before ++ (LittleEndian.encode 8 first.toNat ++
      LittleEndian.encode 8 second.toNat)) rest third
    rw [List.length_append, List.length_append, LittleEndian.encode_length,
      LittleEndian.encode_length, List.append_assoc, List.append_assoc] at word
    exact word

end Header

variable {dimension : UInt64}

/-- The in-memory record that a decoder makes of a frame at `position`. -/
def StoredRecord.loaded (stored : StoredRecord dimension) (mapping position : Nat)
    (record : Record) : Record :=
  { record with
    id := stored.id
    isDeleted := stored.isDeleted
    vector := .mapped mapping (position + 24)
    metadata := stored.canon.metadata }

theorem u64At_frame (before after : List UInt8) (stored : StoredRecord dimension) :
    u64At (before ++ stored.encode ++ after) before.length = stored.id ∧
      u64At (before ++ stored.encode ++ after) (before.length + 8) = stored.flags ∧
      u64At (before ++ stored.encode ++ after) (before.length + 16) = stored.metaLen := by
  rw [stored.encode_eq_header]
  simp only [List.append_assoc]
  exact u64At_header before _ stored.id stored.flags stored.metaLen

private theorem bytesAt_metadata (before after : List UInt8) (stored : StoredRecord dimension) :
    bytesAt (before ++ stored.encode ++ after) (before.length + 24 + 4 * dimension.toNat)
      stored.metaBytes.length = stored.metaBytes := by
  have split : before ++ stored.encode ++ after =
      (before ++ (LittleEndian.encode 8 stored.id.toNat ++
        (LittleEndian.encode 8 stored.flags.toNat ++
          (LittleEndian.encode 8 stored.metaLen.toNat ++
            StoredRecord.vectorBytes stored.vector)))) ++
      (stored.metaBytes ++ (List.replicate stored.padding 0 ++ after)) := by
    simp only [StoredRecord.encode, List.append_assoc]
  have found := bytesAt_append (before ++ (LittleEndian.encode 8 stored.id.toNat ++
    (LittleEndian.encode 8 stored.flags.toNat ++
      (LittleEndian.encode 8 stored.metaLen.toNat ++
        StoredRecord.vectorBytes stored.vector)))) stored.metaBytes
    (List.replicate stored.padding 0 ++ after)
  rw [← split] at found
  simp only [List.length_append, LittleEndian.encode_length, vectorBytes_length,
    stored.vector_length] at found
  rw [show before.length + 24 + 4 * dimension.toNat =
    before.length + (8 + (8 + (8 + 4 * dimension.toNat))) by omega]
  exact found

theorem floatsAt_frame (before after : List UInt8) (stored : StoredRecord dimension) :
    floatsAt (before ++ stored.encode ++ after) (before.length + 24) dimension.toNat =
      stored.vector := by
  have split : before ++ stored.encode ++ after =
      (before ++ (LittleEndian.encode 8 stored.id.toNat ++
        (LittleEndian.encode 8 stored.flags.toNat ++
          LittleEndian.encode 8 stored.metaLen.toNat))) ++
      (StoredRecord.vectorBytes stored.vector ++
        (stored.metaBytes ++ (List.replicate stored.padding 0 ++ after))) := by
    simp only [StoredRecord.encode, List.append_assoc]
  have found := floatsAt_append (before ++ (LittleEndian.encode 8 stored.id.toNat ++
    (LittleEndian.encode 8 stored.flags.toNat ++
      LittleEndian.encode 8 stored.metaLen.toNat)))
    (stored.metaBytes ++ (List.replicate stored.padding 0 ++ after)) stored.vector
  rw [← split, stored.vector_length] at found
  simp only [List.length_append, LittleEndian.encode_length] at found
  exact found

/-- Both decoders make the same record of a frame they find whole. -/
theorem decodeFields_frame (before after : List UInt8) (stored : StoredRecord dimension)
    (mapping : Nat) (record : Record)
    (small : (before ++ stored.encode ++ after).length < 2 ^ 63) :
    decodeFields (before ++ stored.encode ++ after) mapping before.length dimension record =
      stored.loaded mapping before.length record := by
  obtain ⟨idEq, flagsEq, lenEq⟩ := u64At_frame before after stored
  have frameSmall : stored.encode.length < 2 ^ 63 := by
    simp only [List.length_append] at small
    omega
  have lenNat := StoredRecord.metaLen_toNat frameSmall
  have lengthEq := stored.encode_length_eq
  have metaStart : (UInt64.ofNat before.length + recordHeaderBytes + 4 * dimension).toNat =
      before.length + 24 + 4 * dimension.toNat := by
    have header : recordHeaderBytes.toNat = 24 := rfl
    have four : (4 : UInt64).toNat = 4 := rfl
    simp only [List.length_append] at small
    simp only [UInt64.toNat_add, UInt64.toNat_mul, UInt64.toNat_ofNat', header, four]
    unfold StoredRecord.used at lengthEq
    omega
  have metadataEq : (if 0 < stored.metaLen then
      some (CString.ofBytes (bytesAt (before ++ stored.encode ++ after)
        (UInt64.ofNat before.length + recordHeaderBytes + 4 * dimension).toNat
        stored.metaLen.toNat)) else none) = stored.canon.metadata := by
    rw [metaStart, lenNat, bytesAt_metadata]
    by_cases empty : stored.metaBytes = []
    · have zeroLen : ¬0 < stored.metaLen := by
        rw [UInt64.lt_iff_toNat_lt, lenNat, empty]
        exact Nat.lt_irrefl 0
      simp only [if_neg zeroLen, StoredRecord.canon, if_pos empty]
    · have positive : 0 < stored.metaLen := by
        rw [UInt64.lt_iff_toNat_lt, lenNat]
        exact List.length_pos_iff.mpr empty
      rw [if_pos positive, StoredRecord.canon_metadata_of_nonempty empty]
  simp only [decodeFields, idEq, flagsEq, lenEq, stored.flags_and_one, metadataEq,
    StoredRecord.loaded]

end OriginDb
