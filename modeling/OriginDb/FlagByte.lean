/-
The data file with one byte changed.

A decoder takes a record from the header at its position, the vector and the
metadata behind it, and looks at nothing else.  A byte changed anywhere else
leaves the record as it was; the low byte of its flag word changed to 1 marks
it as deleted and leaves the rest.  A scan whose announced sizes do not wrap
moves strictly forward, so the change reaches at most one of its records.
-/

import OriginDb.Mappings
import OriginDb.SearchAgreement

namespace OriginDb

open Foundation

variable {dimension : UInt64} {data : List UInt8} {place : Nat}

/-! ### Words -/

theorem bytesAt_set (byte : UInt8) {offset count : Nat}
    (outside : place < offset ∨ offset + count ≤ place) :
    bytesAt (data.set place byte) offset count = bytesAt data offset count := by
  unfold bytesAt
  rcases outside with before | behind
  · rw [List.drop_set_of_lt before]
  · rw [List.drop_set, if_neg (by omega), List.take_set_of_le (by omega)]

theorem u64At_set (byte : UInt8) {offset : Nat} (outside : place < offset ∨ offset + 8 ≤ place) :
    u64At (data.set place byte) offset = u64At data offset := by
  rw [u64At, bytesAt_set byte outside, u64At]

theorem floatsAt_set (byte : UInt8) {offset count : Nat}
    (outside : place < offset ∨ offset + 4 * count ≤ place) :
    floatsAt (data.set place byte) offset count = floatsAt data offset count := by
  induction count generalizing offset with
  | zero => rfl
  | succ count ih =>
      have first : u32At (data.set place byte) offset = u32At data offset := by
        rw [u32At, bytesAt_set byte (by omega), u32At]
      rw [floatsAt, first, ih (by omega), floatsAt]

/-- A flag word with 1 in its low byte is set. -/
theorem flagAt_of_bytes {rest : List UInt8} (wordEq : bytesAt data place 8 = 1 :: rest) :
    (u64At data place &&& 1 != 0) = true := by
  have odd : (u64At data place).toNat % 2 = 1 := by
    have one : (1 : UInt8).toNat = 1 := rfl
    rw [u64At, wordEq, UInt64.toNat_ofNat', LittleEndian.decode, one]
    omega
  have bitEq : (u64At data place &&& 1).toNat = 1 := by
    rw [UInt64.toNat_and]
    change _ &&& 1 = 1
    rw [Nat.and_one_is_mod, odd]
  rw [bne_iff_ne]
  intro clear
  rw [clear] at bitEq
  cases bitEq

theorem flagAt_set (inside : place < data.length) :
    (u64At (data.set place 1) place &&& 1 != 0) = true := by
  have here : place < (data.set place (1 : UInt8)).length := by
    rw [List.length_set]
    exact inside
  apply flagAt_of_bytes
  unfold bytesAt
  rw [List.drop_eq_getElem_cons here, List.getElem_set_self, List.take_succ_cons]

theorem flagAt_writeAt (data : List UInt8) (place : Nat) :
    (u64At (writeAt data place [1]) place &&& 1 != 0) = true := by
  have front : (data.take place ++ List.replicate (place - data.length) 0).length = place := by
    rw [List.length_append, List.length_take, List.length_replicate]
    omega
  have dropped : (writeAt data place [1]).drop place = 1 :: data.drop (place + 1) := by
    rw [writeAt, List.append_assoc, List.drop_append_of_le_length (Nat.le_of_eq front.symm),
      List.drop_of_length_le (Nat.le_of_eq front)]
    rfl
  apply flagAt_of_bytes
  unfold bytesAt
  rw [dropped, List.take_succ_cons]

/-! ### Decoded records -/

private theorem metaStart_toNat {position : Nat}
    (fits : recordEnd dimension data position < 2 ^ 64) :
    (UInt64.ofNat position + recordHeaderBytes + 4 * dimension).toNat =
      position + 24 + 4 * dimension.toNat := by
  have header : recordHeaderBytes.toNat = 24 := rfl
  have four : (4 : UInt64).toNat = 4 := rfl
  unfold recordEnd at fits
  simp only [UInt64.toNat_add, UInt64.toNat_mul, UInt64.toNat_ofNat', header, four]
  omega

theorem decodeFields_set (byte : UInt8) (mapping : Nat) {position : Nat} (record : Record)
    (fits : recordEnd dimension data position < 2 ^ 64)
    (outside : place < position ∨ recordEnd dimension data position ≤ place) :
    decodeFields (data.set place byte) mapping position dimension record =
      decodeFields data mapping position dimension record := by
  have lenEq : u64At (data.set place byte) (position + 16) = u64At data (position + 16) :=
    u64At_set byte (by unfold recordEnd at outside; omega)
  have idEq : u64At (data.set place byte) position = u64At data position :=
    u64At_set byte (by unfold recordEnd at outside; omega)
  have flagsEq : u64At (data.set place byte) (position + 8) = u64At data (position + 8) :=
    u64At_set byte (by unfold recordEnd at outside; omega)
  have textEq : bytesAt (data.set place byte) (position + 24 + 4 * dimension.toNat)
      (u64At data (position + 16)).toNat = bytesAt data (position + 24 + 4 * dimension.toNat)
        (u64At data (position + 16)).toNat :=
    bytesAt_set byte (by unfold recordEnd at outside; omega)
  simp only [decodeFields, lenEq, idEq, flagsEq, metaStart_toNat fits, textEq]

theorem decodeFields_setFlag (mapping : Nat) {position : Nat} (record : Record)
    (fits : recordEnd dimension data position < 2 ^ 64) (inside : position + 8 < data.length) :
    decodeFields (data.set (position + 8) 1) mapping position dimension record =
      (decodeFields data mapping position dimension record).setDeleted := by
  have lenEq : u64At (data.set (position + 8) 1) (position + 16) = u64At data (position + 16) :=
    u64At_set 1 (by omega)
  have idEq : u64At (data.set (position + 8) 1) position = u64At data position :=
    u64At_set 1 (by omega)
  have textEq : bytesAt (data.set (position + 8) 1) (position + 24 + 4 * dimension.toNat)
      (u64At data (position + 16)).toNat = bytesAt data (position + 24 + 4 * dimension.toNat)
        (u64At data (position + 16)).toNat :=
    bytesAt_set 1 (by omega)
  simp only [decodeFields, lenEq, idEq, flagAt_set inside, metaStart_toNat fits, textEq,
    Record.setDeleted]

theorem Record.contents_set (byte : UInt8) {storage : Storage} {record : Record}
    {mapping position : Nat} (vectorEq : record.vector = .mapped mapping (position + 24))
    (outside : place < position + 24 ∨ position + 24 + 4 * dimension.toNat ≤ place) :
    record.contents (data.set place byte) storage dimension =
      record.contents data storage dimension := by
  simp only [Record.contents, vectorEq, readVector, floatsAt_set byte outside]

theorem Record.contents_setDeleted (data : List UInt8) (storage : Storage) (record : Record) :
    record.setDeleted.contents data storage dimension =
      (record.contents data storage dimension).map StoredRecord.mark := by
  unfold Record.contents
  rw [Option.map_map]
  rfl

/-! ### Fetching -/

theorem accepts_congr {file : List UInt8} {storage : Storage} {position : UInt64}
    (lenEq : u64At file (position.toNat + 16) = u64At data (position.toNat + 16)) :
    Accepts file storage dimension position ↔ Accepts data storage dimension position := by
  unfold Accepts
  rw [lenEq]

theorem fetchStored_of_accepts {storage : Storage} {mapping : Nat} {byteOffset : UInt64}
    (mapped : storage.mmapData = some mapping)
    (accepts : Accepts data storage dimension byteOffset) :
    fetchStored data storage dimension byteOffset =
      (decodeFields data mapping byteOffset.toNat dimension Record.blank).contents data storage
        dimension := by
  rw [fetchStored, storageFetchByOffset_of_accepts Record.blank mapped accepts]

theorem fetchStored_of_refused {storage : Storage} {byteOffset : UInt64}
    (refused : ¬Accepts data storage dimension byteOffset) :
    fetchStored data storage dimension byteOffset = none := by
  rw [fetchStored, storageFetchByOffset_of_refused Record.blank refused]

theorem fetchStored_set (byte : UInt8) (storage : Storage) {byteOffset : UInt64}
    (fits : recordEnd dimension data byteOffset.toNat < 2 ^ 64)
    (outside : place < byteOffset.toNat ∨ recordEnd dimension data byteOffset.toNat ≤ place) :
    fetchStored (data.set place byte) storage dimension byteOffset =
      fetchStored data storage dimension byteOffset := by
  have lenEq : u64At (data.set place byte) (byteOffset.toNat + 16) =
      u64At data (byteOffset.toNat + 16) :=
    u64At_set byte (by unfold recordEnd at outside; omega)
  by_cases accepts : Accepts data storage dimension byteOffset
  · obtain ⟨mapping, mapped⟩ := Option.ne_none_iff_exists'.mp accepts.1
    rw [fetchStored_of_accepts mapped accepts,
      fetchStored_of_accepts mapped ((accepts_congr lenEq).mpr accepts),
      decodeFields_set byte mapping Record.blank fits outside]
    exact Record.contents_set byte rfl (by unfold recordEnd at outside; omega)
  · rw [fetchStored_of_refused accepts,
      fetchStored_of_refused fun other => accepts ((accepts_congr lenEq).mp other)]

theorem fetchStored_setFlag (storage : Storage) {byteOffset : UInt64}
    (fits : recordEnd dimension data byteOffset.toNat < 2 ^ 64)
    (inside : byteOffset.toNat + 8 < data.length) :
    fetchStored (data.set (byteOffset.toNat + 8) 1) storage dimension byteOffset =
      (fetchStored data storage dimension byteOffset).map StoredRecord.mark := by
  have lenEq : u64At (data.set (byteOffset.toNat + 8) 1) (byteOffset.toNat + 16) =
      u64At data (byteOffset.toNat + 16) := u64At_set 1 (by omega)
  by_cases accepts : Accepts data storage dimension byteOffset
  · obtain ⟨mapping, mapped⟩ := Option.ne_none_iff_exists'.mp accepts.1
    rw [fetchStored_of_accepts mapped accepts,
      fetchStored_of_accepts mapped ((accepts_congr lenEq).mpr accepts),
      decodeFields_setFlag mapping Record.blank fits inside, Record.contents_setDeleted,
      Record.contents_set 1 rfl (Or.inl (by omega))]
  · rw [fetchStored_of_refused accepts,
      fetchStored_of_refused fun other => accepts ((accepts_congr lenEq).mp other),
      Option.map_none]

/-! ### Scanning -/

section Load

variable {storage : Storage} {position : Nat} (cursor : storage.fp = some position)
  (inRange : position < 2 ^ 64)

include cursor inRange

/-- A call whose record keeps its length word stops, or goes on, as before. -/
theorem storageLoadRecord_stopped_set (byte : UInt8) {code : Int} {next : Storage}
    (before : place < position)
    (stopped : storageLoadRecord data storage dimension = (.error code, next)) :
    storageLoadRecord (data.set place byte) storage dimension = (.error code, next) := by
  have positionEq : (UInt64.ofNat position).toNat = position :=
    UInt64.toNat_ofNat_of_lt' inRange
  have lenEq : u64At (data.set place byte) ((UInt64.ofNat position).toNat + 16) =
      u64At data ((UInt64.ofNat position).toNat + 16) := by
    rw [positionEq]
    exact u64At_set byte (Or.inl (by omega))
  by_cases accepts : Accepts data storage dimension (UInt64.ofNat position)
  · obtain ⟨mapping, mapped⟩ := Option.ne_none_iff_exists'.mp accepts.1
    rw [storageLoadRecord_of_accepts mapped cursor inRange accepts] at stopped
    cases stopped
  · rw [storageLoadRecord_of_refused cursor inRange accepts] at stopped
    rw [storageLoadRecord_of_refused cursor inRange
      fun other => accepts ((accepts_congr lenEq).mp other), stopped]

/-- A call that returns 1 makes of the changed file what the decoder makes of it. -/
theorem storageLoadRecord_loaded_set (byte : UInt8) {record : Record} {next : Storage}
    {change : Record → Record}
    (loaded : storageLoadRecord data storage dimension = (.ok record, next))
    (lenEq : u64At (data.set place byte) (position + 16) = u64At data (position + 16))
    (decoded : ∀ mapping, decodeFields (data.set place byte) mapping position dimension
      Record.blank = change (decodeFields data mapping position dimension Record.blank))
    (commutes : ∀ found : Record,
      { change found with byteOffset := UInt64.ofNat position, isMmap := true } =
        change { found with byteOffset := UInt64.ofNat position, isMmap := true }) :
    storageLoadRecord (data.set place byte) storage dimension = (.ok (change record), next) := by
  have positionEq : (UInt64.ofNat position).toNat = position :=
    UInt64.toNat_ofNat_of_lt' inRange
  obtain ⟨accepts, mapping, mapped, rfl, rfl⟩ :=
    storageLoadRecord_loaded cursor inRange loaded
  rw [storageLoadRecord_of_accepts mapped cursor inRange
    ((accepts_congr (by rw [positionEq, lenEq])).mpr accepts), lenEq, decoded, commutes]

end Load

/-- Mark the record at an offset. -/
def markAt (target : UInt64) (record : Record) : Record :=
  if record.byteOffset = target then record.setDeleted else record

section Scan

variable {storage final : Storage} {fuel position : Nat} {records : List Record} {code : Int}

theorem loadAll_offsets (cursor : storage.fp = some position) (inRange : position < 2 ^ 64)
    (small : storage.fileSize.toNat < 2 ^ 63)
    (loaded : loadAll data dimension fuel storage = some (records, code, final))
    (fits : HeaderSizesFit dimension data records) :
    ∀ record ∈ records, position ≤ record.byteOffset.toNat := by
  induction fuel generalizing storage records position with
  | zero => cases loaded
  | succ fuel ih =>
      rcases loadAll_succ_cases loaded with ⟨-, rfl⟩ | ⟨record, next, rest, called, rfl, later⟩
      · intro record member
        cases member
      · obtain ⟨offsetEq, -, after, nextEq, endLe, inside⟩ := storageLoadRecord_moves
          cursor inRange small called (fits record (List.mem_cons_self ..))
        have cursorAfter : next.fp = some after := by rw [nextEq]
        have sameSize : next.fileSize = storage.fileSize := by rw [nextEq]
        have restOffsets := ih cursorAfter (by omega) (sameSize ▸ small) later
          fun other member => fits other (List.mem_cons_of_mem _ member)
        intro other member
        rcases List.mem_cons.mp member with rfl | inRest
        · exact Nat.le_of_eq offsetEq.symm
        · have beyond := restOffsets other inRest
          unfold recordEnd at endLe
          omega

/-- One call on a file in which the flag of the record at `target` has been set, where
that record is the one loaded, or has been passed, or is not reached. -/
theorem storageLoadRecord_setFlag {target : UInt64} {record : Record} {next : Storage}
    (cursor : storage.fp = some position) (inRange : position < 2 ^ 64)
    (small : storage.fileSize.toNat < 2 ^ 63) (inside : target.toNat + 8 < data.length)
    (loaded : storageLoadRecord data storage dimension = (.ok record, next))
    (fits : recordEnd dimension data record.byteOffset.toNat + 7 < 2 ^ 64)
    (apart : record.byteOffset = target ∨ target.toNat + 24 ≤ position ∨
      recordEnd dimension data position ≤ target.toNat) :
    storageLoadRecord (data.set (target.toNat + 8) 1) storage dimension =
        (.ok (markAt target record), next) ∧
      ∀ handle, (markAt target record).contents (data.set (target.toNat + 8) 1) handle dimension =
        (record.contents data handle dimension).map fun stored =>
          if record.byteOffset = target then stored.mark else stored := by
  obtain ⟨offsetEq, ⟨mapping, -, vectorEq⟩, -⟩ :=
    storageLoadRecord_moves cursor inRange small loaded fits
  have fitsHere : recordEnd dimension data position < 2 ^ 64 := by
    rw [offsetEq] at fits
    omega
  by_cases here : record.byteOffset = target
  · simp only [markAt, if_pos here]
    rw [here] at offsetEq
    subst offsetEq
    constructor
    · exact storageLoadRecord_loaded_set cursor inRange 1 loaded (u64At_set 1 (by omega))
        (fun mapping => decodeFields_setFlag mapping Record.blank fitsHere inside)
        (fun found => rfl)
    · intro handle
      rw [Record.contents_setDeleted, Record.contents_set 1 vectorEq (Or.inl (by omega))]
  · have outside : target.toNat + 8 < position ∨
        recordEnd dimension data position ≤ target.toNat + 8 := by
      rcases apart with same | passed | ahead
      · exact absurd same here
      · exact Or.inl (by omega)
      · exact Or.inr (by omega)
    have unchanged : storageLoadRecord (data.set (target.toNat + 8) 1) storage dimension =
        (.ok (id record), next) :=
      storageLoadRecord_loaded_set cursor inRange 1 loaded
        (u64At_set 1 (by unfold recordEnd at outside; omega))
        (fun mapping => decodeFields_set 1 mapping Record.blank fitsHere outside)
        (fun found => rfl)
    simp only [markAt, if_neg here, Option.map_id_fun', id_eq]
    constructor
    · exact unchanged
    · intro handle
      exact Record.contents_set 1 vectorEq (by unfold recordEnd at outside; omega)

/-- Setting the low byte of a flag word marks the record of the scan that has it,
if the scan gets there, and changes no other. -/
theorem loadAll_setFlag {target : UInt64} (cursor : storage.fp = some position)
    (inRange : position < 2 ^ 64) (small : storage.fileSize.toNat < 2 ^ 63)
    (inside : target.toNat + 8 < data.length)
    (loaded : loadAll data dimension fuel storage = some (records, code, final))
    (fits : HeaderSizesFit dimension data records)
    (ahead : target.toNat + 24 ≤ position ∨ ∃ record ∈ records, record.byteOffset = target) :
    loadAll (data.set (target.toNat + 8) 1) dimension fuel storage =
        some (records.map (markAt target), code, final) ∧
      ∀ record ∈ records, ∀ handle,
        (markAt target record).contents (data.set (target.toNat + 8) 1) handle dimension =
          (record.contents data handle dimension).map fun stored =>
            if record.byteOffset = target then stored.mark else stored := by
  induction fuel generalizing storage records position with
  | zero => cases loaded
  | succ fuel ih =>
      rcases loadAll_succ_cases loaded with
        ⟨stopped, rfl⟩ | ⟨record, next, rest, called, rfl, later⟩
      · have passed : target.toNat + 24 ≤ position := by
          rcases ahead with passed | ⟨record, member, -⟩
          · exact passed
          · cases member
        constructor
        · rw [loadAll, storageLoadRecord_stopped_set cursor inRange 1 (by omega) stopped]
          rfl
        · intro record member
          cases member
      · have recordFits := fits record (List.mem_cons_self ..)
        have restFits : HeaderSizesFit dimension data rest :=
          fun other member => fits other (List.mem_cons_of_mem _ member)
        obtain ⟨offsetEq, -, after, nextEq, endLe, within⟩ :=
          storageLoadRecord_moves cursor inRange small called recordFits
        have cursorAfter : next.fp = some after := by rw [nextEq]
        have nextSmall : next.fileSize.toNat < 2 ^ 63 := by
          rw [nextEq]
          exact small
        have restOffsets := loadAll_offsets cursorAfter (by omega) nextSmall later restFits
        -- The record with the flag is this one, behind the cursor, or still to come.
        have apart : record.byteOffset = target ∨ target.toNat + 24 ≤ position ∨
            recordEnd dimension data position ≤ target.toNat := by
          rcases ahead with passed | ⟨other, member, otherEq⟩
          · exact Or.inr (Or.inl passed)
          · rcases List.mem_cons.mp member with rfl | inRest
            · exact Or.inl otherEq
            · have further := restOffsets other inRest
              rw [otherEq] at further
              exact Or.inr (Or.inr (Nat.le_trans endLe further))
        have aheadRest : target.toNat + 24 ≤ after ∨
            ∃ other ∈ rest, other.byteOffset = target := by
          unfold recordEnd at endLe
          rcases ahead with passed | ⟨other, member, otherEq⟩
          · exact Or.inl (by omega)
          · rcases List.mem_cons.mp member with rfl | inRest
            · rw [otherEq] at offsetEq
              exact Or.inl (by omega)
            · exact Or.inr ⟨other, inRest, otherEq⟩
        obtain ⟨headLoaded, headContents⟩ := storageLoadRecord_setFlag cursor inRange small
          inside called recordFits apart
        obtain ⟨restLoaded, restContents⟩ := ih cursorAfter (by omega) nextSmall later
          restFits aheadRest
        constructor
        · rw [loadAll, headLoaded]
          dsimp only
          rw [restLoaded]
          rfl
        · intro other member
          rcases List.mem_cons.mp member with rfl | inRest
          · exact headContents
          · exact restContents other inRest

end Scan

end OriginDb
