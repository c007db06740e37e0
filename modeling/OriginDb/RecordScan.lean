/-
Sequential loading of a data file.

`storage_load_record` is shown to read exactly one frame per call, so that its
repetition over a mapped file is the scan of a framed log.  The laws of the
log then give the result for a file cut at any byte.
-/

import OriginDb.RecordFormat

namespace OriginDb

open Foundation

variable {dimension : UInt64}

/-! ### One call -/

/-- The record `storage_load_record` hands out for a frame at `position`. -/
def StoredRecord.scanned (stored : StoredRecord dimension) (mapping position : Nat) : Record :=
  { stored.loaded mapping position Record.blank with
    byteOffset := UInt64.ofNat position
    isMmap := true }

theorem asLong_of_small {value : UInt64} (small : value.toNat < 2 ^ 63) :
    asLong value = value.toNat := by
  rw [asLong, if_pos small]

/-- The three bounds checks of the decoders pass for a frame inside the file. -/
private theorem boundsChecks_frame (position : Nat) (stored : StoredRecord dimension)
    (fileSize : UInt64)
    (covered : position + stored.encode.length ≤ fileSize.toNat)
    (small : fileSize.toNat < 2 ^ 63) :
    ¬fileSize ≤ UInt64.ofNat position ∧
      ¬fileSize < UInt64.ofNat position + recordHeaderBytes ∧
      ¬fileSize < UInt64.ofNat position + recordPaddedSize dimension stored.metaLen := by
  have header : recordHeaderBytes.toNat = 24 := rfl
  have headerFits := stored.header_le_encode
  have totalEq := stored.encode_length_padded (by omega)
  have positionEq : (UInt64.ofNat position).toNat = position := by
    rw [UInt64.toNat_ofNat']
    omega
  constructor
  · rw [UInt64.le_iff_toNat_le, positionEq]
    omega
  · constructor
    · rw [UInt64.lt_iff_toNat_lt, UInt64.toNat_add, positionEq, header]
      omega
    · rw [UInt64.lt_iff_toNat_lt, UInt64.toNat_add, positionEq, ← totalEq]
      omega

theorem storageLoadRecord_frame (before after : List UInt8) (stored : StoredRecord dimension)
    (storage : Storage) (mapping : Nat)
    (mapped : storage.mmapData = some mapping)
    (cursor : storage.fp = some before.length)
    (covered : before.length + stored.encode.length ≤ storage.fileSize.toNat)
    (small : storage.fileSize.toNat < 2 ^ 63)
    (fileSmall : (before ++ stored.encode ++ after).length < 2 ^ 63) :
    storageLoadRecord (before ++ stored.encode ++ after) storage dimension =
      (.ok (stored.scanned mapping before.length),
        { storage with fp := some (before.length + stored.encode.length) }) := by
  obtain ⟨notPast, headerIn, frameIn⟩ :=
    boundsChecks_frame before.length stored storage.fileSize covered small
  have totalEq := stored.encode_length_padded (by omega)
  have lenEq := (u64At_frame before after stored).2.2
  have target : (before.length : Int) + asLong (recordPaddedSize dimension stored.metaLen) =
      (before.length + stored.encode.length : Nat) := by
    rw [asLong_of_small (by omega), ← totalEq]
    omega
  simp only [storageLoadRecord, mapped, cursor, if_neg notPast, if_neg headerIn, lenEq,
    if_neg frameIn, decodeFields_frame before after stored mapping Record.blank fileSmall,
    target, Storage.seekSet, Int.natCast_nonneg, if_true, Int.toNat_natCast,
    StoredRecord.scanned]

theorem storageLoadRecord_past (dimension : UInt64) (data : List UInt8) (storage : Storage)
    (position : Nat) (cursor : storage.fp = some position) (small : position < 2 ^ 64)
    (past : storage.fileSize.toNat ≤ position) :
    ∃ code ≠ 1, storageLoadRecord data storage dimension = (.error code, storage) := by
  cases mapped : storage.mmapData with
  | none =>
      exact ⟨-1, by decide, by simp only [storageLoadRecord, mapped]⟩
  | some mapping =>
      have beyond : storage.fileSize ≤ UInt64.ofNat position := by
        rw [UInt64.le_iff_toNat_le, UInt64.toNat_ofNat']
        omega
      exact ⟨0, by decide, by simp only [storageLoadRecord, mapped, cursor, if_pos beyond]⟩

/-- A frame of which at least one byte is missing is not decoded. -/
theorem storageLoadRecord_cut (before : List UInt8) (stored : StoredRecord dimension)
    (kept : Nat) (storage : Storage)
    (cursor : storage.fp = some before.length)
    (covers : storage.fileSize.toNat = (before ++ stored.encode.take kept).length)
    (short : kept < stored.encode.length)
    (small : (before ++ stored.encode).length < 2 ^ 63) :
    ∃ code ≠ 1, storageLoadRecord (before ++ stored.encode.take kept) storage dimension =
      (.error code, storage) := by
  have header : recordHeaderBytes.toNat = 24 := rfl
  rw [List.length_append] at small
  have sizeEq : storage.fileSize.toNat = before.length + kept := by
    rw [covers, List.length_append, List.length_take_of_le (Nat.le_of_lt short)]
  have positionEq : (UInt64.ofNat before.length).toNat = before.length := by
    rw [UInt64.toNat_ofNat']
    omega
  by_cases none : kept = 0
  · exact storageLoadRecord_past dimension _ storage before.length cursor (by omega) (by omega)
  cases mapped : storage.mmapData with
  | none => exact ⟨-1, by decide, by simp only [storageLoadRecord, mapped]⟩
  | some mapping =>
      refine ⟨0, by decide, ?_⟩
      have notPast : ¬storage.fileSize ≤ UInt64.ofNat before.length := by
        rw [UInt64.le_iff_toNat_le, positionEq]
        omega
      by_cases headerCut : kept < 24
      · have headerOut : storage.fileSize < UInt64.ofNat before.length + recordHeaderBytes := by
          rw [UInt64.lt_iff_toNat_lt, UInt64.toNat_add, positionEq, header]
          omega
        simp only [storageLoadRecord, mapped, cursor, if_neg notPast, if_pos headerOut]
      · have headerIn : ¬storage.fileSize < UInt64.ofNat before.length + recordHeaderBytes := by
          rw [UInt64.lt_iff_toNat_lt, UInt64.toNat_add, positionEq, header]
          omega
        have totalEq := stored.encode_length_padded (by omega)
        -- The header survives the cut, so the length field is the frame's own.
        have lenEq : u64At (before ++ stored.encode.take kept) (before.length + 16) =
            stored.metaLen := by
          have split : stored.encode.take kept =
              LittleEndian.encode 8 stored.id.toNat ++
                (LittleEndian.encode 8 stored.flags.toNat ++
                  (LittleEndian.encode 8 stored.metaLen.toNat ++
                    (StoredRecord.vectorBytes stored.vector ++
                      (stored.metaBytes ++ List.replicate stored.padding 0)).take
                        (kept - 24))) := by
            rw [stored.encode_eq_header]
            simp only [List.take_append, LittleEndian.encode_length]
            rw [List.take_of_length_le (by rw [LittleEndian.encode_length]; omega),
              List.take_of_length_le (by rw [LittleEndian.encode_length]; omega),
              List.take_of_length_le (by rw [LittleEndian.encode_length]; omega)]
            have first : kept - 8 - 8 - 8 = kept - 24 := by omega
            simp only [first]
          rw [split]
          exact (u64At_header before _ stored.id stored.flags stored.metaLen).2.2
        have frameOut : storage.fileSize <
            UInt64.ofNat before.length + recordPaddedSize dimension stored.metaLen := by
          rw [UInt64.lt_iff_toNat_lt, UInt64.toNat_add, positionEq, ← totalEq]
          omega
        simp only [storageLoadRecord, mapped, cursor, if_neg notPast, if_neg headerIn, lenEq,
          if_pos frameOut]

theorem storageFetchByOffset_frame (before after : List UInt8)
    (stored : StoredRecord dimension) (storage : Storage) (mapping : Nat) (record : Record)
    (mapped : storage.mmapData = some mapping)
    (covered : before.length + stored.encode.length ≤ storage.fileSize.toNat)
    (small : storage.fileSize.toNat < 2 ^ 63)
    (fileSmall : (before ++ stored.encode ++ after).length < 2 ^ 63) :
    storageFetchByOffset (before ++ stored.encode ++ after) storage
        (UInt64.ofNat before.length) record dimension =
      .ok (stored.loaded mapping before.length record) := by
  obtain ⟨notPast, headerIn, frameIn⟩ :=
    boundsChecks_frame before.length stored storage.fileSize covered small
  have lenEq := (u64At_frame before after stored).2.2
  have positionEq : (UInt64.ofNat before.length).toNat = before.length := by
    rw [UInt64.toNat_ofNat']
    omega
  simp only [storageFetchByOffset, mapped, if_neg notPast, if_neg headerIn, positionEq, lenEq,
    if_neg frameIn, decodeFields_frame before after stored mapping record fileSmall]

theorem contents_loaded (before after : List UInt8) (stored : StoredRecord dimension)
    (storage : Storage) (mapping : Nat) (record : Record)
    (mapped : storage.mmapData = some mapping)
    (covered : before.length + stored.encode.length ≤ storage.fileSize.toNat) :
    (stored.loaded mapping before.length record).contents
      (before ++ stored.encode ++ after) storage dimension = some stored.canon := by
  have inRange : before.length + 24 + 4 * dimension.toNat ≤ storage.fileSize.toNat := by
    have lengthEq := stored.encode_length_eq
    unfold StoredRecord.used at lengthEq
    omega
  simp only [StoredRecord.loaded, Record.contents, readVector, mapped, inRange, and_self,
    if_true, Option.map_some, floatsAt_frame before after stored]
  rfl

/-! ### The codec of the record format -/

/-- A handle on the file whose mapping covers it, with the cursor at `position`. -/
def Storage.openAt (data : List UInt8) (position : Nat) : Storage :=
  { storageInit data with fp := some position }

@[simp] theorem openAt_fp (data : List UInt8) (position : Nat) :
    (Storage.openAt data position).fp = some position := rfl

theorem openAt_fileSize {data : List UInt8} (small : data.length < 2 ^ 63) (position : Nat) :
    (Storage.openAt data position).fileSize.toNat = data.length := by
  have sizeEq : (UInt64.ofNat data.length).toNat = data.length := by
    rw [UInt64.toNat_ofNat']
    omega
  simp only [Storage.openAt, storageInit, Storage.mapFile]
  split <;> exact sizeEq

theorem openAt_mmapData {data : List UInt8} (small : data.length < 2 ^ 63)
    (nonempty : 0 < data.length) (position : Nat) :
    (Storage.openAt data position).mmapData = some 0 := by
  have positive : 0 < UInt64.ofNat data.length := by
    rw [UInt64.lt_iff_toNat_lt, UInt64.toNat_ofNat']
    change 0 < data.length % 2 ^ 64
    omega
  simp only [Storage.openAt, storageInit, Storage.mapFile, if_pos positive]

/-- One `storage_load_record` with the cursor at `position`, as a frame reader. -/
def recordRead (dimension : UInt64) (data : List UInt8) (position : Nat) :
    Option (Record × Nat) :=
  match storageLoadRecord data (Storage.openAt data position) dimension with
  | (.ok record, next) => some (record, next.fp.getD 0)
  | (.error _, _) => none

private theorem recordRead_frame (before : List UInt8) (stored : StoredRecord dimension)
    (after : List UInt8) (small : (before ++ stored.encode ++ after).length < 2 ^ 63) :
    recordRead dimension (before ++ stored.encode ++ after) before.length =
      some (stored.scanned 0 before.length, before.length + stored.encode.length) := by
  have headerFits := stored.header_le_encode
  have lengthEq : (before ++ stored.encode ++ after).length =
      before.length + stored.encode.length + after.length := by
    simp only [List.length_append]
  have sizeEq := openAt_fileSize small before.length
  have loaded := storageLoadRecord_frame before after stored
    (Storage.openAt (before ++ stored.encode ++ after) before.length) 0
    (openAt_mmapData small (by omega) _) rfl (by omega) (by omega) small
  simp only [recordRead, loaded, Option.getD_some]

private theorem recordRead_cut (before : List UInt8) (stored : StoredRecord dimension)
    (kept : Nat) (short : kept < stored.encode.length)
    (small : (before ++ stored.encode).length < 2 ^ 63) :
    recordRead dimension (before ++ stored.encode.take kept) before.length = none := by
  have cutSmall : (before ++ stored.encode.take kept).length < 2 ^ 63 := by
    simp only [List.length_append, List.length_take] at small ⊢
    omega
  obtain ⟨code, _, stopped⟩ := storageLoadRecord_cut before stored kept
    (Storage.openAt (before ++ stored.encode.take kept) before.length) rfl
    (openAt_fileSize cutSmall _) short small
  simp only [recordRead, stopped]

private theorem recordRead_end (data : List UInt8) (small : data.length < 2 ^ 63) :
    recordRead dimension data data.length = none := by
  obtain ⟨code, _, stopped⟩ := storageLoadRecord_past dimension data
    (Storage.openAt data data.length) data.length rfl (by omega)
    (Nat.le_of_eq (openAt_fileSize small _))
  simp only [recordRead, stopped]

/-- Frames of a table's data file and the records `storage_load_record` makes
of them. -/
def recordCodec (dimension : UInt64) :
    FramedLog.Codec (StoredRecord dimension) UInt8 Record where
  encode := StoredRecord.encode
  entry := fun position stored => stored.scanned 0 position
  bound := 2 ^ 63
  read := recordRead dimension
  encode_ne_nil := by
    intro stored empty
    have headerFits := stored.header_le_encode
    rw [empty] at headerFits
    exact absurd headerFits (by decide)
  read_frame := recordRead_frame
  read_cut := fun before stored kept => recordRead_cut before stored kept
  read_end := recordRead_end

/-! ### The repetition -/

/-- A call either stops with 0 or -1 and leaves the handle alone, or moves
nothing but the cursor. -/
theorem storageLoadRecord_cases (dimension : UInt64) (data : List UInt8) (storage : Storage) :
    (∃ code ≠ 1, storageLoadRecord data storage dimension = (.error code, storage)) ∨
      ∃ record position, storageLoadRecord data storage dimension =
        (.ok record, { storage with fp := some position }) := by
  unfold storageLoadRecord
  split
  · rename_i mapping currentPos mapped cursor
    dsimp only
    split
    · exact .inl ⟨0, by decide, rfl⟩
    · split
      · exact .inl ⟨0, by decide, rfl⟩
      · split
        · exact .inl ⟨0, by decide, rfl⟩
        · unfold Storage.seekSet
          split
          · exact .inr ⟨_, _, rfl⟩
          · exact .inr ⟨_, currentPos, by rw [← cursor]⟩
  · exact .inl ⟨-1, by decide, rfl⟩

theorem storageLoadRecord_error {data : List UInt8} {storage next : Storage} {code : Int}
    (stopped : storageLoadRecord data storage dimension = (.error code, next)) :
    next = storage := by
  rcases storageLoadRecord_cases dimension data storage with
    ⟨stop, -, same⟩ | ⟨record, position, other⟩
  · rw [same] at stopped
    cases stopped
    rfl
  · rw [other] at stopped
    cases stopped

/-- A repetition that ends either stops at once or goes on behind its first record. -/
theorem loadAll_succ_cases {data : List UInt8} {fuel : Nat} {storage final : Storage}
    {records : List Record} {code : Int}
    (loaded : loadAll data dimension (fuel + 1) storage = some (records, code, final)) :
    (storageLoadRecord data storage dimension = (.error code, final) ∧ records = []) ∨
      ∃ record next rest, storageLoadRecord data storage dimension = (.ok record, next) ∧
        records = record :: rest ∧
          loadAll data dimension fuel next = some (rest, code, final) := by
  rw [loadAll] at loaded
  cases called : storageLoadRecord data storage dimension with
  | mk result next =>
      rw [called] at loaded
      cases result with
      | error stop =>
          cases loaded
          exact Or.inl ⟨rfl, rfl⟩
      | ok record =>
          obtain ⟨⟨rest, stop, last⟩, later, shape⟩ := Option.map_eq_some_iff.mp loaded
          cases shape
          exact Or.inr ⟨record, next, rest, rfl, rfl, later⟩

/-- Repeating `storage_load_record` is the scan of the file as a framed log. -/
theorem loadAll_of_scan (data : List UInt8) (fuel position : Nat) (records : List Record)
    (scanned : (recordCodec dimension).scan data fuel position = some records) :
    ∃ code ≠ 1, ∃ final, loadAll data dimension fuel (Storage.openAt data position) =
      some (records, code, Storage.openAt data final) := by
  induction fuel generalizing position records with
  | zero => cases scanned
  | succ fuel ih =>
      simp only [FramedLog.Codec.scan, recordCodec, recordRead] at scanned
      rcases storageLoadRecord_cases dimension data
        (Storage.openAt data position) with ⟨code, notOne, stopped⟩ | ⟨record, next, loaded⟩
      · rw [stopped] at scanned
        cases Option.some.inj scanned
        exact ⟨code, notOne, position, by simp only [loadAll, stopped]⟩
      · rw [loaded] at scanned
        obtain ⟨later, laterScanned, rfl⟩ := Option.map_eq_some_iff.mp scanned
        obtain ⟨code, notOne, final, repeated⟩ := ih next later laterScanned
        refine ⟨code, notOne, final, ?_⟩
        have nextEq : { Storage.openAt data position with fp := some next } =
            Storage.openAt data next := rfl
        simp only [loadAll, loaded, nextEq, repeated, Option.map_some]

/-! ### Files cut at any byte -/

def paddedSum (stored : List (StoredRecord dimension)) : Nat :=
  (stored.map fun record => (recordPaddedSize dimension record.metaLen).toNat).sum

theorem encodeAll_length_padded {stored : List (StoredRecord dimension)}
    (small : ((recordCodec dimension).encodeAll stored).length < 2 ^ 63) :
    ((recordCodec dimension).encodeAll stored).length = paddedSum stored := by
  rw [FramedLog.Codec.encodeAll_length, paddedSum]
  congr 1
  apply List.map_congr_left
  intro record member
  have frameLe := (recordCodec dimension).size_le_encodeAll member
  exact record.encode_length_padded (Nat.lt_of_le_of_lt frameLe small)

theorem encodeAll_length_mod {stored : List (StoredRecord dimension)}
    (small : ((recordCodec dimension).encodeAll stored).length < 2 ^ 63) :
    ((recordCodec dimension).encodeAll stored).length % 8 = 0 := by
  induction stored with
  | nil => rfl
  | cons record rest ih =>
      simp only [FramedLog.Codec.encodeAll_cons, List.length_append] at small ⊢
      have restMod := ih (by omega)
      have recordMod := record.encode_length_mod (by
        change record.encode.length + _ < _ at small
        omega)
      change (record.encode.length + _) % 8 = 0
      omega

/-- `run` is the longest prefix of `stored` whose padded encodings fit. -/
structure LongestFit (stored run : List (StoredRecord dimension)) (kept : Nat) : Prop where
  isPrefix : run <+: stored
  fits : paddedSum run ≤ kept
  longest : ∀ other, other <+: stored → paddedSum other ≤ kept → other <+: run

/-- `record` is what the file holds for `stored` at the sum of the padded sizes
before it, and fetching at that offset finds the same fields. -/
structure LoadedAt (file : List UInt8) (handle : Storage)
    (before : List (StoredRecord dimension)) (stored : StoredRecord dimension)
    (record : Record) : Prop where
  contents : record.contents file handle dimension = some stored.canon
  offset : record.byteOffset.toNat = paddedSum before
  aligned : record.byteOffset.toNat % 8 = 0
  fetched : ∀ target, ∃ found,
    storageFetchByOffset file handle record.byteOffset target dimension = .ok found ∧
      found.contents file handle dimension = some stored.canon

/-- Loading the first `kept` bytes of the encodings of `stored` returns the
longest prefix of whole records and then stops. -/
def LoadsLongestPrefix (stored : List (StoredRecord dimension)) (kept : Nat) : Prop :=
  let file := (stored.flatMap StoredRecord.encode).take kept
  let handle := Storage.openAt file 0
  ∃ run, LongestFit stored run kept ∧
    ∀ fuel, stored.length < fuel →
      ∃ records code final,
        loadAll file dimension fuel handle = some (records, code, final) ∧ code ≠ 1 ∧
          records.length = run.length ∧
          ∀ index record, run[index]? = some record →
            ∃ loaded, records[index]? = some loaded ∧
              LoadedAt file handle (run.take index) record loaded

theorem longestFit_fitting (stored : List (StoredRecord dimension)) (kept : Nat)
    (small : ((recordCodec dimension).encodeAll stored).length < 2 ^ 63) :
    LongestFit stored ((recordCodec dimension).fitting kept stored) kept := by
  have smallPrefix : ∀ run, run <+: stored →
      ((recordCodec dimension).encodeAll run).length < 2 ^ 63 := fun run isPrefix =>
    Nat.lt_of_le_of_lt ((recordCodec dimension).encodeAll_isPrefix isPrefix).length_le small
  have isPrefix := (recordCodec dimension).fitting_isPrefix kept stored
  constructor
  · exact isPrefix
  · rw [← encodeAll_length_padded (smallPrefix _ isPrefix)]
    exact (recordCodec dimension).fitting_size_le kept stored
  · intro other otherPrefix otherFits
    rw [← encodeAll_length_padded (smallPrefix _ otherPrefix)] at otherFits
    exact (recordCodec dimension).prefix_fitting_of_size_le kept stored other otherPrefix otherFits

/-- A record of the codec at its place in a file is loaded and fetched there. -/
theorem loadedAt_of_split (file after : List UInt8) (before : List (StoredRecord dimension))
    (stored : StoredRecord dimension)
    (split : file = (recordCodec dimension).encodeAll before ++ stored.encode ++ after)
    (small : file.length < 2 ^ 63) :
    LoadedAt file (Storage.openAt file 0) before stored
      (stored.scanned 0 ((recordCodec dimension).encodeAll before).length) := by
  have headerFits := stored.header_le_encode
  have lengthEq := congrArg List.length split
  simp only [List.length_append] at lengthEq
  have beforeSmall : ((recordCodec dimension).encodeAll before).length < 2 ^ 63 := by omega
  have sizeEq := openAt_fileSize small 0
  have mapped := openAt_mmapData small (by omega) 0
  have offsetEq : (UInt64.ofNat ((recordCodec dimension).encodeAll before).length).toNat =
      ((recordCodec dimension).encodeAll before).length := by
    rw [UInt64.toNat_ofNat']
    omega
  have covered : ((recordCodec dimension).encodeAll before).length + stored.encode.length ≤
      (Storage.openAt file 0).fileSize.toNat := by omega
  have fileSmall : ((recordCodec dimension).encodeAll before ++ stored.encode ++
      after).length < 2 ^ 63 := split ▸ small
  constructor
  · have found := contents_loaded _ after stored (Storage.openAt file 0) 0
      { Record.blank with
        byteOffset := UInt64.ofNat ((recordCodec dimension).encodeAll before).length
        isMmap := true } mapped covered
    rw [← split] at found
    exact found
  · exact offsetEq.trans (encodeAll_length_padded beforeSmall)
  · change (UInt64.ofNat _).toNat % 8 = 0
    rw [offsetEq]
    exact encodeAll_length_mod beforeSmall
  · intro target
    have fetched := storageFetchByOffset_frame _ after stored (Storage.openAt file 0) 0 target
      mapped covered (by omega) fileSmall
    have found := contents_loaded _ after stored (Storage.openAt file 0) 0 target mapped covered
    rw [← split] at fetched found
    exact ⟨_, fetched, found⟩

theorem truncated_file_loads_whole_records (dimension : UInt64)
    (stored : List (StoredRecord dimension)) (kept : Nat)
    (small : (stored.flatMap StoredRecord.encode).length < 2 ^ 63)
    (cut : kept ≤ (stored.flatMap StoredRecord.encode).length) :
    LoadsLongestPrefix stored kept := by
  let codec := recordCodec dimension
  let file := (codec.encodeAll stored).take kept
  have fileSmall : file.length < 2 ^ 63 :=
    Nat.lt_of_le_of_lt (List.length_take_le' kept (codec.encodeAll stored)) small
  have fit := longestFit_fitting stored kept small
  refine ⟨codec.fitting kept stored, fit, ?_⟩
  intro fuel enough
  have scanned := codec.scan_take [] stored kept fuel cut small
    (Nat.lt_of_le_of_lt fit.isPrefix.length_le enough)
  obtain ⟨code, notOne, final, loaded⟩ := loadAll_of_scan file fuel 0 _ scanned
  refine ⟨_, code, _, loaded, notOne, codec.entries_length _ _, ?_⟩
  intro index record found
  have entry := codec.entries_getElem? 0 (codec.fitting kept stored) index
  rw [found, Option.map_some, Nat.zero_add] at entry
  refine ⟨_, entry, ?_⟩
  -- The fitting frames are a prefix of the file, so the frame lies in it whole.
  have inFile : codec.encodeAll (codec.fitting kept stored) <+: file := by
    rw [List.prefix_take_iff]
    exact ⟨codec.encodeAll_isPrefix fit.isPrefix, codec.fitting_size_le kept stored⟩
  rcases inFile with ⟨after, fileEq⟩
  rw [codec.encodeAll_split _ index record found, List.append_assoc _ _ after] at fileEq
  exact loadedAt_of_split file _ _ record fileEq.symm fileSmall

/-- Id 7, the vector (1.0) and no metadata, in a table of dimension 1. -/
theorem sampleVector_length : ([1065353216] : List UInt32).length = (1 : UInt64).toNat := rfl

def sampleRecord : StoredRecord 1 where
  id := 7
  vector := [1065353216]
  vector_length := sampleVector_length
  metadata := none
  isDeleted := false

theorem truncated_file_loads_first_record :
    LoadsLongestPrefix [sampleRecord, sampleRecord] 33 :=
  truncated_file_loads_whole_records 1 [sampleRecord, sampleRecord] 33 (by decide) (by decide)

end OriginDb
