/-
What `storage_compact` leaves, when it succeeds and when it fails.

The copy loop is an encoder of its own.  It writes what `storage_write_record`
would write for the live records, and the offsets that it keeps beside the
filtered stream are the places of the records in the new file.
-/

import OriginDb.ExactSearch

namespace OriginDb

open Foundation

variable {dimension : UInt64}

/-! ### The new file -/

/-- `storage_write_record` for one record after the other. -/
def storageWriteAll : List (StoredRecord dimension) → List UInt8 → Storage →
    Option (List UInt8 × Storage)
  | [], data, storage => some (data, storage)
  | stored :: rest, data, storage =>
      match storageWriteRecord .ok data storage (stored.onHeap 0) dimension with
      | none => none
      | some (code, file, next) => if code = 0 then storageWriteAll rest file next else none

theorem storageWriteAll_eq (stored : List (StoredRecord dimension)) (data : List UInt8)
    {storage : Storage} {position : Nat} (stream : storage.fp = some position) :
    ∃ next, storageWriteAll stored data storage =
      some (data ++ (recordCodec dimension).encodeAll stored, next) := by
  induction stored generalizing data storage position with
  | nil => exact ⟨storage, by rw [FramedLog.Codec.encodeAll_nil, List.append_nil]; rfl⟩
  | cons first rest ih =>
      have written := storageWriteRecord_onHeap .ok data storage first 0 position stream
      obtain ⟨next, restWritten⟩ := ih (data ++ first.encode) (rfl : ({ storage with
        fp := some (data ++ first.encode).length } : Storage).fp = _)
      refine ⟨next, ?_⟩
      rw [storageWriteAll, written]
      dsimp only
      rw [if_pos rfl, restWritten, FramedLog.Codec.encodeAll_cons, ← List.append_assoc]
      rfl

/-- A record of the new array: its fields, its place, and what is fetched there. -/
structure CompactedAt (file : List UInt8) (handle : Storage)
    (before : List (StoredRecord dimension)) (stored : StoredRecord dimension)
    (record : Record) : Prop where
  id : record.id = stored.id
  metadata : record.metadata = stored.metadata
  isDeleted : record.isDeleted = stored.isDeleted
  offset : record.byteOffset.toNat = paddedSum before
  fetched : ∀ target, ∃ found,
    storageFetchByOffset file handle record.byteOffset target dimension = .ok found ∧
      found.contents file handle dimension = some stored.canon

/-- The new array lists the live records in order. -/
structure CompactedTo (file : List UInt8) (handle : Storage)
    (stored : List (StoredRecord dimension)) (records : List Record) : Prop where
  count : records.length = stored.length
  placed : ∀ index record, stored[index]? = some record →
    ∃ next, records[index]? = some next ∧
      CompactedAt file handle (stored.take index) record next

theorem compactedAt_of_placed {stored : List (StoredRecord dimension)} {storage : Storage}
    (small : ((recordCodec dimension).encodeAll stored).length < 2 ^ 63) {index : Nat}
    {record : StoredRecord dimension} (found : stored[index]? = some record) {next : Record}
    (placed : Placed ((recordCodec dimension).encodeAll (stored.take index)).length record next) :
    CompactedAt ((recordCodec dimension).encodeAll stored)
      (swappedStorage storage ((recordCodec dimension).encodeAll stored)) (stored.take index)
      record next := by
  have split := (recordCodec dimension).encodeAll_split stored index record found
  generalize (recordCodec dimension).encodeAll stored = file at split small ⊢
  generalize (recordCodec dimension).encodeAll (stored.drop (index + 1)) = after at split
  change file = _ ++ record.encode ++ after at split
  have beforeEq := placed.byteOffset
  have paddedEq := @encodeAll_length_padded dimension (stored.take index)
  generalize (recordCodec dimension).encodeAll (stored.take index) = before
    at split beforeEq paddedEq
  have header := record.header_le_encode
  have lengthEq := congrArg List.length split
  rw [List.length_append, List.length_append] at lengthEq
  have sizeEq := swappedStorage_fileSize storage small
  have mapped := swappedStorage_mmapData storage small (by omega)
  have covered : before.length + record.encode.length ≤
      (swappedStorage storage file).fileSize.toNat := by
    rw [sizeEq]
    omega
  have offsetEq : UInt64.ofNat before.length = next.byteOffset := by
    rw [← beforeEq, UInt64.ofNat_toNat]
  refine ⟨placed.id, placed.metadata, placed.isDeleted, beforeEq.trans (paddedEq (by omega)), ?_⟩
  intro target
  have fetched := storageFetchByOffset_frame before after record (swappedStorage storage file) _
    target mapped covered (sizeEq ▸ small) (split ▸ small)
  have loaded := contents_loaded before after record (swappedStorage storage file) _ target mapped
    covered
  rw [← split, offsetEq] at fetched
  rw [← split] at loaded
  exact ⟨_, fetched, loaded⟩

/-- The values of the records that compaction keeps. -/
def liveRecords (data : List UInt8) (storage : Storage) (dimension : UInt64)
    (records : List Record) : List (StoredRecord dimension) :=
  (records.filter fun record => !record.isDeleted).map (Record.followed data storage dimension)

theorem liveOf_followed (data : List UInt8) (storage : Storage) (dimension : UInt64)
    (records : List Record) :
    liveOf (records.map (Record.followed data storage dimension)) =
      liveRecords data storage dimension records := by
  unfold liveOf liveRecords
  rw [List.filter_map]
  rfl

theorem copyable_followed {data : List UInt8} {storage : Storage} {records : List Record}
    (readable : ∀ record ∈ records, record.isDeleted = false →
      (readVector data storage dimension record.vector).isSome = true) :
    List.Forall₂ (Copyable data storage) records
      (records.map (Record.followed data storage dimension)) := by
  rw [List.forall₂_map_right_iff, List.forall₂_same]
  intro record member
  refine ⟨rfl, ?_⟩
  intro live
  obtain ⟨vector, vectorEq⟩ := Option.isSome_iff_exists.mp (readable record member live)
  simp only [Record.contents, Record.followed, vectorEq, Option.map_some, Option.getD_some]

/-- Compaction rewrites the file exactly; the records it leaves are fetched at
their new offsets, with empty metadata read as none. -/
theorem compaction_rewrites_exactly (dimension : UInt64) {data : List UInt8} {storage : Storage}
    {records : List Record}
    (readable : ∀ record ∈ records, record.isDeleted = false →
      (readVector data storage dimension record.vector).isSome = true)
    (small : ((liveRecords data storage dimension records).flatMap
      StoredRecord.encode).length < 2 ^ 63) :
    let live := liveRecords data storage dimension records
    ∃ file handle compacted,
      storageCompact .ok data storage records dimension = some (0, file, handle, compacted) ∧
        (∃ writer, storageWriteAll live [] (storageInit []) = some (file, writer)) ∧
          file = live.flatMap StoredRecord.encode ∧ CompactedTo file handle live compacted := by
  intro live
  have liveEq : liveOf (records.map (Record.followed data storage dimension)) = live :=
    liveOf_followed data storage dimension records
  obtain ⟨kept, copied, rows⟩ := compactCopy_eq (copyable_followed readable) []
    (by rw [liveEq]; exact small)
  rw [liveEq, List.nil_append] at copied
  rw [liveEq] at rows
  let file := (recordCodec dimension).encodeAll live
  let handle := swappedStorage storage file
  have compactedRows : (recordCodec dimension).Tracks Placed 0 live
      (kept.map (compactRebase handle)) :=
    FramedLog.Codec.tracks_map_iff.mpr
      (rows.imp fun position record keptRow row => compactRebase_placed handle row)
  refine ⟨file, handle, kept.map (compactRebase handle), ?_, ?_, rfl, ?_, ?_⟩
  · rw [storageCompact, copied]
    rfl
  · exact storageWriteAll_eq live [] (storageInit_fp [])
  · exact compactedRows.length_eq
  · intro index record found
    obtain ⟨next, nextFound, placed⟩ := compactedRows.getElem? found
    rw [Nat.zero_add] at placed
    exact ⟨next, nextFound, compactedAt_of_placed small found placed⟩

/-! ### Empty metadata -/

def emptyText : CString := ⟨[], List.not_mem_nil⟩

def namelessRecord : StoredRecord 1 := { sampleRecord with metadata := some emptyText }

/-- A deleted record and one with empty metadata, compacted. -/
theorem compaction_drops_deleted :
    let records := [sampleRecord.mark.onHeap 0, namelessRecord.onHeap 32]
    ∃ file handle compacted,
      storageCompact .ok [] (storageInit []) records 1 = some (0, file, handle, compacted) ∧
        (∃ writer, storageWriteAll [namelessRecord] [] (storageInit []) = some (file, writer)) ∧
          file = namelessRecord.encode ∧ CompactedTo file handle [namelessRecord] compacted := by
  intro records
  have readable : ∀ record ∈ records, record.isDeleted = false →
      (readVector [] (storageInit []) 1 record.vector).isSome = true := by
    intro record member live
    rcases List.mem_cons.mp member with rfl | second
    · rfl
    · rw [List.mem_singleton.mp second]
      rfl
  exact compaction_rewrites_exactly 1 readable (by decide)

/-- Metadata that is an empty string is not fetched from the new file. -/
theorem compaction_loses_empty_metadata :
    let answer := storageCompact .ok [] (storageInit []) [namelessRecord.onHeap 0] 1
    answer.map (fun answer =>
        (answer.1, answer.2.2.2.map fun record => (record.byteOffset, record.metadata))) =
      some (0, [(0, some emptyText)]) ∧
    answer.map (fun answer => (storageFetchByOffset answer.2.1 answer.2.2.1 0 Record.blank 1).map
        Record.metadata) = some (.ok none) := by
  decide

/-! ### Calls on a table -/

inductive TableOp where
  | insert (io : WriteIO) (id : UInt32) (vector : List UInt32) (metadata : Option CString)
  | delete (io : DeleteIO) (id : UInt64)
  | fetch (byteOffset : UInt64)

/-- What a call returns, with the fields of the record that a fetch fills. -/
structure Reply where
  code : Int
  id : UInt64
  isDeleted : Bool
  metadata : Option CString
  vector : Option (List UInt32)
deriving DecidableEq

def Reply.ofCode (code : Int) : Reply :=
  { code := code
    id := 0
    isDeleted := false
    metadata := none
    vector := none }

def fetchReply (data : List UInt8) (db : FlatDb) (byteOffset : UInt64) : Reply :=
  match storageFetchByOffset data db.storage byteOffset Record.blank db.dimension with
  | .error code => Reply.ofCode code
  | .ok record =>
      { code := 1
        id := record.id
        isDeleted := record.isDeleted
        metadata := record.metadata
        vector := (readVector data db.storage db.dimension record.vector).map Subtype.val }

def tableOp (data : List UInt8) (db : FlatDb) : TableOp → Option (Reply × List UInt8 × FlatDb)
  | .insert io id vector metadata =>
      (dbInsert io data db id vector metadata).map fun (code, file, next) =>
        (Reply.ofCode code, file, next)
  | .delete io id =>
      let (code, file, next) := dbDelete io data db id
      some (Reply.ofCode code, file, next)
  | .fetch byteOffset => some (fetchReply data db byteOffset, data, db)

/-- The replies of a run of calls, and the file and the records after it. -/
def tableOps : List TableOp → List UInt8 → FlatDb →
    Option (List Reply × List UInt8 × List Record)
  | [], data, db => some ([], data, db.records)
  | op :: rest, data, db =>
      match tableOp data db op with
      | none => none
      | some (reply, file, next) =>
          (tableOps rest file next).map fun (replies, last, records) =>
            (reply :: replies, last, records)

/-- Two open handles that map the same part of the file, perhaps at different
places. -/
structure SameMapped (first second : Storage) : Prop where
  firstOpen : first.fp ≠ none
  secondOpen : second.fp ≠ none
  fileSize : second.fileSize = first.fileSize
  mapped : second.mmapData = none ↔ first.mmapData = none

theorem SameMapped.seek {first second : Storage} (same : SameMapped first second)
    (position : Nat) :
    SameMapped { first with fp := some position } { second with fp := some position } where
  firstOpen := Option.some_ne_none position
  secondOpen := Option.some_ne_none position
  fileSize := same.fileSize
  mapped := same.mapped

/-- The same call on the same table through either handle. -/
def OpAgrees (data : List UInt8) (db : FlatDb) (handle : Storage) (op : TableOp) : Prop :=
  tableOp data db op = none ∧ tableOp data { db with storage := handle } op = none ∨
    ∃ reply file next nextHandle,
      tableOp data db op = some (reply, file, next) ∧
        tableOp data { db with storage := handle } op =
          some (reply, file, { next with storage := nextHandle }) ∧
        SameMapped next.storage nextHandle

theorem fetch_sameMapped {data : List UInt8} {db : FlatDb} {handle : Storage}
    (same : SameMapped db.storage handle) (byteOffset : UInt64) :
    OpAgrees data db handle (.fetch byteOffset) := by
  refine Or.inr ⟨_, _, _, handle, rfl, ?_, same⟩
  have replyEq : fetchReply data { db with storage := handle } byteOffset =
      fetchReply data db byteOffset := by
    unfold fetchReply storageFetchByOffset
    dsimp only
    rw [same.fileSize]
    cases first : db.storage.mmapData with
    | none =>
        rw [same.mapped.mpr first]
    | some mapping =>
        obtain ⟨other, second⟩ : ∃ other, handle.mmapData = some other := by
          apply Option.ne_none_iff_exists'.mp
          intro unmapped
          rw [same.mapped.mp unmapped] at first
          cases first
        rw [second]
        dsimp only
        by_cases past : db.storage.fileSize ≤ byteOffset
        · rw [if_pos past, if_pos past]
        · rw [if_neg past, if_neg past]
          by_cases headerOut : db.storage.fileSize < byteOffset + recordHeaderBytes
          · rw [if_pos headerOut, if_pos headerOut]
          · rw [if_neg headerOut, if_neg headerOut]
            by_cases frameOut : db.storage.fileSize < byteOffset +
                recordPaddedSize db.dimension (u64At data (byteOffset.toNat + 16))
            · rw [if_pos frameOut, if_pos frameOut]
            · rw [if_neg frameOut, if_neg frameOut]
              simp only [decodeFields, readVector, first, second, same.fileSize, true_and]
  rw [tableOp, replyEq]

theorem dbDelete_sameMapped {data : List UInt8} {db : FlatDb} {handle : Storage}
    (same : SameMapped db.storage handle) (io : DeleteIO) (id : UInt64) :
    ∃ code file next nextHandle, dbDelete io data db id = (code, file, next) ∧
      dbDelete io data { db with storage := handle } id =
          (code, file, { next with storage := nextHandle }) ∧
        SameMapped next.storage nextHandle := by
  unfold dbDelete
  simp only [if_neg same.firstOpen, if_neg same.secondOpen]
  cases db.records.findIdx? (isDeleteTarget id) with
  | none => exact ⟨_, _, _, handle, rfl, rfl, same⟩
  | some index =>
      dsimp only
      by_cases fails : asLong (((db.records[index]?).getD Record.blank).byteOffset + 8) < 0 ∨
          io = .seekFailed
      · rw [if_pos fails, if_pos fails]
        exact ⟨_, _, _, handle, rfl, rfl, same⟩
      · have notNegative :
            0 ≤ asLong (((db.records[index]?).getD Record.blank).byteOffset + 8) :=
          Int.not_lt.mp fun negative => fails (Or.inl negative)
        unfold Storage.seekSet
        rw [if_neg fails, if_neg fails, if_pos notNegative, if_pos notNegative]
        cases io with
        | ok => exact ⟨_, _, _, _, rfl, rfl, same.seek _⟩
        | seekFailed => exact ⟨_, _, _, _, rfl, rfl, same.seek _⟩
        | patchFailed => exact ⟨_, _, _, _, rfl, rfl, same.seek _⟩
        | writeBackLost => exact ⟨_, _, _, _, rfl, rfl, same.seek _⟩

theorem growForInsert_withStorage (db : FlatDb) (handle : Storage) :
    growForInsert { db with storage := handle } =
      ({ (growForInsert db).1 with storage := handle }, (growForInsert db).2) := by
  unfold growForInsert
  dsimp only
  split
  · split <;> rfl
  · rfl

/-- An insert uses the handle for its stream only. -/
theorem dbInsert_anyHandle (io : WriteIO) (data : List UInt8) (db : FlatDb) (id : UInt32)
    (vector : List UInt32) (metadata : Option CString) :
    (∀ handle : Storage, handle.fp ≠ none →
      dbInsert io data { db with storage := handle } id vector metadata = none) ∨
    (∀ handle : Storage, handle.fp ≠ none →
      dbInsert io data { db with storage := handle } id vector metadata =
        some (-1, data, { (growForInsert db).1 with storage := handle })) ∨
    ∃ code file added, ∀ handle : Storage, handle.fp ≠ none →
      dbInsert io data { db with storage := handle } id vector metadata =
        some (code, file,
          { (growForInsert db).1 with
            records := (growForInsert db).1.records ++ added
            storage := { handle with fp := some file.length } }) := by
  cases grew : (growForInsert db).2 with
  | false =>
      refine Or.inr (Or.inl ?_)
      intro handle stream
      simp only [dbInsert, growForInsert_withStorage, grew]
  | true =>
      by_cases room : hasRoom (growForInsert db).1.recordsBytes
          ((growForInsert db).1.records.length + 1) = true ∧ db.dimension.toNat ≤ vector.length
      · refine Or.inr (Or.inr ?_)
        have lengthEq : (vector.take db.dimension.toNat).length = db.dimension.toNat :=
          List.length_take_of_le room.2
        let stored : StoredRecord db.dimension :=
          insertedRecord id.toUInt64 (vector.take db.dimension.toNat) lengthEq metadata
        have recordEq :
            ({ id := id.toUInt64, vector := .heap (vector.take db.dimension.toNat),
                metadata := metadata, isDeleted := false, byteOffset := UInt64.ofNat data.length,
                isMmap := false } : Record) = stored.onHeap data.length := rfl
        cases io with
        | ok =>
            refine ⟨0, data ++ stored.encode, [stored.onHeap data.length], ?_⟩
            intro handle stream
            obtain ⟨position, streamEq⟩ := Option.ne_none_iff_exists'.mp stream
            have written := storageWriteRecord_onHeap .ok data
              { handle with fp := some data.length } stored data.length data.length rfl
            simp only [dbInsert, growForInsert_withStorage, grew, if_pos room,
              storageCurrentOffset, streamEq]
            rw [recordEq, written]
            rfl
        | failed appended =>
            refine ⟨-1, data ++ stored.encode.take appended, [], ?_⟩
            intro handle stream
            obtain ⟨position, streamEq⟩ := Option.ne_none_iff_exists'.mp stream
            have written := storageWriteRecord_onHeap (.failed appended) data
              { handle with fp := some data.length } stored data.length data.length rfl
            simp only [dbInsert, growForInsert_withStorage, grew, if_pos room,
              storageCurrentOffset, streamEq]
            rw [recordEq, written, List.append_nil]
            rfl
      · refine Or.inl ?_
        intro handle stream
        simp only [dbInsert, growForInsert_withStorage, grew, if_neg room]

theorem insert_sameMapped {data : List UInt8} {db : FlatDb} {handle : Storage}
    (same : SameMapped db.storage handle) (io : WriteIO) (id : UInt32) (vector : List UInt32)
    (metadata : Option CString) : OpAgrees data db handle (.insert io id vector metadata) := by
  unfold OpAgrees tableOp
  dsimp only
  rcases dbInsert_anyHandle io data db id vector metadata with none | refused | added
  · exact Or.inl ⟨congrArg _ (none db.storage same.firstOpen),
      congrArg _ (none handle same.secondOpen)⟩
  · have first := refused db.storage same.firstOpen
    have second := refused handle same.secondOpen
    exact Or.inr ⟨_, _, _, handle, congrArg _ first, congrArg _ second, same⟩
  · obtain ⟨code, file, added, called⟩ := added
    have first := called db.storage same.firstOpen
    have second := called handle same.secondOpen
    exact Or.inr ⟨_, _, _, _, congrArg _ first, congrArg _ second, same.seek _⟩

theorem tableOp_sameMapped {data : List UInt8} {db : FlatDb} {handle : Storage}
    (same : SameMapped db.storage handle) (op : TableOp) : OpAgrees data db handle op := by
  cases op with
  | insert io id vector metadata => exact insert_sameMapped same io id vector metadata
  | delete io id =>
      obtain ⟨code, file, next, nextHandle, first, second, nextSame⟩ :=
        @dbDelete_sameMapped data db handle same io id
      refine Or.inr ⟨Reply.ofCode code, file, next, nextHandle, ?_, ?_, nextSame⟩
      · rw [tableOp, first]
      · rw [tableOp, second]
  | fetch byteOffset => exact fetch_sameMapped same byteOffset

/-- A run of calls cannot tell the handles apart. -/
theorem tableOps_sameMapped {data : List UInt8} {db : FlatDb} {handle : Storage}
    (same : SameMapped db.storage handle) (ops : List TableOp) :
    tableOps ops data { db with storage := handle } = tableOps ops data db := by
  induction ops generalizing data db handle with
  | nil => rfl
  | cons op rest ih =>
      rcases @tableOp_sameMapped data db handle same op with ⟨first, second⟩ | agrees
      · simp only [tableOps, first, second]
      · obtain ⟨reply, file, next, nextHandle, first, second, nextSame⟩ := agrees
        simp only [tableOps, first, second, ih nextSame]

/-! ### A failed compaction -/

/-- The handle of an open table: a stream, and a mapping unless the file was empty. -/
structure OpenHandle (storage : Storage) : Prop where
  stream : storage.fp ≠ none
  mapped : storage.mmapData = none ↔ storage.fileSize = 0

/-- The file and the record array are unchanged, every offset still addresses its
record, and later calls behave as they would have before. -/
structure AsItWas (data : List UInt8) (db : FlatDb) (file : List UInt8) (next : FlatDb) :
    Prop where
  sameFile : file = data
  sameRecords : next.records = db.records
  addressed : ∀ record ∈ next.records, ∀ stored : StoredRecord db.dimension,
    stored.encode <+: data.drop record.byteOffset.toNat →
    stored.encode <+: file.drop record.byteOffset.toNat
  stream : next.storage.fp ≠ none
  later : ∀ ops, tableOps ops file next = tableOps ops data db

theorem asItWas_of_sameMapped {data : List UInt8} {db : FlatDb} {handle : Storage}
    (same : SameMapped db.storage handle) :
    AsItWas data db data { db with storage := handle } where
  sameFile := rfl
  sameRecords := rfl
  addressed := fun _ _ _ frame => frame
  stream := same.secondOpen
  later := tableOps_sameMapped same

theorem OpenHandle.reopened {storage : Storage} (opened : OpenHandle storage) :
    SameMapped storage
      (Storage.mapFile { storage with fp := some 0, mmapData := none } storage.fileSize) := by
  by_cases empty : storage.fileSize = 0
  · have notMapped : ¬0 < storage.fileSize := by
      rw [empty]
      decide
    rw [Storage.mapFile, if_neg notMapped]
    exact ⟨opened.stream, Option.some_ne_none 0, rfl,
      iff_of_true rfl (opened.mapped.mpr empty)⟩
  · have isMapped : 0 < storage.fileSize := by
      rw [UInt64.lt_iff_toNat_lt]
      exact Nat.pos_of_ne_zero fun zero => empty (UInt64.toNat_inj.mp zero)
    rw [Storage.mapFile, if_pos isMapped]
    refine ⟨opened.stream, Option.some_ne_none 0, rfl, iff_of_false ?_ ?_⟩
    · exact Option.some_ne_none _
    · exact fun unmapped => empty (opened.mapped.mp unmapped)

/-- Which failures of `db_compact` leave the table as it was. -/
theorem failed_compaction_iff {io : CompactIO} {data file : List UInt8} {db next : FlatDb}
    (opened : OpenHandle db.storage) (failed : dbCompact io data db = some (-1, file, next)) :
    AsItWas data db file next ↔ io = .writeFailed ∨ io = .renameFailed true := by
  obtain ⟨answer, compacted, answerEq⟩ := Option.map_eq_some_iff.mp failed
  cases io with
  | ok =>
      obtain ⟨copied, -, rfl⟩ := Option.map_eq_some_iff.mp compacted
      cases answerEq
  | writeFailed =>
      cases compacted
      cases answerEq
      have same : SameMapped db.storage db.storage := ⟨opened.stream, opened.stream, rfl, Iff.rfl⟩
      exact iff_of_true (asItWas_of_sameMapped same) (Or.inl rfl)
  | renameFailed reopened =>
      obtain ⟨copied, -, rfl⟩ := Option.map_eq_some_iff.mp compacted
      cases answerEq
      cases reopened with
      | true => exact iff_of_true (asItWas_of_sameMapped opened.reopened) (Or.inr rfl)
      | false =>
          refine iff_of_false (fun asItWas => asItWas.stream rfl) ?_
          rintro (write | rename)
          · cases write
          · cases rename
  | reopenFailed =>
      obtain ⟨copied, -, rfl⟩ := Option.map_eq_some_iff.mp compacted
      cases answerEq
      refine iff_of_false (fun asItWas => asItWas.stream rfl) ?_
      rintro (write | rename)
      · cases write
      · cases rename

theorem pairTable_open : OpenHandle pairTable.storage :=
  ⟨by decide, by decide⟩

theorem failed_rename_of_pair :
    ∃ file next, dbCompact (.renameFailed true) pairFile pairTable = some (-1, file, next) ∧
      AsItWas pairFile pairTable file next := by
  refine ⟨_, _, rfl, ?_⟩
  exact (failed_compaction_iff pairTable_open rfl).mpr (Or.inr rfl)

/-- The first of two records is deleted and the compaction cannot reopen the new
file: the second record keeps the offset 32 in a file of 32 bytes. -/
theorem failed_reopen_moves_records :
    let deleted := dbDelete .ok pairFile pairTable 7
    let compacted := dbCompact .reopenFailed deleted.2.1 deleted.2.2
    compacted.map (fun answer => (answer.1, answer.2.1)) = some (-1, otherRecord.encode) ∧
      compacted.map (fun answer => answer.2.2.records.map Record.byteOffset) = some [0, 32] ∧
      compacted.map (fun answer => answer.2.2.storage.fp) = some none ∧
      ¬∃ file next, compacted = some (-1, file, next) ∧
        AsItWas deleted.2.1 deleted.2.2 file next := by
  intro deleted compacted
  refine ⟨by decide, by decide, by decide, ?_⟩
  rintro ⟨file, next, failed, asItWas⟩
  have fileEq : compacted.map (fun answer => answer.2.1) = some otherRecord.encode := by decide
  rw [failed, Option.map_some] at fileEq
  have sameFile := (Option.some.inj fileEq).symm.trans asItWas.sameFile
  exact absurd sameFile (by decide)

end OriginDb
