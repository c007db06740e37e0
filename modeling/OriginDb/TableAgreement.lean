/-
Agreement between the record array of an open table and its data file.

A file of frames and an array of records agree when the array lists the frames
in order, each record carries the fields and the offset of its frame, and its
vector pointer leads to the frame's vector: a heap copy of it, or its place in
the current mapping.  The deleted flags in memory and on disk are two lists,
because a failed disk write can leave them apart; everything else is one.

For each of `db_insert`, `db_delete` and `db_compact` one lemma says what the
call returns on an agreeing table and that the table agrees afterwards.
-/

import Mathlib.Data.List.Forall2
import OriginDb.Db
import OriginDb.RecordScan

namespace OriginDb

open Foundation

variable {dimension : UInt64}

namespace StoredRecord

def unflag (stored : StoredRecord dimension) : StoredRecord dimension :=
  { stored with isDeleted := false }

def mark (stored : StoredRecord dimension) : StoredRecord dimension :=
  { stored with isDeleted := true }

@[simp] theorem unflag_mark (stored : StoredRecord dimension) :
    stored.mark.unflag = stored.unflag := rfl

/-- The flag word has the same width whatever it says. -/
theorem encode_length_unflag (stored : StoredRecord dimension) :
    stored.unflag.encode.length = stored.encode.length := by
  simp only [encode_length_eq]
  rfl

theorem encodeAll_length_unflag (stored : List (StoredRecord dimension)) :
    ((recordCodec dimension).encodeAll (stored.map unflag)).length =
      ((recordCodec dimension).encodeAll stored).length := by
  have sizeEq : (recordCodec dimension).size ∘ unflag = (recordCodec dimension).size := by
    funext record
    exact record.encode_length_unflag
  rw [FramedLog.Codec.encodeAll_length, FramedLog.Codec.encodeAll_length, List.map_map, sizeEq]

theorem encode_length_of_unflag_eq {first second : StoredRecord dimension}
    (same : first.unflag = second.unflag) :
    first.encode.length = second.encode.length := by
  rw [← first.encode_length_unflag, same, second.encode_length_unflag]

end StoredRecord

/-- The fields of a record in memory are those of the frame at `offset`. -/
structure Placed (offset : Nat) (stored : StoredRecord dimension) (record : Record) : Prop where
  id : record.id = stored.id
  metadata : record.metadata = stored.metadata
  isDeleted : record.isDeleted = stored.isDeleted
  byteOffset : record.byteOffset.toNat = offset

/-- The vector pointer of a record whose frame stands at `offset` is good. -/
def VectorHolds (storage : Storage) (offset : Nat) (stored : StoredRecord dimension)
    (record : Record) : Prop :=
  match record.vector with
  | .null => record.isMmap = false ∧ dimension.toNat = 0
  | .heap values => record.isMmap = false ∧ values = stored.vector
  | .mapped mapping start =>
      record.isMmap = true ∧ storage.mmapData = some mapping ∧ start = offset + 24 ∧
        start + 4 * dimension.toNat ≤ storage.fileSize.toNat

def Holds (storage : Storage) (offset : Nat) (stored : StoredRecord dimension)
    (record : Record) : Prop :=
  Placed offset stored record ∧ VectorHolds storage offset stored record

/-- The table and its data file agree: `mem` is what the array says, `disk`
what the file says, and they differ at most in deleted flags. -/
structure Agrees (data : List UInt8) (db : FlatDb)
    (mem disk : List (StoredRecord dimension)) : Prop where
  dimensionEq : db.dimension = dimension
  stream : db.storage.fp ≠ none
  file : data = (recordCodec dimension).encodeAll disk
  small : data.length < 2 ^ 63
  unflagged : mem.map StoredRecord.unflag = disk.map StoredRecord.unflag
  tracks : (recordCodec dimension).Tracks (Holds db.storage) 0 mem db.records

/-! ### Reading an agreeing table -/

theorem encodeAll_length_of_unflagged {mem disk : List (StoredRecord dimension)}
    (unflagged : mem.map StoredRecord.unflag = disk.map StoredRecord.unflag) :
    ((recordCodec dimension).encodeAll mem).length =
      ((recordCodec dimension).encodeAll disk).length := by
  rw [← StoredRecord.encodeAll_length_unflag, unflagged, StoredRecord.encodeAll_length_unflag]

theorem Agrees.memLength {data : List UInt8} {db : FlatDb}
    {mem disk : List (StoredRecord dimension)} (agrees : Agrees data db mem disk) :
    ((recordCodec dimension).encodeAll mem).length = data.length := by
  rw [encodeAll_length_of_unflagged agrees.unflagged, ← agrees.file]

theorem VectorHolds.of_same_mapping {storage other : Storage} {offset : Nat}
    {stored : StoredRecord dimension} {record : Record}
    (sameMapping : other.mmapData = storage.mmapData) (sameSize : other.fileSize = storage.fileSize)
    (holds : VectorHolds storage offset stored record) :
    VectorHolds other offset stored record := by
  unfold VectorHolds at holds ⊢
  cases found : record.vector with
  | null => simpa only [found] using holds
  | heap values => simpa only [found] using holds
  | mapped mapping start =>
      simp only [found] at holds ⊢
      rw [sameMapping, sameSize]
      exact holds

theorem tracks_of_same_mapping {storage : Storage} (other : Storage) {start : Nat}
    {stored : List (StoredRecord dimension)} {records : List Record}
    (sameMapping : other.mmapData = storage.mmapData) (sameSize : other.fileSize = storage.fileSize)
    (tracks : (recordCodec dimension).Tracks (Holds storage) start stored records) :
    (recordCodec dimension).Tracks (Holds other) start stored records :=
  tracks.imp fun _ _ _ holds => ⟨holds.1, holds.2.of_same_mapping sameMapping sameSize⟩

/-- Following the vector pointer of a good record gives its frame back.  The
frame on disk may carry another flag. -/
theorem contents_of_holds (before after : List UInt8) (mem disk : StoredRecord dimension)
    (storage : Storage) (record : Record) (same : mem.unflag = disk.unflag)
    (holds : Holds storage before.length mem record) :
    record.contents (before ++ disk.encode ++ after) storage dimension = some mem := by
  have sameVector := congrArg StoredRecord.vector same
  change mem.vector = disk.vector at sameVector
  have vectorEq : readVector (before ++ disk.encode ++ after) storage dimension record.vector =
      some ⟨mem.vector, mem.vector_length⟩ := by
    have pointer := holds.2
    unfold VectorHolds at pointer
    cases found : record.vector with
    | null =>
        rw [found] at pointer
        have noValues : mem.vector = [] :=
          List.eq_nil_of_length_eq_zero (mem.vector_length.trans pointer.2)
        simp only [readVector, pointer.2, dif_pos, noValues]
    | heap values =>
        rw [found] at pointer
        have enough : dimension.toNat ≤ values.length := by
          rw [pointer.2, mem.vector_length]
        have all : values.take dimension.toNat = mem.vector := by
          rw [pointer.2, ← mem.vector_length, List.take_length]
        simp only [readVector, dif_pos enough, all]
    | mapped mapping start =>
        rw [found] at pointer
        rcases pointer with ⟨-, current, rfl, inRange⟩
        simp only [readVector, current, inRange, and_self, if_true,
          floatsAt_frame before after disk, sameVector]
  rcases holds with ⟨placed, -⟩
  simp only [Record.contents, vectorEq, Option.map_some, placed.id, placed.metadata,
    placed.isDeleted]

theorem contents_of_tracks {storage : Storage} (before after : List UInt8)
    {mem : List (StoredRecord dimension)} (disk : List (StoredRecord dimension))
    {records : List Record}
    (unflagged : mem.map StoredRecord.unflag = disk.map StoredRecord.unflag)
    (tracks : (recordCodec dimension).Tracks (Holds storage) before.length mem records) :
    List.Forall₂ (fun record stored =>
        record.contents (before ++ (recordCodec dimension).encodeAll disk ++ after) storage
          dimension = some stored)
      records mem := by
  induction mem generalizing before disk records with
  | nil =>
      cases records with
      | nil => exact List.Forall₂.nil
      | cons record records => cases tracks
  | cons first mem ih =>
      cases records with
      | nil => cases tracks
      | cons record records =>
          cases disk with
          | nil => cases unflagged
          | cons onDisk disk =>
              obtain ⟨same, later⟩ := List.cons.inj unflagged
              have split : before ++ (recordCodec dimension).encodeAll (onDisk :: disk) ++ after =
                  before ++ onDisk.encode ++
                    ((recordCodec dimension).encodeAll disk ++ after) := by
                simp only [FramedLog.Codec.encodeAll_cons, List.append_assoc]
                rfl
              have boundary : (before ++ onDisk.encode).length =
                  before.length + (recordCodec dimension).size first := by
                rw [List.length_append, ← StoredRecord.encode_length_of_unflag_eq same]
                rfl
              have rest := ih (before ++ onDisk.encode) disk later (boundary ▸ tracks.2)
              rw [split]
              apply List.Forall₂.cons
              · exact contents_of_holds before _ first onDisk storage record same tracks.1
              · simpa only [List.append_assoc] using rest

theorem Agrees.contents {data : List UInt8} {db : FlatDb}
    {mem disk : List (StoredRecord dimension)} (agrees : Agrees data db mem disk) :
    List.Forall₂ (fun record stored =>
        record.contents data db.storage dimension = some stored) db.records mem := by
  have found := contents_of_tracks [] [] disk agrees.unflagged agrees.tracks
  simpa only [List.nil_append, List.append_nil, ← agrees.file] using found

/-! ### Scanning the file of an agreeing table -/

/-- Scanning the file from offset 0 with `storage_load_record` yields the given
records at the given offsets, empty metadata being read as absent. -/
def ScanFinds (data : List UInt8) (stored : List (StoredRecord dimension))
    (offsets : List UInt64) : Prop :=
  ∀ fuel, stored.length < fuel →
    ∃ loaded code final,
      loadAll data dimension fuel (Storage.openAt data 0) = some (loaded, code, final) ∧
        code ≠ 1 ∧ loaded.map Record.byteOffset = offsets ∧
        List.Forall₂ (fun record stored =>
            record.contents data (Storage.openAt data 0) dimension = some stored.canon)
          loaded stored

private theorem contents_entries (before after : List UInt8)
    (stored : List (StoredRecord dimension)) (data : List UInt8)
    (split : data = before ++ (recordCodec dimension).encodeAll stored ++ after)
    (small : data.length < 2 ^ 63) :
    List.Forall₂ (fun record stored =>
        record.contents data (Storage.openAt data 0) dimension = some stored.canon)
      ((recordCodec dimension).entries before.length stored) stored := by
  induction stored generalizing before with
  | nil => exact List.Forall₂.nil
  | cons first stored ih =>
      have splitFirst : data = before ++ first.encode ++
          ((recordCodec dimension).encodeAll stored ++ after) := by
        rw [split]
        simp only [FramedLog.Codec.encodeAll_cons, List.append_assoc]
        rfl
      have later := ih (before ++ first.encode) (by rw [splitFirst, List.append_assoc _ _ after])
      rw [List.length_append] at later
      have header := first.header_le_encode
      have lengthEq := congrArg List.length splitFirst
      simp only [List.length_append] at lengthEq
      have sizeEq := openAt_fileSize small 0
      have found := contents_loaded before
        ((recordCodec dimension).encodeAll stored ++ after) first (Storage.openAt data 0) 0
        { Record.blank with byteOffset := UInt64.ofNat before.length, isMmap := true }
        (openAt_mmapData small (by omega) 0) (by omega)
      rw [← splitFirst] at found
      exact List.Forall₂.cons found later

/-- The offsets in memory are the positions of the frames. -/
theorem byteOffsets_of_tracks {start : Nat} {stored : List (StoredRecord dimension)}
    {records : List Record}
    (tracks : (recordCodec dimension).Tracks
      (fun offset _ record => record.byteOffset.toNat = offset) start stored records) :
    ((recordCodec dimension).entries start stored).map Record.byteOffset =
      records.map Record.byteOffset := by
  induction tracks using FramedLog.Codec.Tracks.induction with
  | nil start => rfl
  | cons start first stored record records atStart later ih =>
      have offsetEq : UInt64.ofNat start = record.byteOffset := by
        rw [← atStart, UInt64.ofNat_toNat]
      simp only [FramedLog.Codec.entries, List.map_cons, ih]
      rw [← offsetEq]
      rfl

theorem scanFinds_of_scan {data tail : List UInt8} {stored : List (StoredRecord dimension)}
    {records : List Record}
    (split : data = (recordCodec dimension).encodeAll stored ++ tail)
    (small : data.length < 2 ^ 63)
    (scanned : ∀ fuel, stored.length < fuel →
      (recordCodec dimension).scan data fuel 0 =
        some ((recordCodec dimension).entries 0 stored))
    (tracks : (recordCodec dimension).Tracks Placed 0 stored records) :
    ScanFinds data stored (records.map Record.byteOffset) := by
  intro fuel enough
  obtain ⟨code, notOne, final, loaded⟩ := loadAll_of_scan data fuel 0 _ (scanned fuel enough)
  exact ⟨_, code, _, loaded, notOne,
    byteOffsets_of_tracks (tracks.imp fun _ _ _ placed => placed.byteOffset),
    contents_entries [] tail stored data (by rw [split, List.nil_append]) small⟩

theorem scanFinds_encodeAll {stored : List (StoredRecord dimension)} {records : List Record}
    (small : ((recordCodec dimension).encodeAll stored).length < 2 ^ 63)
    (tracks : (recordCodec dimension).Tracks Placed 0 stored records) :
    ScanFinds ((recordCodec dimension).encodeAll stored) stored
      (records.map Record.byteOffset) :=
  scanFinds_of_scan (List.append_nil _).symm small
    (fun fuel enough => (recordCodec dimension).scan_encodeAll stored fuel small enough) tracks

/-! ### Inserting -/

/-- What `db_insert` stores. -/
def insertedRecord (id : UInt64) (vector : List UInt32)
    (lengthEq : vector.length = dimension.toNat) (metadata : Option CString) :
    StoredRecord dimension where
  id := id
  vector := vector
  vector_length := lengthEq
  metadata := metadata
  isDeleted := false

/-- The entry made in memory for a record appended at `offset`. -/
def StoredRecord.onHeap (stored : StoredRecord dimension) (offset : Nat) : Record where
  id := stored.id
  vector := .heap stored.vector
  metadata := stored.metadata
  isDeleted := stored.isDeleted
  byteOffset := UInt64.ofNat offset
  isMmap := false

theorem StoredRecord.holds_onHeap (stored : StoredRecord dimension) (storage : Storage)
    (offset : Nat) (small : offset < 2 ^ 63) :
    Holds storage offset stored (stored.onHeap offset) := by
  refine ⟨⟨rfl, rfl, rfl, ?_⟩, rfl, rfl⟩
  change (UInt64.ofNat offset).toNat = offset
  rw [UInt64.toNat_ofNat']
  omega

theorem StoredRecord.contents_onHeap (stored : StoredRecord dimension) (data : List UInt8)
    (storage : Storage) (offset : Nat) :
    (stored.onHeap offset).contents data storage dimension = some stored := by
  have enough : dimension.toNat ≤ stored.vector.length := Nat.le_of_eq stored.vector_length.symm
  have all : stored.vector.take dimension.toNat = stored.vector := by
    rw [← stored.vector_length, List.take_length]
  simp only [Record.contents, StoredRecord.onHeap, readVector, dif_pos enough, all,
    Option.map_some]

/-- `storage_current_offset` followed by `storage_write_record`, as `db_insert`
and the server's insert handler use them. -/
theorem storageWriteRecord_onHeap (io : WriteIO) (data : List UInt8) (storage : Storage)
    (stored : StoredRecord dimension) (offset position : Nat)
    (stream : storage.fp = some position) :
    storageWriteRecord io data storage (stored.onHeap offset) dimension =
      match io with
      | .ok => some (0, data ++ stored.encode,
          { storage with fp := some (data ++ stored.encode).length })
      | .failed appended => some (-1, data ++ stored.encode.take appended,
          { storage with fp := some (data ++ stored.encode.take appended).length }) := by
  cases io with
  | ok => simp only [storageWriteRecord, stream, stored.contents_onHeap]
  | failed appended => simp only [storageWriteRecord, stream, stored.contents_onHeap]

theorem growForInsert_records (db : FlatDb) : (growForInsert db).1.records = db.records := by
  unfold growForInsert
  split
  · dsimp only
    split <;> rfl
  · rfl

theorem growForInsert_storage (db : FlatDb) : (growForInsert db).1.storage = db.storage := by
  unfold growForInsert
  split
  · dsimp only
    split <;> rfl
  · rfl

theorem growForInsert_dimension (db : FlatDb) :
    (growForInsert db).1.dimension = db.dimension := by
  unfold growForInsert
  split
  · dsimp only
    split <;> rfl
  · rfl

/-- The array has room for one more record after the growth step. -/
def RoomForInsert (db : FlatDb) : Prop :=
  hasRoom (growForInsert db).1.recordsBytes (db.records.length + 1) = true

theorem growForInsert_of_room {db : FlatDb} (room : RoomForInsert db) :
    growForInsert db = ((growForInsert db).1, true) := by
  unfold RoomForInsert at room
  unfold growForInsert at room ⊢
  split
  · rename_i full
    rw [if_pos full] at room
    dsimp only at room ⊢
    split
    · rename_i released
      rw [if_pos released] at room
      have impossible := of_decide_eq_true room
      change 48 * (db.records.length + 1) ≤ 0 at impossible
      omega
    · rfl
  · rfl

/-- The table after an insert that has left `file` as the data file and
`added` in the array. -/
def appendedTable (db : FlatDb) (file : List UInt8) (added : List Record) : FlatDb :=
  { (growForInsert db).1 with
    records := db.records ++ added
    storage := { db.storage with fp := some file.length } }

theorem dbInsert_eq (io : WriteIO) (data : List UInt8) (db : FlatDb) (id : UInt32)
    (vector : List UInt32) (lengthEq : vector.length = dimension.toNat)
    (metadata : Option CString) (dimensionEq : db.dimension = dimension)
    (stream : db.storage.fp ≠ none) (room : RoomForInsert db) :
    let stored := insertedRecord id.toUInt64 vector lengthEq metadata
    dbInsert io data db id vector metadata =
      match io with
      | .ok => some (0, data ++ stored.encode,
          appendedTable db (data ++ stored.encode) [stored.onHeap data.length])
      | .failed appended => some (-1, data ++ stored.encode.take appended,
          appendedTable db (data ++ stored.encode.take appended) []) := by
  intro stored
  obtain ⟨position, streamEq⟩ := Option.ne_none_iff_exists'.mp stream
  let grown := (growForInsert db).1
  have roomGrown : hasRoom grown.recordsBytes (grown.records.length + 1) = true := by
    rw [growForInsert_records]
    exact room
  have enough : db.dimension.toNat ≤ vector.length := by rw [dimensionEq, lengthEq]
  have all : vector.take db.dimension.toNat = vector := by
    rw [dimensionEq, ← lengthEq, List.take_length]
  have offsetEq : storageCurrentOffset data grown.storage =
      (UInt64.ofNat data.length, { db.storage with fp := some data.length }) := by
    simp only [storageCurrentOffset, grown, growForInsert_storage, streamEq]
  have written := storageWriteRecord_onHeap io data
    { db.storage with fp := some data.length } stored data.length data.length rfl
  have recordEq :
      ({ id := id.toUInt64, vector := .heap (vector.take db.dimension.toNat),
          metadata := metadata, isDeleted := false, byteOffset := UInt64.ofNat data.length,
          isMmap := false } : Record) = stored.onHeap data.length := by
    rw [all]
    rfl
  have unchanged : ∀ file : List UInt8,
      { grown with storage := { db.storage with fp := some file.length } } =
        appendedTable db file [] := by
    intro file
    simp only [appendedTable, List.append_nil, ← growForInsert_records db]
    rfl
  unfold dbInsert
  rw [growForInsert_of_room room]
  dsimp only
  rw [if_pos ⟨roomGrown, enough⟩, offsetEq]
  dsimp only
  rw [recordEq, dimensionEq, written]
  cases io with
  | ok =>
      rw [growForInsert_records]
      rfl
  | failed appended =>
      simp only [← unchanged]
      rfl

/-- A successful insert appends the record to both lists. -/
theorem Agrees.insert {data : List UInt8} {db : FlatDb} {mem disk : List (StoredRecord dimension)}
    (agrees : Agrees data db mem disk) (stored : StoredRecord dimension)
    (small : (data ++ stored.encode).length < 2 ^ 63) :
    Agrees (data ++ stored.encode)
      (appendedTable db (data ++ stored.encode) [stored.onHeap data.length])
      (mem ++ [stored]) (disk ++ [stored]) where
  dimensionEq := (growForInsert_dimension db).trans agrees.dimensionEq
  stream := by
    intro closed
    cases closed
  file := by
    rw [FramedLog.Codec.encodeAll_append, ← agrees.file]
    simp only [FramedLog.Codec.encodeAll_cons, FramedLog.Codec.encodeAll_nil, List.append_nil]
    rfl
  small := small
  unflagged := by rw [List.map_append, List.map_append, agrees.unflagged]
  tracks := by
    have before := tracks_of_same_mapping
      { db.storage with fp := some (data ++ stored.encode).length } rfl rfl agrees.tracks
    refine (FramedLog.Codec.tracks_append_iff before.length_eq).mpr ⟨before, ?_, trivial⟩
    rw [Nat.zero_add, agrees.memLength]
    exact stored.holds_onHeap _ data.length (by rw [List.length_append] at small; omega)

/-! ### Deleting -/

/-- Mark the first live record with the id. -/
def markFirst (id : UInt64) : List (StoredRecord dimension) → List (StoredRecord dimension)
  | [] => []
  | stored :: rest =>
      if stored.id = id ∧ stored.isDeleted = false then stored.mark :: rest
      else stored :: markFirst id rest

/-- Setting the low byte of the flag word turns a frame into that of the
marked record. -/
theorem writeAt_flag (before after : List UInt8) (stored : StoredRecord dimension) :
    writeAt (before ++ stored.encode ++ after) (before.length + 8) [1] =
      before ++ stored.mark.encode ++ after := by
  have flagBytes : ∃ byte, LittleEndian.encode 8 stored.flags.toNat =
      byte :: List.replicate 7 0 := by
    unfold StoredRecord.flags
    cases stored.isDeleted
    · exact ⟨0, by decide⟩
    · exact ⟨1, by decide⟩
  rcases flagBytes with ⟨byte, flagEq⟩
  have markedFlag : LittleEndian.encode 8 stored.mark.flags.toNat =
      1 :: List.replicate 7 0 := by
    change LittleEndian.encode 8 1 = _
    decide
  let rest := List.replicate 7 0 ++ (LittleEndian.encode 8 stored.metaLen.toNat ++
    (StoredRecord.vectorBytes stored.vector ++
      (stored.metaBytes ++ List.replicate stored.padding 0)))
  have frameEq : stored.encode = LittleEndian.encode 8 stored.id.toNat ++ byte :: rest := by
    rw [stored.encode_eq_header, flagEq, List.cons_append]
  have markedEq : stored.mark.encode = LittleEndian.encode 8 stored.id.toNat ++ 1 :: rest := by
    rw [stored.mark.encode_eq_header, markedFlag, List.cons_append]
    rfl
  let head := before ++ LittleEndian.encode 8 stored.id.toNat
  have headLength : head.length = before.length + 8 := by
    simp only [head, List.length_append, LittleEndian.encode_length]
  have split : before ++ stored.encode ++ after = head ++ ([byte] ++ (rest ++ after)) := by
    simp only [frameEq, head, List.append_assoc, List.cons_append, List.nil_append]
  have goalEq : before ++ stored.mark.encode ++ after = head ++ ([1] ++ (rest ++ after)) := by
    simp only [markedEq, head, List.append_assoc, List.cons_append, List.nil_append]
  rw [split, goalEq, ← headLength]
  have noGap : head.length - (head ++ ([byte] ++ (rest ++ after))).length = 0 :=
    Nat.sub_eq_zero_of_le (List.prefix_append head _).length_le
  have dropped : (head ++ ([byte] ++ (rest ++ after))).drop (head.length + [(1 : UInt8)].length) =
      rest ++ after := by
    rw [List.drop_length_add_append]
    rfl
  rw [writeAt, noGap, List.take_left, dropped]
  simp only [List.replicate_zero, List.append_nil, List.append_assoc]

theorem isDeleteTarget_of_placed {id : UInt64} {offset : Nat} {stored : StoredRecord dimension}
    {record : Record} (placed : Placed offset stored record) :
    isDeleteTarget id record = true ↔ stored.id = id ∧ stored.isDeleted = false := by
  simp only [isDeleteTarget, placed.id, placed.isDeleted, Bool.and_eq_true, beq_iff_eq,
    Bool.not_eq_true']

/-- A list without a wanted item, or the first such item with those before and behind it. -/
theorem first_cases {α : Type} (wanted : α → Bool) (items : List α) :
    (∀ item ∈ items, wanted item = false) ∨
      ∃ before item after, items = before ++ item :: after ∧ wanted item = true ∧
        ∀ other ∈ before, wanted other = false := by
  cases found : items.find? wanted with
  | none =>
      refine Or.inl ?_
      intro item member
      exact Bool.eq_false_iff.mpr (List.find?_eq_none.mp found item member)
  | some item =>
      obtain ⟨isWanted, before, after, split, earlier⟩ := List.find?_eq_some_iff_append.mp found
      refine Or.inr ⟨before, item, after, split, isWanted, ?_⟩
      intro other member
      exact Bool.not_eq_true' _ ▸ earlier other member

theorem markFirst_of_none {id : UInt64} {stored : List (StoredRecord dimension)}
    (noTarget : ∀ record ∈ stored, ¬(record.id = id ∧ record.isDeleted = false)) :
    markFirst id stored = stored := by
  induction stored with
  | nil => rfl
  | cons first rest ih =>
      rw [markFirst, if_neg (noTarget first (List.mem_cons_self ..)),
        ih fun record member => noTarget record (List.mem_cons_of_mem _ member)]

theorem markFirst_append {id : UInt64} {before : List (StoredRecord dimension)}
    (after : List (StoredRecord dimension)) {target : StoredRecord dimension}
    (noTarget : ∀ record ∈ before, ¬(record.id = id ∧ record.isDeleted = false))
    (isTarget : target.id = id ∧ target.isDeleted = false) :
    markFirst id (before ++ target :: after) = before ++ target.mark :: after := by
  induction before with
  | nil => rw [List.nil_append, markFirst, if_pos isTarget, List.nil_append]
  | cons first rest ih =>
      rw [List.cons_append, markFirst, if_neg (noTarget first (List.mem_cons_self ..)),
        ih fun record member => noTarget record (List.mem_cons_of_mem _ member),
        List.cons_append]

/-- Rows and items at the same places are delete targets together. -/
theorem noTarget_of_tracks {storage : Storage} {id : UInt64} {start : Nat}
    {stored : List (StoredRecord dimension)} {records : List Record}
    (tracks : (recordCodec dimension).Tracks (Holds storage) start stored records)
    (noTarget : ∀ record ∈ records, isDeleteTarget id record = false) :
    ∀ record ∈ stored, ¬(record.id = id ∧ record.isDeleted = false) := by
  induction tracks using FramedLog.Codec.Tracks.induction with
  | nil start =>
      intro record member
      cases member
  | cons start first rest row rows here later ih =>
      intro record member isTarget
      rcases List.mem_cons.mp member with rfl | inRest
      · have targeted := (isDeleteTarget_of_placed here.1).mpr isTarget
        rw [noTarget row (List.mem_cons_self ..)] at targeted
        cases targeted
      · exact ih (fun row member => noTarget row (List.mem_cons_of_mem _ member)) record inRest
          isTarget

/-- The call when no live record has the id. -/
theorem dbDelete_of_none (io : DeleteIO) (data : List UInt8) {db : FlatDb} {id : UInt64}
    (noTarget : ∀ record ∈ db.records, isDeleteTarget id record = false) :
    dbDelete io data db id = (-1, data, db) := by
  have missing := List.findIdx?_eq_none_iff.mpr noTarget
  simp only [dbDelete, missing, ite_self]

/-- Ids without a live record are not found, whatever the disk does. -/
theorem deleteLoop_of_no_target (ios : Nat → DeleteIO) (ids : List UInt64) (index : Nat)
    (data : List UInt8) {db : FlatDb}
    (noTarget : ∀ id ∈ ids, ∀ record ∈ db.records, isDeleteTarget id record = false) :
    deleteLoop ios ids index data db = (data, db, 0) := by
  induction ids generalizing index with
  | nil => rfl
  | cons id rest ih =>
      have notFound := dbDelete_of_none (ios index) data (noTarget id (List.mem_cons_self ..))
      have later := ih (index + 1) fun other member =>
        noTarget other (List.mem_cons_of_mem _ member)
      simp only [deleteLoop, notFound, later]
      rfl

/-- What a call of `db_delete` does to the flags in memory: only a failed
patch takes the mark back. -/
def deleteMem (io : DeleteIO) (id : UInt64) (mem : List (StoredRecord dimension)) :
    List (StoredRecord dimension) :=
  if io = .patchFailed then mem else markFirst id mem

/-- When a call of `db_delete` reports success. -/
def DeleteSucceeds (io : DeleteIO) (id : UInt64) (mem : List (StoredRecord dimension)) : Prop :=
  (io = .ok ∨ io = .writeBackLost) ∧ ∃ record ∈ mem, record.id = id ∧ record.isDeleted = false

instance (io : DeleteIO) (id : UInt64) (mem : List (StoredRecord dimension)) :
    Decidable (DeleteSucceeds io id mem) := by
  unfold DeleteSucceeds
  infer_instance

/-- The disk operations of `db_delete` on the record in the middle. -/
theorem dbDelete_found (io : DeleteIO) (data : List UInt8) (db : FlatDb) (id : UInt64)
    (rows more : List Record) (row : Record)
    (stream : db.storage.fp ≠ none) (recordsEq : db.records = rows ++ row :: more)
    (earlier : ∀ other ∈ rows, isDeleteTarget id other = false)
    (isTarget : isDeleteTarget id row = true) :
    let flagged := { db with records := rows ++ row.setDeleted :: more }
    let flagOffset := asLong (row.byteOffset + 8)
    let sought := db.storage.seekSet flagOffset
    dbDelete io data db id =
      if flagOffset < 0 ∨ io = .seekFailed then (-1, data, flagged)
      else
        match io with
        | .ok => (0, writeAt data flagOffset.toNat [1], { flagged with storage := sought })
        | .writeBackLost => (0, data, { flagged with storage := sought })
        | _ => (-1, data, { db with storage := sought }) := by
  intro flagged flagOffset sought
  have indexEq : db.records.findIdx? (isDeleteTarget id) = some rows.length := by
    rw [recordsEq, List.findIdx?_append, List.findIdx?_eq_none_iff.mpr earlier]
    simp only [List.findIdx?_cons, isTarget, if_true, Option.map_some, Option.none_or,
      Nat.zero_add]
  have rowEq : ((db.records[rows.length]?).getD Record.blank) = row := by
    rw [recordsEq, List.getElem?_append_right (Nat.le_refl _), Nat.sub_self,
      List.getElem?_cons_zero, Option.getD_some]
  have modifyEq : db.records.modify rows.length Record.setDeleted =
      rows ++ row.setDeleted :: more := by
    rw [recordsEq, List.modify_eq_take_cons_drop (by simp), List.take_left]
    simp
  unfold dbDelete
  rw [if_neg stream, indexEq]
  dsimp only
  rw [modifyEq]
  subst rowEq
  rfl

/-- The same for a flag whose offset is that of a file position. -/
theorem dbDelete_eq (io : DeleteIO) (data : List UInt8) (db : FlatDb) (id : UInt64)
    (rows more : List Record) (row : Record) (position : Nat)
    (stream : db.storage.fp ≠ none) (recordsEq : db.records = rows ++ row :: more)
    (earlier : ∀ other ∈ rows, isDeleteTarget id other = false)
    (isTarget : isDeleteTarget id row = true)
    (offsetEq : row.byteOffset.toNat = position) (small : position + 8 < 2 ^ 63) :
    let flagged := { db with records := rows ++ row.setDeleted :: more }
    let sought := { db.storage with fp := some (position + 8) }
    dbDelete io data db id =
      match io with
      | .ok => (0, writeAt data (position + 8) [1], { flagged with storage := sought })
      | .writeBackLost => (0, data, { flagged with storage := sought })
      | .seekFailed => (-1, data, flagged)
      | .patchFailed => (-1, data, { db with storage := sought }) := by
  intro flagged sought
  have offsetLong : asLong (row.byteOffset + 8) = (position + 8 : Nat) := by
    have sum : (row.byteOffset + 8).toNat = position + 8 := by
      rw [UInt64.toNat_add, offsetEq]
      change (position + 8) % 2 ^ 64 = position + 8
      omega
    rw [asLong, sum, if_pos small]
  have called := dbDelete_found io data db id rows more row stream recordsEq earlier isTarget
  dsimp only at called
  rw [called, offsetLong]
  have proceeds : ∀ other : DeleteIO, other ≠ .seekFailed →
      ¬(((position + 8 : Nat) : Int) < 0 ∨ other = .seekFailed) := by
    intro other seeks fails
    rcases fails with negative | failed
    · omega
    · exact seeks failed
  have soughtEq : db.storage.seekSet ((position + 8 : Nat) : Int) = sought := by
    rw [Storage.seekSet, if_pos (Int.natCast_nonneg _), Int.toNat_natCast]
  rw [soughtEq, Int.toNat_natCast]
  cases io with
  | ok => rw [if_neg (proceeds .ok (by decide))]
  | seekFailed => rw [if_pos (Or.inr rfl)]
  | patchFailed => rw [if_neg (proceeds .patchFailed (by decide))]
  | writeBackLost => rw [if_neg (proceeds .writeBackLost (by decide))]

/-- Marking a record in the middle of both lists keeps their agreement up to flags. -/
theorem unflagged_mark {before after : List (StoredRecord dimension)}
    (target : StoredRecord dimension) :
    (before ++ target.mark :: after).map StoredRecord.unflag =
      (before ++ target :: after).map StoredRecord.unflag := by
  simp only [List.map_append, List.map_cons, StoredRecord.unflag_mark]

/-- A marked record and its marked row stand where they stood. -/
private theorem tracks_mark {storage : Storage} {before after : List (StoredRecord dimension)}
    {target : StoredRecord dimension} {rows more : List Record} {row : Record}
    (sameLength : rows.length = before.length)
    (tracks : (recordCodec dimension).Tracks (Holds storage) 0 (before ++ target :: after)
      (rows ++ row :: more)) :
    (recordCodec dimension).Tracks (Holds storage) 0 (before ++ target.mark :: after)
      (rows ++ row.setDeleted :: more) := by
  obtain ⟨earlier, ⟨placed, pointer⟩, later⟩ :=
    (FramedLog.Codec.tracks_append_iff sameLength).mp tracks
  have sizeEq : (recordCodec dimension).size target.mark = (recordCodec dimension).size target :=
    StoredRecord.encode_length_of_unflag_eq target.unflag_mark
  refine (FramedLog.Codec.tracks_append_iff sameLength).mpr
    ⟨earlier, ⟨⟨placed.id, placed.metadata, rfl, placed.byteOffset⟩, pointer⟩, ?_⟩
  rw [sizeEq]
  exact later

/-- Moving the stream changes nothing. -/
theorem Agrees.seek {data : List UInt8} {db : FlatDb} {mem disk : List (StoredRecord dimension)}
    (agrees : Agrees data db mem disk) (position : Nat) :
    Agrees data { db with storage := { db.storage with fp := some position } } mem disk where
  dimensionEq := agrees.dimensionEq
  stream := by
    intro closed
    cases closed
  file := agrees.file
  small := agrees.small
  unflagged := agrees.unflagged
  tracks := tracks_of_same_mapping _ rfl rfl agrees.tracks

/-- Marking a record in memory, and possibly on disk. -/
private theorem Agrees.marked {data file : List UInt8} {db : FlatDb}
    {before after disk disk' : List (StoredRecord dimension)} {target : StoredRecord dimension}
    {rows more : List Record} {row : Record}
    (agrees : Agrees data db (before ++ target :: after) disk)
    (recordsEq : db.records = rows ++ row :: more) (sameLength : rows.length = before.length)
    (fileEq : file = (recordCodec dimension).encodeAll disk')
    (sameDisk : disk'.map StoredRecord.unflag = disk.map StoredRecord.unflag) :
    Agrees file { db with records := rows ++ row.setDeleted :: more }
      (before ++ target.mark :: after) disk' where
  dimensionEq := agrees.dimensionEq
  stream := agrees.stream
  file := fileEq
  small := by
    rw [fileEq, encodeAll_length_of_unflagged sameDisk, ← agrees.file]
    exact agrees.small
  unflagged := by rw [unflagged_mark, agrees.unflagged, sameDisk]
  tracks := tracks_mark sameLength (recordsEq ▸ agrees.tracks)

/-- One `db_delete` on an agreeing table. -/
theorem Agrees.delete {data : List UInt8} {db : FlatDb} {mem disk : List (StoredRecord dimension)}
    (agrees : Agrees data db mem disk) (io : DeleteIO) (id : UInt64) :
    ∃ code file next disk', dbDelete io data db id = (code, file, next) ∧
      Agrees file next (deleteMem io id mem) disk' ∧
      (code = 0 ↔ DeleteSucceeds io id mem) ∧ (code ≠ 0 → file = data ∧ disk' = disk) ∧
      (io = .ok → disk = mem → disk' = markFirst id mem) := by
  rcases first_cases (isDeleteTarget id) db.records with
    notFound | ⟨rows, row, more, recordsEq, isTarget, earlier⟩
  · have noTarget := noTarget_of_tracks agrees.tracks notFound
    have unchanged := markFirst_of_none noTarget
    refine ⟨-1, data, db, disk, dbDelete_of_none io data notFound, ?_, ?_,
      fun _ => ⟨rfl, rfl⟩, ?_⟩
    · unfold deleteMem
      rw [unchanged, ite_self]
      exact agrees
    · refine iff_of_false (by decide) ?_
      intro success
      rcases success with ⟨-, record, member, isTarget⟩
      exact noTarget record member isTarget
    · intro _ same
      rw [unchanged, same]
  · obtain ⟨before, target, after, rfl, sameLength, beforeTracks, ⟨placed, pointer⟩, -⟩ :=
      (recordsEq ▸ agrees.tracks).split
    have targeted := (isDeleteTarget_of_placed placed).mp isTarget
    have noTarget := noTarget_of_tracks beforeTracks earlier
    have memEq := markFirst_append after noTarget targeted
    -- The frame of the target, cut out of the file.
    obtain ⟨diskBefore, diskRest, rfl, beforeEq, restEq⟩ :=
      List.map_eq_append_iff.mp (agrees.unflagged.symm.trans List.map_append)
    obtain ⟨onDisk, diskAfter, rfl, onDiskEq, afterEq⟩ := List.map_eq_cons_iff.mp restEq
    have positionEq : ((recordCodec dimension).encodeAll before).length =
        ((recordCodec dimension).encodeAll diskBefore).length :=
      encodeAll_length_of_unflagged beforeEq.symm
    have fileEq : data = (recordCodec dimension).encodeAll diskBefore ++ onDisk.encode ++
        (recordCodec dimension).encodeAll diskAfter := by
      rw [agrees.file, FramedLog.Codec.encodeAll_append, FramedLog.Codec.encodeAll_cons,
        ← List.append_assoc]
      rfl
    have header := onDisk.header_le_encode
    have lengthEq := congrArg List.length fileEq
    simp only [List.length_append] at lengthEq
    have small := agrees.small
    have called := dbDelete_eq io data db id rows more row
      ((recordCodec dimension).encodeAll before).length agrees.stream recordsEq earlier isTarget
      (placed.byteOffset.trans (Nat.zero_add _)) (by omega)
    have succeeds : ∀ io : DeleteIO, (io = .ok ∨ io = .writeBackLost) →
        DeleteSucceeds io id (before ++ target :: after) := fun _ good =>
      ⟨good, target, by simp, targeted⟩
    have notReported : ∀ io : DeleteIO, io ≠ .ok → io ≠ .writeBackLost →
        ¬DeleteSucceeds io id (before ++ target :: after) := by
      intro io notOk notLost success
      rcases success.1 with isOk | isLost
      · exact notOk isOk
      · exact notLost isLost
    have keptOnDisk := agrees.marked recordsEq sameLength agrees.file rfl
    cases io with
    | ok =>
        have written : writeAt data (((recordCodec dimension).encodeAll before).length + 8) [1] =
            (recordCodec dimension).encodeAll (diskBefore ++ onDisk.mark :: diskAfter) := by
          rw [positionEq, fileEq, writeAt_flag, FramedLog.Codec.encodeAll_append,
            FramedLog.Codec.encodeAll_cons, List.append_assoc]
          rfl
        have markedOnDisk := agrees.marked recordsEq sameLength written (unflagged_mark onDisk)
        have agreesAfter :=
          markedOnDisk.seek (((recordCodec dimension).encodeAll before).length + 8)
        refine ⟨0, _, _, diskBefore ++ onDisk.mark :: diskAfter, called, ?_,
          iff_of_true rfl (succeeds .ok (Or.inl rfl)), fun failed => absurd rfl failed, ?_⟩
        · rw [deleteMem, if_neg (by decide), memEq]
          exact agreesAfter
        · intro _ sameLists
          have beforeLength : diskBefore.length = before.length := by
            simpa only [List.length_map] using congrArg List.length beforeEq
          obtain ⟨rfl, restSame⟩ := List.append_inj sameLists beforeLength
          obtain ⟨rfl, rfl⟩ := List.cons.inj restSame
          exact memEq.symm
    | writeBackLost =>
        refine ⟨0, _, _, diskBefore ++ onDisk :: diskAfter, called, ?_,
          iff_of_true rfl (succeeds _ (Or.inr rfl)), fun failed => absurd rfl failed, nofun⟩
        rw [deleteMem, if_neg (by decide), memEq]
        exact keptOnDisk.seek _
    | seekFailed =>
        refine ⟨-1, _, _, diskBefore ++ onDisk :: diskAfter, called, ?_,
          iff_of_false (by decide) (notReported _ nofun nofun), fun _ => ⟨rfl, rfl⟩, nofun⟩
        rw [deleteMem, if_neg (by decide), memEq]
        exact keptOnDisk
    | patchFailed =>
        refine ⟨-1, _, _, diskBefore ++ onDisk :: diskAfter, called, ?_,
          iff_of_false (by decide) (notReported _ nofun nofun), fun _ => ⟨rfl, rfl⟩, nofun⟩
        rw [deleteMem, if_pos rfl]
        exact agrees.seek _

/-! ### Compacting -/

def liveOf (stored : List (StoredRecord dimension)) : List (StoredRecord dimension) :=
  stored.filter fun record => !record.isDeleted

theorem liveOf_sublist (stored : List (StoredRecord dimension)) :
    (liveOf stored).Sublist stored := List.filter_sublist

theorem contents_fields {data : List UInt8} {storage : Storage} {record : Record}
    {stored : StoredRecord dimension}
    (found : record.contents data storage dimension = some stored) :
    record.id = stored.id ∧ record.metadata = stored.metadata ∧
      record.isDeleted = stored.isDeleted := by
  obtain ⟨values, -, rfl⟩ := Option.map_eq_some_iff.mp found
  exact ⟨rfl, rfl, rfl⟩

/-- What compaction needs of a record: it knows the flag, and it can read the
record if it is live. -/
def Copyable (data : List UInt8) (storage : Storage) (record : Record)
    (stored : StoredRecord dimension) : Prop :=
  record.isDeleted = stored.isDeleted ∧
    (stored.isDeleted = false → record.contents data storage dimension = some stored)

theorem Agrees.copyable {data : List UInt8} {db : FlatDb}
    {mem disk : List (StoredRecord dimension)} (agrees : Agrees data db mem disk) :
    List.Forall₂ (Copyable data db.storage) db.records mem :=
  agrees.contents.imp fun _ _ found => ⟨(contents_fields found).2.2, fun _ => found⟩

theorem Agrees.liveSmall {data : List UInt8} {db : FlatDb}
    {mem disk : List (StoredRecord dimension)} (agrees : Agrees data db mem disk) :
    ((recordCodec dimension).encodeAll (liveOf mem)).length < 2 ^ 63 := by
  apply Nat.lt_of_le_of_lt
    ((recordCodec dimension).encodeAll_length_le_of_sublist (liveOf_sublist mem))
  rw [agrees.memLength]
  exact agrees.small

/-- A record kept by the copy loop, with its position in the new file. -/
structure KeptRow (records : List Record) (position : Nat) (stored : StoredRecord dimension)
    (kept : Record × UInt64) : Prop where
  member : kept.1 ∈ records
  live : kept.1.isDeleted = false
  placed : Placed position stored { kept.1 with byteOffset := kept.2 }

theorem compactCopy_eq {data : List UInt8} {storage : Storage} {records : List Record}
    {stored : List (StoredRecord dimension)}
    (copyable : List.Forall₂ (Copyable data storage) records stored) (out : List UInt8)
    (small : (out ++ (recordCodec dimension).encodeAll (liveOf stored)).length < 2 ^ 63) :
    ∃ kept, compactCopy data storage dimension records out =
        some (kept, out ++ (recordCodec dimension).encodeAll (liveOf stored)) ∧
      (recordCodec dimension).Tracks (KeptRow records) out.length (liveOf stored) kept := by
  induction copyable generalizing out with
  | nil => exact ⟨[], by simp [compactCopy, liveOf], trivial⟩
  | @cons record first records stored head tail ih =>
      have widen : ∀ position kept, (recordCodec dimension).Tracks (KeptRow records) position
          (liveOf stored) kept → (recordCodec dimension).Tracks (KeptRow (record :: records))
          position (liveOf stored) kept := fun _ _ tracks =>
        tracks.imp fun _ _ _ row => ⟨List.mem_cons_of_mem _ row.member, row.live, row.placed⟩
      cases flag : first.isDeleted with
      | true =>
          have skipped : liveOf (first :: stored) = liveOf stored :=
            List.filter_cons_of_neg (by simp [flag])
          rw [skipped] at small ⊢
          obtain ⟨kept, copied, tracks⟩ := ih out small
          refine ⟨kept, ?_, widen _ _ tracks⟩
          rw [compactCopy, if_pos (head.1.trans flag), copied]
      | false =>
          have keptFirst : liveOf (first :: stored) = first :: liveOf stored :=
            List.filter_cons_of_pos (by simp [flag])
          have found := head.2 flag
          obtain ⟨idEq, metadataEq, flagEq⟩ := contents_fields found
          have split : out ++ (recordCodec dimension).encodeAll (first :: liveOf stored) =
              out ++ first.encode ++ (recordCodec dimension).encodeAll (liveOf stored) := by
            rw [FramedLog.Codec.encodeAll_cons, ← List.append_assoc]
            rfl
          rw [keptFirst, split] at small
          obtain ⟨kept, copied, tracks⟩ := ih (out ++ first.encode) small
          have offsetEq : (UInt64.ofNat out.length).toNat = out.length := by
            simp only [List.length_append] at small
            rw [UInt64.toNat_ofNat']
            omega
          have notDeleted : ¬record.isDeleted = true := by
            rw [head.1, flag]
            decide
          rw [keptFirst, split]
          refine ⟨(record, UInt64.ofNat out.length) :: kept, ?_, ?_, ?_⟩
          · have frameEq : compactFrame first = first.encode := rfl
            rw [compactCopy, if_neg notDeleted, found]
            simp only [frameEq, copied, Option.map_some]
          · exact ⟨List.mem_cons_self .., head.1.trans flag,
              ⟨idEq, metadataEq, flagEq, offsetEq⟩⟩
          · rw [List.length_append] at tracks
            exact widen _ _ tracks

theorem compactRebase_placed {records : List Record} {position : Nat}
    {stored : StoredRecord dimension} {kept : Record × UInt64} (storage : Storage)
    (row : KeptRow records position stored kept) :
    Placed position stored (compactRebase storage kept) := by
  rcases row.placed with ⟨idEq, metadataEq, flagEq, offsetEq⟩
  unfold compactRebase
  split
  · exact ⟨idEq, metadataEq, flagEq, offsetEq⟩
  · exact ⟨idEq, metadataEq, flagEq, offsetEq⟩

/-- A pointer that is null or leads to the record's own place in a mapping. -/
def AtOwnFrame (record : Record) : Prop :=
  match record.vector with
  | .null => True
  | .heap _ => False
  | .mapped _ start => start = record.byteOffset.toNat + 24

theorem compactRebase_atOwnFrame (storage : Storage) (kept : Record × UInt64)
    (small : kept.2.toNat < 2 ^ 63) : AtOwnFrame (compactRebase storage kept) := by
  have start : (kept.2 + recordHeaderBytes).toNat = kept.2.toNat + 24 := by
    rw [UInt64.toNat_add]
    change (kept.2.toNat + 24) % 2 ^ 64 = kept.2.toNat + 24
    omega
  unfold compactRebase
  split
  · exact start
  · trivial

/-- The pointer survives compaction for a record that was mapped, and where
there is no vector to point at. -/
theorem compactRebase_vectorHolds {records : List Record} {position : Nat}
    {stored : StoredRecord dimension} {kept : Record × UInt64} {storage : Storage}
    (row : KeptRow records position stored kept)
    (covered : position + stored.encode.length ≤ storage.fileSize.toNat)
    (small : storage.fileSize.toNat < 2 ^ 63) (mapped : storage.mmapData ≠ none)
    (survives : kept.1.isMmap = true ∨ dimension.toNat = 0) :
    VectorHolds storage position stored (compactRebase storage kept) := by
  obtain ⟨mapping, mappedEq⟩ := Option.ne_none_iff_exists'.mp mapped
  have offsetEq : kept.2.toNat = position := row.placed.byteOffset
  have lengthEq := stored.encode_length_eq
  unfold StoredRecord.used at lengthEq
  cases wasMapped : kept.1.isMmap with
  | true =>
      have start : (kept.2 + recordHeaderBytes).toNat = position + 24 := by
        rw [UInt64.toNat_add, offsetEq]
        change (position + 24) % 2 ^ 64 = position + 24
        omega
      simp only [compactRebase, wasMapped, mappedEq, VectorHolds]
      exact ⟨trivial, trivial, start, by omega⟩
  | false =>
      rw [wasMapped] at survives
      simp only [compactRebase, wasMapped, VectorHolds]
      exact ⟨trivial, survives.resolve_left (by decide)⟩

/-- The handle on the file that compaction has put in place. -/
def swappedStorage (storage : Storage) (file : List UInt8) : Storage :=
  Storage.mapFile { storage with fp := some file.length, mmapData := none }
    (UInt64.ofNat file.length)

theorem swappedStorage_fileSize (storage : Storage) {file : List UInt8}
    (small : file.length < 2 ^ 63) :
    (swappedStorage storage file).fileSize.toNat = file.length := by
  have sizeEq : (UInt64.ofNat file.length).toNat = file.length := by
    rw [UInt64.toNat_ofNat']
    omega
  unfold swappedStorage Storage.mapFile
  split <;> exact sizeEq

theorem swappedStorage_fp (storage : Storage) (file : List UInt8) :
    (swappedStorage storage file).fp = some file.length := by
  unfold swappedStorage Storage.mapFile
  split <;> rfl

theorem swappedStorage_mmapData (storage : Storage) {file : List UInt8}
    (small : file.length < 2 ^ 63) (nonempty : 0 < file.length) :
    (swappedStorage storage file).mmapData = some storage.mappings := by
  have positive : 0 < UInt64.ofNat file.length := by
    rw [UInt64.lt_iff_toNat_lt, UInt64.toNat_ofNat']
    change 0 < file.length % 2 ^ 64
    omega
  simp only [swappedStorage, Storage.mapFile, if_pos positive]

/-- The table after the kept records have been pointed at the new file. -/
def compactedTable (db : FlatDb) (file : List UInt8) (kept : List (Record × UInt64)) : FlatDb :=
  let records := kept.map (compactRebase (swappedStorage db.storage file))
  let newCapacity : UInt64 := if 0 < records.length then UInt64.ofNat records.length else 1
  { db with
    records := records
    capacity := newCapacity
    recordsBytes := sizeofRecord * newCapacity
    storage := swappedStorage db.storage file }

theorem dbCompact_of_copy {data file : List UInt8} {db : FlatDb} {kept : List (Record × UInt64)}
    (dimensionEq : db.dimension = dimension)
    (copied : compactCopy data db.storage dimension db.records [] = some (kept, file)) :
    dbCompact .ok data db = some (0, file, compactedTable db file kept) := by
  subst dimensionEq
  simp only [dbCompact, storageCompact, copied, Option.map_some, ne_eq, not_true_eq_false,
    if_false]
  rfl

theorem compactedTable_stream (db : FlatDb) (file : List UInt8)
    (kept : List (Record × UInt64)) : (compactedTable db file kept).storage.fp ≠ none := by
  change (swappedStorage _ _).fp ≠ none
  rw [swappedStorage_fp]
  intro closed
  cases closed

/-- A successful compaction writes the live records in order and keeps exactly
them, each at its offset in the new file. -/
theorem dbCompact_eq {data : List UInt8} {db : FlatDb} {stored : List (StoredRecord dimension)}
    (dimensionEq : db.dimension = dimension)
    (copyable : List.Forall₂ (Copyable data db.storage) db.records stored)
    (small : ((recordCodec dimension).encodeAll (liveOf stored)).length < 2 ^ 63) :
    let file := (recordCodec dimension).encodeAll (liveOf stored)
    ∃ kept, dbCompact .ok data db = some (0, file, compactedTable db file kept) ∧
      (recordCodec dimension).Tracks
        (fun position stored record => Placed position stored record ∧ AtOwnFrame record) 0
        (liveOf stored) (compactedTable db file kept).records ∧
      ((∀ record ∈ db.records, record.isDeleted = false →
          record.isMmap = true ∨ dimension.toNat = 0) →
        (recordCodec dimension).Tracks (Holds (compactedTable db file kept).storage) 0
          (liveOf stored) (compactedTable db file kept).records) := by
  intro file
  obtain ⟨kept, copied, rows⟩ := compactCopy_eq copyable [] small
  rw [List.nil_append] at copied
  have sizeEq := swappedStorage_fileSize db.storage small
  refine ⟨kept, dbCompact_of_copy dimensionEq copied, ?_, ?_⟩
  · apply FramedLog.Codec.tracks_map_iff.mpr (rows.inside.imp _)
    intro position record keptRow found
    rcases found with ⟨row, inside⟩
    have offsetEq : keptRow.2.toNat = position := row.placed.byteOffset
    rw [List.length_nil, Nat.zero_add] at inside
    exact ⟨compactRebase_placed _ row, compactRebase_atOwnFrame _ _ (by omega)⟩
  · intro survives
    apply FramedLog.Codec.tracks_map_iff.mpr (rows.inside.imp _)
    intro position record keptRow found
    rcases found with ⟨row, inside⟩
    rw [List.length_nil, Nat.zero_add, ← sizeEq] at inside
    have header := record.header_le_encode
    change position + record.encode.length ≤ _ at inside
    have mapped := swappedStorage_mmapData db.storage small (by omega)
    refine ⟨compactRebase_placed _ row, compactRebase_vectorHolds row inside (sizeEq ▸ small) ?_
      (survives keptRow.1 row.member row.live)⟩
    change (swappedStorage _ _).mmapData ≠ none
    rw [mapped]
    intro unmapped
    cases unmapped

end OriginDb
