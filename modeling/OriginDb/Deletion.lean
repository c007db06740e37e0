/-
What one `db_delete` touches.

The call writes one byte, the low byte of a flag word, at an offset that it
takes from memory.  Where every record of the array has its frame in the file,
and no two of these overlap, that byte belongs to one record only: it is the
one that every later fetch finds deleted.  A scan from the start of the file
finds the same, provided that it reaches the record.
-/

import OriginDb.FlagByte

namespace OriginDb

open Foundation

variable {dimension : UInt64}

/-- The frame of a record of the array stands at its offset.  A live record is
live there; a deleted one may have been deleted in memory only. -/
structure SitsAt (data : List UInt8) (row : Row dimension) : Prop where
  frame : row.2.encode <+: data.drop row.1.byteOffset.toNat
  id : row.1.id = row.2.id
  live : row.1.isDeleted = false → row.2.isDeleted = false

/-- An open table whose records all have their own place in the data file.
What else the file holds is not described. -/
structure Sits (data : List UInt8) (db : FlatDb) (rows : List (Row dimension)) : Prop where
  dimensionEq : db.dimension = dimension
  stream : db.storage.fp ≠ none
  recordsEq : db.records = rows.map Prod.fst
  placed : ∀ row ∈ rows, SitsAt data row
  apart : rows.Pairwise Apart
  small : data.length < 2 ^ 63

/-- The first live record with the id, with the records before it. -/
structure FirstLive (id : UInt64) (before : List (Row dimension)) (row : Row dimension) :
    Prop where
  isTarget : isDeleteTarget id row.1 = true
  earlier : ∀ other ∈ before, isDeleteTarget id other.1 = false

/-- What is different after a call that has deleted the record of `row`. -/
structure DeletesRow (data : List UInt8) (db : FlatDb) (before : List (Row dimension))
    (row : Row dimension) (after : List (Row dimension)) (file : List UInt8) (next : FlatDb) :
    Prop where
  memory : next =
    { db with
      records := before.map Prod.fst ++ row.1.setDeleted :: after.map Prod.fst
      storage := { db.storage with fp := some (row.1.byteOffset.toNat + 8) } }
  flagWasClear : data[row.1.byteOffset.toNat + 8]? = some 0
  oneByte : file = data.set (row.1.byteOffset.toNat + 8) 1
  fetched : ∀ handle, fetchStored file handle dimension row.1.byteOffset =
    (fetchStored data handle dimension row.1.byteOffset).map StoredRecord.mark
  fetchedOthers : ∀ other ∈ before ++ after, ∀ handle,
    fetchStored file handle dimension other.1.byteOffset =
      fetchStored data handle dimension other.1.byteOffset
  scanned : ∀ fuel records code final,
    loadAll data dimension fuel (Storage.openAt data 0) = some (records, code, final) →
      HeaderSizesFit dimension data records →
        (∃ record ∈ records, record.byteOffset = row.1.byteOffset) →
          loadAll file dimension fuel (Storage.openAt file 0) =
              some (records.map (markAt row.1.byteOffset), code, final) ∧
            ∀ record ∈ records, ∀ handle,
              (markAt row.1.byteOffset record).contents file handle dimension =
                (record.contents data handle dimension).map fun stored =>
                  if record.byteOffset = row.1.byteOffset then stored.mark else stored
  sits : Sits file next (before ++ markRow row :: after)

/-! ### The place of a record -/

/-- The bytes a decoder reads of a frame are in the frame. -/
theorem recordEnd_of_frame {data : List UInt8} {stored : StoredRecord dimension} {position : Nat}
    (frame : stored.encode <+: data.drop position) (small : data.length < 2 ^ 63) :
    recordEnd dimension data position ≤ position + stored.encode.length ∧
      position + stored.encode.length ≤ data.length := by
  obtain ⟨before, after, split, lengthEq⟩ := split_of_frame frame
  have inside : position + stored.encode.length ≤ data.length :=
    (recordCodec dimension).frame_inside frame
  have lenEq := (u64At_frame before after stored).2.2
  rw [← split, lengthEq] at lenEq
  have metaEq := StoredRecord.metaLen_toNat (by omega : stored.encode.length < 2 ^ 63)
  have usedEq := stored.encode_length_eq
  unfold StoredRecord.used at usedEq
  refine ⟨?_, inside⟩
  rw [recordEnd, lenEq, metaEq]
  omega

theorem flagByte_of_frame {data : List UInt8} {stored : StoredRecord dimension} {position : Nat}
    (frame : stored.encode <+: data.drop position) (live : stored.isDeleted = false) :
    data[position + 8]? = some 0 := by
  obtain ⟨before, after, split, lengthEq⟩ := split_of_frame frame
  have flagsEq : stored.flags = 0 := by rw [StoredRecord.flags, live]; rfl
  have header : stored.encode = LittleEndian.encode 8 stored.id.toNat ++
      (0 :: List.replicate 7 0 ++ (LittleEndian.encode 8 stored.metaLen.toNat ++
        (StoredRecord.vectorBytes stored.vector ++
          (stored.metaBytes ++ List.replicate stored.padding 0)))) := by
    rw [stored.encode_eq_header, flagsEq]
    rfl
  have place : position + 8 = (before ++ LittleEndian.encode 8 stored.id.toNat).length := by
    rw [List.length_append, LittleEndian.encode_length, lengthEq]
  rw [split, header, place, List.append_assoc, List.append_assoc, ← List.append_assoc before,
    List.getElem?_append_right (Nat.le_refl _), Nat.sub_self]
  rfl

/-! ### The table afterwards -/

theorem SitsAt.set_elsewhere {data : List UInt8} {row other : Row dimension}
    (sits : SitsAt data other) (apart : Apart row other) :
    SitsAt (data.set (row.1.byteOffset.toNat + 8) 1) other where
  frame := frame_set_elsewhere sits.frame apart
  id := sits.id
  live := sits.live

theorem SitsAt.set_flag {data : List UInt8} {row : Row dimension} (sits : SitsAt data row) :
    SitsAt (data.set (row.1.byteOffset.toNat + 8) 1) (markRow row) where
  frame := frame_set_flag sits.frame
  id := sits.id
  live := by
    intro impossible
    cases impossible

variable {data : List UInt8} {db : FlatDb} {rows before after : List (Row dimension)}
  {row : Row dimension}

theorem Sits.marked (sits : Sits data db (before ++ row :: after)) (position : Nat) :
    Sits (data.set (row.1.byteOffset.toNat + 8) 1)
      { db with
        records := before.map Prod.fst ++ row.1.setDeleted :: after.map Prod.fst
        storage := { db.storage with fp := some position } }
      (before ++ markRow row :: after) where
  dimensionEq := sits.dimensionEq
  stream := by
    intro closed
    cases closed
  recordsEq := by
    rw [List.map_append, List.map_cons]
    rfl
  placed := marked_rows_hold sits.apart sits.placed (fun placed => placed.set_flag)
    (fun _ placed apart => placed.set_elsewhere apart)
  apart := pairwise_apart_mark sits.apart
  small := by
    rw [List.length_set]
    exact sits.small

theorem openAt_set (data : List UInt8) (place : Nat) (byte : UInt8) (position : Nat) :
    Storage.openAt (data.set place byte) position = Storage.openAt data position := by
  unfold Storage.openAt storageInit
  rw [List.length_set]

/-- The call on the first live record with the id. -/
theorem Sits.deletes {id : UInt64} (sits : Sits data db (before ++ row :: after))
    (first : FirstLive id before row) :
    ∃ file next, dbDelete .ok data db id = (0, file, next) ∧
      DeletesRow data db before row after file next := by
  have placed := sits.placed row (List.mem_append_right _ (List.mem_cons_self ..))
  have small := sits.small
  have header := row.2.header_le_encode
  obtain ⟨endLe, inside⟩ := recordEnd_of_frame placed.frame small
  have recordsEq : db.records = before.map Prod.fst ++ row.1 :: after.map Prod.fst := by
    rw [sits.recordsEq, List.map_append, List.map_cons]
  have earlier : ∀ other ∈ before.map Prod.fst, isDeleteTarget id other = false := by
    intro other member
    obtain ⟨otherRow, rowMember, rfl⟩ := List.mem_map.mp member
    exact first.earlier otherRow rowMember
  have live : row.1.isDeleted = false := by
    have target := first.isTarget
    simp only [isDeleteTarget, Bool.and_eq_true, Bool.not_eq_true'] at target
    exact target.2
  have called := dbDelete_eq .ok data db id _ _ row.1 row.1.byteOffset.toNat sits.stream recordsEq
    earlier first.isTarget rfl (by omega)
  dsimp only at called
  rw [writeAt_eq_set (by omega)] at called
  refine ⟨_, _, called, rfl, flagByte_of_frame placed.frame (placed.live live), rfl, ?_, ?_, ?_,
    sits.marked _⟩
  · intro handle
    exact fetchStored_setFlag handle (by omega) (by omega)
  · intro other member handle
    have otherPlaced : SitsAt data other := by
      rcases List.mem_append.mp member with inBefore | inAfter
      · exact sits.placed other (List.mem_append_left _ inBefore)
      · exact sits.placed other (List.mem_append_right _ (List.mem_cons_of_mem row inAfter))
    obtain ⟨otherEnd, otherInside⟩ := recordEnd_of_frame otherPlaced.frame small
    refine fetchStored_set 1 handle (by omega) ?_
    rcases apart_of_middle sits.apart other member with ahead | behind
    · exact Or.inl (by omega)
    · exact Or.inr (by omega)
  · intro fuel records code final loaded fits reaches
    rw [openAt_set]
    have sizeSmall : (Storage.openAt data 0).fileSize.toNat < 2 ^ 63 := by
      rw [openAt_fileSize small]
      exact small
    exact loadAll_setFlag rfl (by decide) sizeSmall (by omega) loaded fits (Or.inr reaches)

theorem exists_firstLive {id : UInt64}
    (live : ∃ row ∈ rows, isDeleteTarget id row.1 = true) :
    ∃ before row after, rows = before ++ row :: after ∧ FirstLive id before row := by
  rcases first_cases (fun row : Row dimension => isDeleteTarget id row.1) rows with
    noTarget | ⟨before, row, after, split, isTarget, earlier⟩
  · obtain ⟨row, member, isTarget⟩ := live
    have notTarget := noTarget row member
    rw [isTarget] at notTarget
    cases notTarget
  · exact ⟨before, row, after, split, isTarget, earlier⟩

/-- A call of `db_delete` deletes the first live record with the id and a second
call the next one; without one the call fails and changes nothing. -/
theorem delete_touches_one_record (sits : Sits data db rows) (id : UInt64) :
    ((∃ record ∈ db.records, isDeleteTarget id record = true) →
        ∃ before row after file next, rows = before ++ row :: after ∧ FirstLive id before row ∧
          dbDelete .ok data db id = (0, file, next) ∧
            DeletesRow data db before row after file next ∧
              ((∀ other ∈ after, isDeleteTarget id other.1 = false) →
                dbDelete .ok file next id = (-1, file, next)) ∧
              ∀ between later rest, after = between ++ later :: rest →
                FirstLive id between later →
                  ∃ file' next', dbDelete .ok file next id = (0, file', next') ∧
                    DeletesRow file next (before ++ markRow row :: between) later rest file'
                      next') ∧
      ((∀ record ∈ db.records, isDeleteTarget id record = false) →
        dbDelete .ok data db id = (-1, data, db)) := by
  constructor
  · intro live
    rw [sits.recordsEq] at live
    obtain ⟨record, member, isTarget⟩ := live
    obtain ⟨row, rowMember, rfl⟩ := List.mem_map.mp member
    obtain ⟨before, row, after, rfl, first⟩ := exists_firstLive ⟨row, rowMember, isTarget⟩
    obtain ⟨file, next, called, deletes⟩ := sits.deletes first
    have notAgain : ∀ other ∈ before ++ [markRow row], isDeleteTarget id other.1 = false := by
      intro other member
      rcases List.mem_append.mp member with inBefore | isRow
      · exact first.earlier other inBefore
      · rw [List.mem_singleton.mp isRow]
        exact Bool.and_false _
    refine ⟨before, row, after, file, next, rfl, first, called, deletes, ?_, ?_⟩
    · intro noneAfter
      apply dbDelete_of_none
      intro record member
      rw [deletes.sits.recordsEq] at member
      obtain ⟨other, otherMember, rfl⟩ := List.mem_map.mp member
      rw [← List.singleton_append, ← List.append_assoc] at otherMember
      rcases List.mem_append.mp otherMember with inFront | inAfter
      · exact notAgain other inFront
      · exact noneAfter other inAfter
    · intro between later rest split secondLive
      have sitsNext := deletes.sits
      rw [split, ← List.cons_append, ← List.append_assoc] at sitsNext
      refine sitsNext.deletes ⟨secondLive.isTarget, ?_⟩
      intro other member
      rw [← List.singleton_append, ← List.append_assoc] at member
      rcases List.mem_append.mp member with inFront | inBetween
      · exact notAgain other inFront
      · exact secondLive.earlier other inBetween
  · exact dbDelete_of_none .ok data

/-! ### Two tables -/

theorem pairTable_sits : Sits pairFile pairTable pairRows where
  dimensionEq := rfl
  stream := by decide
  recordsEq := rfl
  placed := by
    intro row member
    have onDisk := pairTable_mirrors.onDisk row member
    exact ⟨onDisk.frame, onDisk.held.1.id, fun live => onDisk.isDeleted ▸ live⟩
  apart := pairTable_mirrors.apart
  small := pairTable_mirrors.small

/-- The first of the two records is deleted, and there is no second with its id. -/
theorem delete_touches_one_of_pair :
    ∃ file next, dbDelete .ok pairFile pairTable 7 = (0, file, next) ∧ file = pairFile.set 8 1 ∧
      next.records.map Record.isDeleted = [true, false] ∧
        dbDelete .ok file next 7 = (-1, file, next) := by
  obtain ⟨deletesFirst, -⟩ := delete_touches_one_record pairTable_sits 7
  obtain ⟨before, row, after, file, next, split, first, called, deletes, again, -⟩ :=
    deletesFirst (by decide)
  have rowEq : before = [] ∧ row = (sampleRecord.scanned 0 0, sampleRecord) ∧
      after = [(otherRecord.scanned 0 32, otherRecord)] := by
    cases before with
    | nil =>
        obtain ⟨rowEq, afterEq⟩ := List.cons.inj split
        exact ⟨rfl, rowEq.symm, afterEq.symm⟩
    | cons other before =>
        obtain ⟨otherEq, -⟩ := List.cons.inj split
        have earlier := first.earlier other (List.mem_cons_self ..)
        rw [← otherEq] at earlier
        exact absurd earlier (by decide)
  obtain ⟨rfl, rfl, rfl⟩ := rowEq
  refine ⟨file, next, called, deletes.oneByte, ?_, again (by decide)⟩
  rw [deletes.memory]
  rfl

/-- A data file that holds the header of one record, all that a write interrupted
there has left. -/
def tornFile : List UInt8 := sampleRecord.encode.take 24

def zeroRecord (id : UInt64) : StoredRecord 1 where
  id := id
  vector := [0]
  vector_length := rfl
  metadata := none
  isDeleted := false

/-- The table opened on the torn file, after two inserts. -/
def tornTable : FlatDb where
  dimension := 1
  capacity := 10
  records := [(zeroRecord 8).onHeap 24, (zeroRecord 9).onHeap 56]
  recordsBytes := 480
  calculateDistance := .cosine
  storage := { storageInit tornFile with fp := some 88 }
  pendingDeletes := none
  pendingCount := 0

def appendedFile : List UInt8 := tornFile ++ (zeroRecord 8).encode ++ (zeroRecord 9).encode

theorem tornTable_sits : Sits appendedFile tornTable
    [((zeroRecord 8).onHeap 24, zeroRecord 8), ((zeroRecord 9).onHeap 56, zeroRecord 9)] where
  dimensionEq := rfl
  stream := by decide
  recordsEq := rfl
  placed := by
    intro row member
    rcases List.mem_cons.mp member with rfl | second
    · exact ⟨by decide, rfl, fun _ => rfl⟩
    · rw [List.mem_singleton.mp second]
      exact ⟨by decide, rfl, fun _ => rfl⟩
  apart := by
    refine List.pairwise_cons.mpr ⟨?_, List.pairwise_singleton _ _⟩
    intro other member
    rw [List.mem_singleton.mp member]
    exact Or.inl (by decide)
  small := by decide

/-- The ids and flags that a scan from the start of a file finds. -/
def scannedFlags (data : List UInt8) : Option (List (UInt64 × Bool)) :=
  (loadAll data 1 4 (Storage.openAt data 0)).map fun found =>
    found.1.map fun record => (record.id, record.isDeleted)

/-- The scan runs out of step on the torn record: the byte that deletes record 8
is in the id of a record that the scan finds. -/
theorem delete_changes_other_scanned_record :
    (∃ dir db middle mid, dbInit 1 ⟨[97], by decide⟩ 1 10 0
        { metaBin := none, dataDb := some tornFile, pendingBin := none,
          autoDeleteSchedule := none, ivfIndex := none } = some (dir, some db) ∧
      dbInsert .ok tornFile db 8 [0] none = some (0, middle, mid) ∧
        dbInsert .ok middle mid 9 [0] none = some (0, appendedFile, tornTable)) ∧
      (∃ rows : List (Row 1), Sits appendedFile tornTable rows) ∧
        (dbDelete .ok appendedFile tornTable 8).1 = 0 ∧
          scannedFlags appendedFile = some [(7, false), (0, false)] ∧
            scannedFlags (dbDelete .ok appendedFile tornTable 8).2.1 =
              some [(7, false), (1, false)] := by
  refine ⟨⟨_, _, _, _, rfl, rfl, ?_⟩, ⟨_, tornTable_sits⟩, ?_, ?_, ?_⟩
  · decide +kernel
  · decide +kernel
  · decide +kernel
  · decide +kernel

/-! ### All or nothing -/

/-- The flag in the file of a record of the array, at the offset where `db_delete`
writes it. -/
def flagOnDisk (data : List UInt8) (record : Record) : Bool :=
  u64At data (record.byteOffset + 8).toNat &&& 1 != 0

/-- A call that returns 0 has deleted the first live record with the id in memory
and in the file; one that returns -1 has changed neither. -/
structure AllOrNothing (io : DeleteIO) (data : List UInt8) (db : FlatDb) (id : UInt64) : Prop where
  done : (dbDelete io data db id).1 = 0 →
    ∃ rows record more, db.records = rows ++ record :: more ∧
      isDeleteTarget id record = true ∧
        (∀ other ∈ rows, isDeleteTarget id other = false) ∧
          (dbDelete io data db id).2.2.records = rows ++ record.setDeleted :: more ∧
            flagOnDisk (dbDelete io data db id).2.1 record = true
  failed : (dbDelete io data db id).1 = -1 →
    (dbDelete io data db id).2.2.records = db.records ∧ (dbDelete io data db id).2.1 = data

/-- Where there is a record to delete, the seek on the table's stream succeeds, and
a byte that is lost when the second handle is closed was there before. -/
def DiskKeepsUp (io : DeleteIO) (data : List UInt8) (db : FlatDb) (id : UInt64) : Prop :=
  db.storage.fp = none ∨
    ∀ record ∈ db.records.find? (isDeleteTarget id),
      io ≠ .seekFailed ∧ 0 ≤ asLong (record.byteOffset + 8) ∧
        (io = .writeBackLost → flagOnDisk data record = true)

theorem asLong_toNat {value : UInt64} (positive : 0 ≤ asLong value) :
    (asLong value).toNat = value.toNat := by
  by_cases small : value.toNat < 2 ^ 63
  · rw [asLong_of_small small, Int.toNat_natCast]
  · have negative := asLong_of_large small
    omega

theorem find?_eq_some_iff_first {id : UInt64} {records : List Record} {record : Record} :
    records.find? (isDeleteTarget id) = some record ↔
      ∃ rows more, records = rows ++ record :: more ∧ isDeleteTarget id record = true ∧
        ∀ other ∈ rows, isDeleteTarget id other = false := by
  rw [List.find?_eq_some_iff_append]
  constructor
  · rintro ⟨isTarget, rows, more, split, earlier⟩
    refine ⟨rows, more, split, isTarget, ?_⟩
    intro other member
    exact Bool.not_eq_true' _ ▸ earlier other member
  · rintro ⟨rows, more, split, isTarget, earlier⟩
    refine ⟨isTarget, rows, more, split, ?_⟩
    intro other member
    rw [earlier other member]
    rfl

section

variable {io : DeleteIO} {data : List UInt8} {db next : FlatDb} {id : UInt64}

theorem allOrNothing_of_failed (called : dbDelete io data db id = (-1, data, next))
    (same : next.records = db.records) : AllOrNothing io data db id := by
  constructor
  · rw [called]
    intro (impossible : (-1 : Int) = 0)
    exact absurd impossible (by decide)
  · rw [called]
    exact fun _ => ⟨same, rfl⟩

/-- A call that goes through returns 0, and keeps its word when the flag is in the file. -/
theorem allOrNothing_of_done {file : List UInt8} {rows more : List Record} {record : Record}
    (called : dbDelete io data db id = (0, file, next))
    (recordsEq : db.records = rows ++ record :: more)
    (isTarget : isDeleteTarget id record = true)
    (earlier : ∀ other ∈ rows, isDeleteTarget id other = false)
    (nextEq : next.records = rows ++ record.setDeleted :: more) :
    AllOrNothing io data db id ↔ flagOnDisk file record = true := by
  constructor
  · intro both
    obtain ⟨rows', record', more', recordsEq', isTarget', earlier', -, onDisk⟩ :=
      both.done (by rw [called])
    have first := find?_eq_some_iff_first.mpr ⟨rows, more, recordsEq, isTarget, earlier⟩
    have second := find?_eq_some_iff_first.mpr ⟨rows', more', recordsEq', isTarget', earlier'⟩
    rw [called] at onDisk
    cases first.symm.trans second
    exact onDisk
  · intro onDisk
    constructor
    · rw [called]
      exact fun _ => ⟨rows, record, more, recordsEq, isTarget, earlier, nextEq, onDisk⟩
    · rw [called]
      intro (impossible : (0 : Int) = -1)
      exact absurd impossible (by decide)

/-- A call that fails after it has marked the record does not take the mark back. -/
theorem not_allOrNothing_of_marked {rows more : List Record} {record : Record}
    (called : dbDelete io data db id = (-1, data, next))
    (recordsEq : db.records = rows ++ record :: more)
    (isTarget : isDeleteTarget id record = true)
    (nextEq : next.records = rows ++ record.setDeleted :: more) :
    ¬AllOrNothing io data db id := by
  intro both
  have live : record.isDeleted = false := by
    simp only [isDeleteTarget, Bool.and_eq_true, Bool.not_eq_true'] at isTarget
    exact isTarget.2
  obtain ⟨sameRecords, -⟩ := both.failed (by rw [called])
  rw [called, nextEq, recordsEq] at sameRecords
  have sameRecord := (List.cons.inj (List.append_cancel_left sameRecords)).1
  rw [← sameRecord] at live
  cases live

theorem diskKeepsUp_of_found {record : Record} (opened : db.storage.fp ≠ none)
    (found : db.records.find? (isDeleteTarget id) = some record) :
    DiskKeepsUp io data db id ↔ io ≠ .seekFailed ∧ 0 ≤ asLong (record.byteOffset + 8) ∧
      (io = .writeBackLost → flagOnDisk data record = true) := by
  rw [DiskKeepsUp, found]
  constructor
  · rintro (isClosed | keeps)
    · exact absurd isClosed opened
    · exact keeps record rfl
  · intro keeps
    refine Or.inr ?_
    rintro other ⟨⟩
    exact keeps

end

theorem delete_all_or_nothing_iff (io : DeleteIO) (data : List UInt8) (db : FlatDb)
    (id : UInt64) : AllOrNothing io data db id ↔ DiskKeepsUp io data db id := by
  by_cases closed : db.storage.fp = none
  · exact iff_of_true (allOrNothing_of_failed (if_pos closed) rfl) (Or.inl closed)
  · cases found : db.records.find? (isDeleteTarget id) with
    | none =>
        have noTarget : ∀ record ∈ db.records, isDeleteTarget id record = false := by
          intro record member
          exact Bool.eq_false_iff.mpr (List.find?_eq_none.mp found record member)
        refine iff_of_true (allOrNothing_of_failed (dbDelete_of_none io data noTarget) rfl)
          (Or.inr ?_)
        rw [found]
        intro record impossible
        cases impossible
    | some record =>
        obtain ⟨rows, more, recordsEq, isTarget, earlier⟩ := find?_eq_some_iff_first.mp found
        have called :=
          dbDelete_found io data db id rows more record closed recordsEq earlier isTarget
        dsimp only at called
        rw [diskKeepsUp_of_found closed found]
        by_cases stays : asLong (record.byteOffset + 8) < 0 ∨ io = .seekFailed
        · rw [if_pos stays] at called
          refine iff_of_false (not_allOrNothing_of_marked called recordsEq isTarget rfl) ?_
          rintro ⟨seeks, positive, -⟩
          rcases stays with negative | failed
          · omega
          · exact seeks failed
        · rw [if_neg stays] at called
          obtain ⟨notNegative, seeks⟩ := not_or.mp stays
          have positive := Int.not_lt.mp notNegative
          rw [and_iff_right seeks, and_iff_right positive]
          cases io with
          | seekFailed => exact absurd rfl seeks
          | ok =>
              refine iff_of_true ?_ (fun impossible => by cases impossible)
              rw [allOrNothing_of_done called recordsEq isTarget earlier rfl, flagOnDisk,
                ← asLong_toNat positive]
              exact flagAt_writeAt _ _
          | patchFailed =>
              exact iff_of_true (allOrNothing_of_failed called rfl)
                (fun impossible => by cases impossible)
          | writeBackLost =>
              rw [allOrNothing_of_done called recordsEq isTarget earlier rfl]
              exact ⟨fun onDisk _ => onDisk, fun lost => lost rfl⟩

/-- A failed seek leaves the record deleted in memory, and a lost write-back leaves
it live in the file of a call that reports success. -/
theorem delete_parts_memory_and_file :
    ((dbDelete .seekFailed pairFile pairTable 7).1 = -1 ∧
        (dbDelete .seekFailed pairFile pairTable 7).2.2.records.map Record.isDeleted =
          [true, false] ∧
            ¬AllOrNothing .seekFailed pairFile pairTable 7) ∧
      ((dbDelete .writeBackLost pairFile pairTable 7).1 = 0 ∧
        (dbDelete .writeBackLost pairFile pairTable 7).2.1 = pairFile ∧
          ¬AllOrNothing .writeBackLost pairFile pairTable 7) := by
  refine ⟨⟨rfl, rfl, ?_⟩, rfl, rfl, ?_⟩
  · intro both
    have changed := (both.failed rfl).1
    exact absurd (congrArg (List.map Record.isDeleted) changed) (by decide)
  · intro both
    obtain ⟨rows, record, more, split, isTarget, -, -, onDisk⟩ := both.done rfl
    have member : record ∈ pairTable.records := by
      rw [split]
      exact List.mem_append_right _ (List.mem_cons_self ..)
    have offDisk : ∀ other ∈ pairTable.records, flagOnDisk pairFile other = false := by decide
    have cleared : flagOnDisk pairFile record = false := offDisk record member
    change flagOnDisk pairFile record = true at onDisk
    rw [cleared] at onDisk
    cases onDisk

end OriginDb
