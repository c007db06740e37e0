/-
One table in memory and its directory: `db.c` without the searches.

A table's files are the fields of a `TableDir`.  `recordsBytes` is the size of
the allocation behind `db->records`, computed as the source does in wrapping
64-bit arithmetic; a store past it is undefined behaviour and makes the function
return `none`.  The count of records is the length of the list.
-/

import OriginDb.PendingDelete
import OriginDb.Storage

namespace OriginDb

open Foundation

inductive MetricType where
  | cosine
  | euclidean
deriving DecidableEq

/-- `get_distance` on the stored metric: anything but 1 falls back to cosine. -/
def getDistance (metric : UInt32) : MetricType :=
  if metric = 1 then .euclidean else .cosine

/-- The files of `origin_data/<table>/`; `none` is a file that does not exist. -/
structure TableDir where
  metaBin : Option (List UInt8)
  dataDb : Option (List UInt8)
  pendingBin : Option (List UInt8)
  autoDeleteSchedule : Option (List UInt8)
  ivfIndex : Option (List UInt8)
deriving DecidableEq

structure FlatDb where
  dimension : UInt64
  capacity : UInt64
  records : List Record
  recordsBytes : UInt64
  calculateDistance : MetricType
  storage : Storage
  pendingDeletes : Option (List UInt64)
  pendingCount : Nat
deriving DecidableEq

/-- Whether the record array can hold `count` entries. -/
def hasRoom (bytes : UInt64) (count : Nat) : Bool :=
  decide (sizeofRecord.toNat * count ≤ bytes.toNat)

/-! ### Opening -/

/-- `isalnum` in the C locale. -/
def isalnum (char : UInt8) : Bool :=
  (48 ≤ char && char ≤ 57) || (65 ≤ char && char ≤ 90) || (97 ≤ char && char ≤ 122)

def validateDbName (name : CString) : Bool :=
  !(name.strlen == 0 || name.strlen > 64) &&
    name.bytes.all (fun char => isalnum char || char == 95 || char == 45)

/-- `meta.bin` as `db_init` writes it. -/
def encodeMeta (dimension : UInt64) (metric : UInt32) : List UInt8 :=
  LittleEndian.encode 8 dimension.toNat ++ LittleEndian.encode 4 metric.toNat

/-- The load loop of `db_init` with its growth of the record array.  `none` is
a store outside the array, or a loop that has not ended within `fuel` rounds. -/
def loadRecords (data : List UInt8) : Nat → FlatDb → Option FlatDb
  | 0, _ => none
  | fuel + 1, db =>
      match storageLoadRecord data db.storage db.dimension with
      | (.error _, storage) => some { db with storage := storage }
      | (.ok record, storage) =>
          let grown :=
            if db.records.length = db.capacity.toNat then
              let newCapacity := if db.capacity = 0 then 8 else db.capacity * 2
              { db with
                capacity := newCapacity
                recordsBytes := sizeofRecord * newCapacity }
            else db
          if hasRoom grown.recordsBytes (grown.records.length + 1) then
            loadRecords data fuel
              { grown with
                records := grown.records ++ [record]
                storage := storage }
          else none

/-- `db_init`: the directory afterwards and the table, or NULL for a refused name. -/
def dbInit (fuel : Nat) (name : CString) (dimension initialCapacity : UInt64) (metric : UInt32)
    (dir : TableDir) : Option (TableDir × Option FlatDb) :=
  if validateDbName name then
    let data := dir.dataDb.getD []
    let opened :=
      { dir with
        dataDb := some data
        metaBin := some (dir.metaBin.getD (encodeMeta dimension metric)) }
    let (pending, count) := loadPendingDeletes dir.pendingBin
    (loadRecords data fuel
      { dimension := dimension
        capacity := initialCapacity
        records := []
        recordsBytes := sizeofRecord * initialCapacity
        calculateDistance := getDistance metric
        storage := storageInit data
        pendingDeletes := pending
        pendingCount := count }).map fun db => (opened, some db)
  else some (dir, none)

/-- `db_open`: a table exists when its `meta.bin` does. -/
def dbOpen (fuel : Nat) (name : CString) (dir : TableDir) : Option (TableDir × Option FlatDb) :=
  if validateDbName name then
    match dir.metaBin with
    | none => some (dir, none)
    | some file =>
        if file.length < 12 then some (dir, none)
        else dbInit fuel name (u64At file 0) 10 (u32At file 8) dir
  else some (dir, none)

/-! ### Inserting -/

/-- The growth step of `db_insert`.  A request for zero bytes makes `realloc`
release the array and return NULL. -/
def growForInsert (db : FlatDb) : FlatDb × Bool :=
  if db.records.length = db.capacity.toNat then
    let newCapacity := db.capacity * 2
    let bytes := sizeofRecord * newCapacity
    if bytes = 0 then ({ db with recordsBytes := 0 }, false)
    else ({ db with capacity := newCapacity, recordsBytes := bytes }, true)
  else (db, true)

/-- `db_insert`: return value, data file and table. -/
def dbInsert (io : WriteIO) (data : List UInt8) (db : FlatDb) (id : UInt32)
    (vector : List UInt32) (metadata : Option CString) :
    Option (Int × List UInt8 × FlatDb) :=
  match growForInsert db with
  | (released, false) => some (-1, data, released)
  | (grown, true) =>
      if hasRoom grown.recordsBytes (grown.records.length + 1) ∧
          db.dimension.toNat ≤ vector.length then
        let (offset, sought) := storageCurrentOffset data grown.storage
        let record : Record :=
          { id := id.toUInt64
            vector := .heap (vector.take db.dimension.toNat)
            metadata := metadata
            isDeleted := false
            byteOffset := offset
            isMmap := false }
        match storageWriteRecord io data sought record db.dimension with
        | none => none
        | some (code, file, storage) =>
            if code < 0 then some (-1, file, { grown with storage := storage })
            else
              some (0, file,
                { grown with
                  records := grown.records ++ [record]
                  storage := storage })
      else none

/-! ### Deleting -/

/-- Outcome of the disk operations of one `db_delete`: the seek on the table's
stream fails, opening, seeking or writing through the second handle fails, the
byte is lost when that handle is closed, or everything succeeds. -/
inductive DeleteIO where
  | ok
  | seekFailed
  | patchFailed
  | writeBackLost
deriving DecidableEq

def Record.setDeleted (record : Record) : Record := { record with isDeleted := true }

/-- The record `db_delete` acts on: the first live one with the id. -/
def isDeleteTarget (id : UInt64) (record : Record) : Bool :=
  record.id == id && !record.isDeleted

/-- `db_delete` with `storage_patch_flag`.  When the first seek fails, the flag
in memory has been set and stays set. -/
def dbDelete (io : DeleteIO) (data : List UInt8) (db : FlatDb) (id : UInt64) :
    Int × List UInt8 × FlatDb :=
  if db.storage.fp = none then (-1, data, db)
  else
    match db.records.findIdx? (isDeleteTarget id) with
    | none => (-1, data, db)
    | some index =>
        let flagged := { db with records := db.records.modify index Record.setDeleted }
        let byteOffset := ((db.records[index]?).getD Record.blank).byteOffset
        let flagOffset := asLong (byteOffset + 8)
        if flagOffset < 0 ∨ io = .seekFailed then (-1, data, flagged)
        else
          let sought := db.storage.seekSet flagOffset
          match io with
          | .ok =>
              (0, writeAt data flagOffset.toNat [1], { flagged with storage := sought })
          | .writeBackLost => (0, data, { flagged with storage := sought })
          | _ => (-1, data, { db with storage := sought })

/-! ### Compacting -/

/-- `db_compact`: the array is shrunk to the records that are left. -/
def dbCompact (io : CompactIO) (data : List UInt8) (db : FlatDb) :
    Option (Int × List UInt8 × FlatDb) :=
  (storageCompact io data db.storage db.records db.dimension).map
    fun (code, file, storage, records) =>
      if code ≠ 0 then (-1, file, { db with storage := storage })
      else
        let newCapacity : UInt64 :=
          if 0 < records.length then UInt64.ofNat records.length else 1
        (0, file,
          { db with
            records := records
            capacity := newCapacity
            recordsBytes := sizeofRecord * newCapacity
            storage := storage })

/-! ### The scheduled execution of the queue -/

/-- The value of a `uint64_t` converted to `int`. -/
def asInt (value : Nat) : Int :=
  if value % 2 ^ 32 < 2 ^ 31 then (value % 2 ^ 32 : Nat) else (value % 2 ^ 32 : Nat) - 2 ^ 32

/-- The loop that deletes every loaded id; `ios index` is the outcome of the
disk operations of the call at `index`.  Returns the number of successes. -/
def deleteLoop (ios : Nat → DeleteIO) : List UInt64 → Nat → List UInt8 → FlatDb →
    List UInt8 × FlatDb × Nat
  | [], _, data, db => (data, db, 0)
  | id :: rest, index, data, db =>
      let (code, file, next) := dbDelete (ios index) data db id
      let (finalData, finalDb, successes) := deleteLoop ios rest (index + 1) file next
      (finalData, finalDb, if code = 0 then successes + 1 else successes)

/-- Outcomes of the file operations of one execution of the queue. -/
structure ExecuteIO where
  deletes : Nat → DeleteIO
  clears : Bool
  compact : CompactIO

def ExecuteIO.ok : ExecuteIO where
  deletes := fun _ => .ok
  clears := true
  compact := .ok

/-- `check_and_run_auto_delete` at clock time `now`. -/
def checkAndRunAutoDelete (io : ExecuteIO) (now : UInt64) (dir : TableDir) (db : FlatDb) :
    Option (Int × TableDir × FlatDb) :=
  let scheduledTime := getAutoDeleteSchedule dir.autoDeleteSchedule
  if scheduledTime = 0 then some (0, dir, db)
  else if now < scheduledTime then some (0, dir, db)
  else
    match loadPendingDeletes dir.pendingBin with
    | (some ids, _) =>
        let (data, deleted, successes) := deleteLoop io.deletes ids 0 (dir.dataDb.getD []) db
        let cleared :=
          { dir with
            dataDb := some data
            pendingBin := (clearPendingDeletes io.clears dir.pendingBin).2
            autoDeleteSchedule := none }
        if 0 < successes then
          (dbCompact io.compact data deleted).map fun (_, file, compacted) =>
            (asInt successes, { cleared with dataDb := some file }, compacted)
        else some (asInt successes, cleared, deleted)
    | (none, _) => some (0, { dir with autoDeleteSchedule := none }, db)

end OriginDb
