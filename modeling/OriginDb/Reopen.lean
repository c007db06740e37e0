/-
Reopening a table from disk.

`storage_init` measures the data file by seeking to its end and leaves the
stream there, while the load loop of `db_init` reads from the stream position.
The loop therefore stops at its first call, whatever the file holds, and the
reopened table is empty.
-/

import OriginDb.Db
import OriginDb.RecordScan

namespace OriginDb

open Foundation

/-- The two ways a table is opened again. -/
inductive Reopen where
  | viaInit (initialCapacity : UInt64) (metric : UInt32)
  | viaOpen

def Reopen.run (how : Reopen) (fuel : Nat) (name : CString) (dimension : UInt64)
    (dir : TableDir) : Option (TableDir × Option FlatDb) :=
  match how with
  | .viaInit initialCapacity metric => dbInit fuel name dimension initialCapacity metric dir
  | .viaOpen => dbOpen fuel name dir

variable {dimension : UInt64}

/-- The directory of a table whose data file was written record by record. -/
def writtenTable (metric : UInt32) (stored : List (StoredRecord dimension))
    (others : TableDir) : TableDir :=
  { others with
    metaBin := some (encodeMeta dimension metric)
    dataDb := some (stored.flatMap StoredRecord.encode) }

/-- The records of the reopened table are those of the file, in order and at
their offsets. -/
def HoldsRecords (stored : List (StoredRecord dimension)) (data : List UInt8)
    (db : FlatDb) : Prop :=
  db.records.length = stored.length ∧
    ∀ index record, stored[index]? = some record →
      ∃ loaded, db.records[index]? = some loaded ∧
        loaded.contents data db.storage dimension = some record.canon ∧
        loaded.byteOffset.toNat =
          ((stored.take index).flatMap StoredRecord.encode).length

/-- Compacting the reopened table leaves every live record in the new file. -/
def CompactionKeepsLive (stored : List (StoredRecord dimension)) (data : List UInt8)
    (db : FlatDb) : Prop :=
  ∃ file compacted, dbCompact .ok data db = some (0, file, compacted) ∧
    ∀ record ∈ stored, record.isDeleted = false →
      ∃ fuel records code final,
        loadAll file dimension fuel (Storage.openAt file 0) = some (records, code, final) ∧
          ∃ found ∈ records,
            found.contents file (Storage.openAt file 0) dimension = some record.canon

def ReopensFaithfully (name : CString) (metric : UInt32)
    (stored : List (StoredRecord dimension)) (others : TableDir) (how : Reopen) : Prop :=
  let data := stored.flatMap StoredRecord.encode
  ∃ fuel dir db,
    how.run fuel name dimension (writtenTable metric stored others) = some (dir, some db) ∧
      HoldsRecords stored data db ∧ CompactionKeepsLive stored data db

/-! ### The load loop stops at once -/

theorem storageInit_fp (data : List UInt8) : (storageInit data).fp = some data.length := by
  unfold storageInit Storage.mapFile
  split <;> rfl

theorem storageInit_fileSize (data : List UInt8) :
    (storageInit data).fileSize = UInt64.ofNat data.length := by
  unfold storageInit Storage.mapFile
  split <;> rfl

theorem storageLoadRecord_storageInit (dimension : UInt64) (data : List UInt8) :
    ∃ code, storageLoadRecord data (storageInit data) dimension =
      (.error code, storageInit data) := by
  cases mapped : (storageInit data).mmapData with
  | none => exact ⟨-1, by simp only [storageLoadRecord, mapped]⟩
  | some mapping =>
      refine ⟨0, ?_⟩
      simp only [storageLoadRecord, mapped, storageInit_fp, storageInit_fileSize,
        UInt64.le_refl, if_true]

theorem loadRecords_storageInit (data : List UInt8) (fuel : Nat) (db : FlatDb)
    (fresh : db.storage = storageInit data) :
    loadRecords data (fuel + 1) db = some db := by
  obtain ⟨code, stopped⟩ := storageLoadRecord_storageInit db.dimension data
  simp only [loadRecords, fresh, stopped]
  rw [← fresh]

/-- The directory once `db_init` has made sure of its two files. -/
def openedDir (dimension : UInt64) (metric : UInt32) (dir : TableDir) : TableDir :=
  { dir with
    dataDb := some (dir.dataDb.getD [])
    metaBin := some (dir.metaBin.getD (encodeMeta dimension metric)) }

/-- Whatever the data file holds, `db_init` returns a table without records. -/
theorem dbInit_eq (dimension : UInt64) (fuel : Nat) (name : CString)
    (initialCapacity : UInt64) (metric : UInt32) (dir : TableDir)
    (valid : validateDbName name = true) :
    ∃ db, dbInit (fuel + 1) name dimension initialCapacity metric dir =
        some (openedDir dimension metric dir, some db) ∧
      db.records = [] ∧ db.dimension = dimension ∧
        db.storage = storageInit (dir.dataDb.getD []) := by
  simp only [dbInit, valid, if_true]
  rw [loadRecords_storageInit _ _ _ rfl]
  exact ⟨_, rfl, rfl, rfl, rfl⟩

theorem encodeMeta_length (dimension : UInt64) (metric : UInt32) :
    (encodeMeta dimension metric).length = 12 := by
  simp only [encodeMeta, List.length_append, LittleEndian.encode_length]

theorem u64At_encodeMeta (dimension : UInt64) (metric : UInt32) :
    u64At (encodeMeta dimension metric) 0 = dimension :=
  u64At_append [] _ dimension

/-- Both ways of reopening come down to a `db_init` of the same dimension. -/
theorem Reopen.run_eq_dbInit (how : Reopen) (name : CString) (metric : UInt32)
    (stored : List (StoredRecord dimension)) (others : TableDir)
    (valid : validateDbName name = true) :
    ∃ capacity metric', ∀ fuel,
      how.run fuel name dimension (writtenTable metric stored others) =
        dbInit fuel name dimension capacity metric' (writtenTable metric stored others) := by
  cases how with
  | viaInit initialCapacity metric' => exact ⟨initialCapacity, metric', fun _ => rfl⟩
  | viaOpen =>
      refine ⟨10, u32At (encodeMeta dimension metric) 8, ?_⟩
      intro fuel
      have complete : ¬(encodeMeta dimension metric).length < 12 := by
        rw [encodeMeta_length]
        decide
      simp only [Reopen.run, dbOpen, valid, if_true, writtenTable, if_neg complete,
        u64At_encodeMeta]

/-- A table without records in memory is compacted to an empty file. -/
theorem dbCompact_of_no_records (data : List UInt8) (db : FlatDb) (noRecords : db.records = []) :
    ∃ compacted, dbCompact .ok data db = some (0, [], compacted) := by
  simp only [dbCompact, storageCompact, noRecords, compactCopy, Option.map_some, List.map_nil,
    ne_eq, not_true_eq_false, if_false]
  exact ⟨_, rfl⟩

/-- No record is in memory after a table has been opened again. -/
theorem Reopen.run_records_nil (how : Reopen) (fuel : Nat) (name : CString) (metric : UInt32)
    (stored : List (StoredRecord dimension)) (others dir : TableDir) (db : FlatDb)
    (valid : validateDbName name = true)
    (opened : how.run fuel name dimension (writtenTable metric stored others) =
      some (dir, some db)) :
    db.records = [] := by
  obtain ⟨capacity, metric', runEq⟩ := how.run_eq_dbInit name metric stored others valid
  cases fuel with
  | zero => simp only [runEq, dbInit, valid, if_true, loadRecords, Option.map_none,
      reduceCtorEq] at opened
  | succ fuel =>
      obtain ⟨db', openedEq, noRecords, -⟩ :=
        dbInit_eq dimension fuel name capacity metric'
          (writtenTable metric stored others) valid
      rw [runEq, openedEq] at opened
      obtain ⟨-, sameDb⟩ := Prod.mk.inj (Option.some.inj opened)
      cases Option.some.inj sameDb
      exact noRecords

theorem reopen_faithful_iff (name : CString) (metric : UInt32)
    (stored : List (StoredRecord dimension)) (others : TableDir) (how : Reopen)
    (valid : validateDbName name = true) :
    ReopensFaithfully name metric stored others how ↔ stored = [] := by
  constructor
  · intro reopens
    rcases reopens with ⟨fuel, dir, db, opened, ⟨countEq, -⟩, -⟩
    rw [how.run_records_nil fuel name metric stored others dir db valid opened] at countEq
    exact List.eq_nil_of_length_eq_zero countEq.symm
  · intro empty
    subst empty
    obtain ⟨capacity, metric', runEq⟩ := how.run_eq_dbInit name metric [] others valid
    obtain ⟨db, openedEq, noRecords, -⟩ :=
      dbInit_eq dimension 0 name capacity metric' (writtenTable metric [] others)
        valid
    refine ⟨1, _, db, (runEq 1).trans openedEq, ⟨?_, ?_⟩, ?_⟩
    · rw [noRecords]
      rfl
    · intro index record found
      simp only [List.getElem?_nil, reduceCtorEq] at found
    · obtain ⟨compacted, compactedEq⟩ := dbCompact_of_no_records [] db noRecords
      refine ⟨[], compacted, compactedEq, ?_⟩
      intro record member
      cases member

/-! ### A table with one record -/

def moviesName : CString := ⟨[109, 111, 118, 105, 101, 115], by decide⟩

def emptyDir : TableDir where
  metaBin := none
  dataDb := none
  pendingBin := none
  autoDeleteSchedule := none
  ivfIndex := none

theorem reopen_of_empty_table :
    validateDbName moviesName = true ∧
      (ReopensFaithfully moviesName 1 ([] : List (StoredRecord 1)) emptyDir .viaOpen ↔
        ([] : List (StoredRecord 1)) = []) :=
  ⟨by decide, reopen_faithful_iff moviesName 1 [] emptyDir .viaOpen (by decide)⟩

theorem reopen_loses_single_record :
    ¬ReopensFaithfully moviesName 1 [sampleRecord] emptyDir .viaOpen := by
  intro reopens
  rcases reopens with ⟨fuel, dir, db, opened, ⟨countEq, -⟩, -⟩
  rw [Reopen.viaOpen.run_records_nil fuel moviesName 1 [sampleRecord] emptyDir dir db
    (by decide) opened] at countEq
  exact absurd countEq (by decide)

end OriginDb
