/-
Pointers into the mapping of the data file.

`storage_load_record` hands out addresses inside the mapping.  Three functions
replace the mapping: `storage_remap`, a compaction that succeeds and one whose
swap fails.  Only the second also moves the pointers.  Every mapping has an
identity of its own here, so a pointer into a mapping that has been replaced
differs from every pointer into the current one.
-/

import OriginDb.DecodingBounds
import OriginDb.Foundation.GuardedRun

namespace OriginDb

open Foundation

variable {dimension : UInt64}

/-- The storage side of a table. -/
structure MappedTable where
  data : List UInt8
  storage : Storage
  records : List Record

/-- `remap file` is `storage_remap` at a time when the data file holds `file`. -/
inductive MappingAction where
  | write (record : Record) (io : WriteIO)
  | remap (file : List UInt8)
  | compact (io : CompactIO)

def mappingStep (dimension : UInt64) (table : MappedTable) : MappingAction → Option MappedTable
  | .write record io =>
      (storageWriteRecord io table.data table.storage record dimension).map
        fun (_, file, storage) =>
          { table with
            data := file
            storage := storage }
  | .remap file =>
      some
        { table with
          data := file
          storage := (storageRemap file table.storage).2 }
  | .compact io =>
      (storageCompact io table.data table.storage table.records dimension).map
        fun (_, file, storage, records) =>
          { data := file
            storage := storage
            records := records }

/-- The vector of a record is in the current mapping, all of it. -/
def PointsIntoMapping (dimension : UInt64) (storage : Storage) (record : Record) : Prop :=
  (∃ mapping, storage.mmapData = some mapping ∧
    record.vector = .mapped mapping (record.byteOffset.toNat + 24)) ∧
    record.byteOffset.toNat + 24 + 4 * dimension.toNat ≤ storage.fileSize.toNat

def MappedCurrent (dimension : UInt64) (table : MappedTable) : Prop :=
  ∀ record ∈ table.records, record.isMmap = true →
    PointsIntoMapping dimension table.storage record

/-! ### What the steps must find -/

def NoneMapped (records : List Record) : Prop := ∀ record ∈ records, record.isMmap = false

/-- The size of the file that a compaction would write. -/
def compactedSize (dimension : UInt64) (table : MappedTable) : Option Nat :=
  (compactCopy table.data table.storage dimension table.records []).map
    fun (_, file) => file.length

/-- A replacement of the mapping finds no pointer into it, except where the
compaction moves the pointers; what it writes stays in the range of a file offset. -/
def MappingSafe (dimension : UInt64) (table : MappedTable) : MappingAction → Prop
  | .write _ _ => True
  | .remap file =>
      table.storage.fp = none ∨ UInt64.ofNat file.length = table.storage.fileSize ∨
        NoneMapped table.records
  | .compact .ok => ∀ size ∈ compactedSize dimension table, size < 2 ^ 63
  | .compact .writeFailed => True
  | .compact (.renameFailed _) => NoneMapped table.records
  | .compact .reopenFailed => NoneMapped table.records

/-- The sizes that the headers of the loaded records announce do not wrap. -/
def HeaderSizesFit (dimension : UInt64) (data : List UInt8) (records : List Record) : Prop :=
  ∀ record ∈ records, record.byteOffset.toNat + 24 + 4 * dimension.toNat +
    (u64At data (record.byteOffset.toNat + 16)).toNat + 7 < 2 ^ 64

instance (records : List Record) : Decidable (NoneMapped records) :=
  inferInstanceAs (Decidable (∀ _ ∈ _, _))

instance (dimension : UInt64) (data : List UInt8) (records : List Record) :
    Decidable (HeaderSizesFit dimension data records) :=
  inferInstanceAs (Decidable (∀ _ ∈ _, _))

instance (table : MappedTable) (action : MappingAction) :
    Decidable (MappingSafe dimension table action) :=
  match action with
  | .write _ _ => isTrue trivial
  | .remap _ => inferInstanceAs (Decidable (_ ∨ _))
  | .compact .ok => inferInstanceAs (Decidable (∀ _ ∈ _, _))
  | .compact .writeFailed => isTrue trivial
  | .compact (.renameFailed _) => inferInstanceAs (Decidable (NoneMapped _))
  | .compact .reopenFailed => inferInstanceAs (Decidable (NoneMapped _))

theorem MappedCurrent.of_noneMapped {table : MappedTable} (none : NoneMapped table.records) :
    MappedCurrent dimension table := by
  intro record member mapped
  rw [none record member] at mapped
  cases mapped

/-! ### Loading -/

theorem PointsIntoMapping.of_same {storage storage' : Storage} {record : Record}
    (points : PointsIntoMapping dimension storage record)
    (mapping : storage'.mmapData = storage.mmapData)
    (size : storage'.fileSize = storage.fileSize) :
    PointsIntoMapping dimension storage' record := by
  unfold PointsIntoMapping at points ⊢
  rw [mapping, size]
  exact points

theorem loadAll_points {data : List UInt8} {fuel : Nat} {storage final : Storage}
    {records : List Record} {code : Int} {position : Nat} (cursor : storage.fp = some position)
    (inRange : position < 2 ^ 64) (small : storage.fileSize.toNat < 2 ^ 63)
    (loaded : loadAll data dimension fuel storage = some (records, code, final))
    (fits : HeaderSizesFit dimension data records) :
    ∃ after, final = { storage with fp := after } ∧
      ∀ record ∈ records, PointsIntoMapping dimension storage record := by
  induction fuel generalizing storage records position with
  | zero => cases loaded
  | succ fuel ih =>
      rcases loadAll_succ_cases loaded with
        ⟨stopped, rfl⟩ | ⟨record, next, rest, called, rfl, later⟩
      · rw [storageLoadRecord_error stopped]
        refine ⟨storage.fp, rfl, ?_⟩
        intro record member
        cases member
      · obtain ⟨offsetEq, ⟨mapping, mapped, vectorEq⟩, after, nextEq, endLe, inside⟩ :=
          storageLoadRecord_moves cursor inRange small called
            (fits record (List.mem_cons_self ..))
        rw [nextEq] at later
        have cursorAfter : ({ storage with fp := some after } : Storage).fp = some after := rfl
        obtain ⟨ended, finalEq, restPoint⟩ := ih cursorAfter (by omega) small later
          (fun other member => fits other (List.mem_cons_of_mem _ member))
        refine ⟨ended, finalEq, ?_⟩
        intro other member
        rcases List.mem_cons.mp member with same | inRest
        · subst same
          unfold recordEnd at endLe
          constructor
          · rw [offsetEq]
            exact ⟨mapping, mapped, vectorEq⟩
          · omega
        · exact restPoint other inRest

/-! ### The new file of a compaction -/

/-- Every kept record has its place in the file that the copy loop writes. -/
theorem compactCopy_inside {data file : List UInt8} {storage : Storage} {records : List Record}
    {out : List UInt8} {kept : List (Record × UInt64)}
    (copied : compactCopy data storage dimension records out = some (kept, file)) :
    out.length ≤ file.length ∧ ∀ row ∈ kept, ∃ position, row.2 = UInt64.ofNat position ∧
      position + 24 + 4 * dimension.toNat ≤ file.length := by
  induction records generalizing out kept with
  | nil =>
      cases copied
      constructor
      · exact Nat.le_refl _
      · intro row member
        cases member
  | cons record rest ih =>
      rw [compactCopy] at copied
      split at copied
      · exact ih copied
      · split at copied
        · cases copied
        · rename_i stored _
          obtain ⟨⟨later, last⟩, copiedRest, shape⟩ := Option.map_eq_some_iff.mp copied
          cases shape
          obtain ⟨longer, inside⟩ := ih copiedRest
          have frameEq : compactFrame stored = stored.encode := rfl
          rw [List.length_append, frameEq, stored.encode_length_eq] at longer
          unfold StoredRecord.used at longer
          constructor
          · omega
          · intro row member
            rcases List.mem_cons.mp member with same | inLater
            · subst same
              exact ⟨out.length, rfl, by omega⟩
            · exact inside row inLater

theorem compactRebase_points {file : List UInt8} {closed : Storage} {row : Record × UInt64}
    {position : Nat} (small : file.length < 2 ^ 63)
    (offsetEq : row.2 = UInt64.ofNat position)
    (inside : position + 24 + 4 * dimension.toNat ≤ file.length)
    (mapped : (compactRebase (closed.mapFile (UInt64.ofNat file.length)) row).isMmap = true) :
    PointsIntoMapping dimension (closed.mapFile (UInt64.ofNat file.length))
      (compactRebase (closed.mapFile (UInt64.ofNat file.length)) row) := by
  have sizeEq : (UInt64.ofNat file.length).toNat = file.length := by
    rw [UInt64.toNat_ofNat']
    omega
  have positionEq : (UInt64.ofNat position).toNat = position := by
    rw [UInt64.toNat_ofNat']
    omega
  have header : recordHeaderBytes.toNat = 24 := rfl
  have startEq : (row.2 + recordHeaderBytes).toNat = row.2.toNat + 24 := by
    rw [UInt64.toNat_add, offsetEq, positionEq, header]
    omega
  have fileSizeEq : (closed.mapFile (UInt64.ofNat file.length)).fileSize.toNat = file.length := by
    unfold Storage.mapFile
    split
    · exact sizeEq
    · exact sizeEq
  unfold compactRebase at mapped ⊢
  split at mapped
  · rename_i mapping _ found
    constructor
    · exact ⟨mapping, found, by rw [startEq]⟩
    · rw [fileSizeEq]
      change row.2.toNat + 24 + 4 * dimension.toNat ≤ file.length
      rw [offsetEq, positionEq]
      exact inside
  · cases mapped

/-! ### Steps and runs -/

theorem storageWriteRecord_mapping {io : WriteIO} {data file : List UInt8}
    {storage storage' : Storage} {record : Record} {code : Int}
    (wrote : storageWriteRecord io data storage record dimension = some (code, file, storage')) :
    storage'.mmapData = storage.mmapData ∧ storage'.fileSize = storage.fileSize := by
  unfold storageWriteRecord at wrote
  split at wrote
  · cases wrote
    exact ⟨rfl, rfl⟩
  · split at wrote
    · cases wrote
    · cases io with
      | ok =>
          cases wrote
          exact ⟨rfl, rfl⟩
      | failed appended =>
          cases wrote
          exact ⟨rfl, rfl⟩

/-- A remap that finds its size unchanged, or no open stream, leaves the mapping. -/
theorem storageRemap_mapping {file : List UInt8} {storage : Storage}
    (stays : storage.fp = none ∨ UInt64.ofNat file.length = storage.fileSize) :
    (storageRemap file storage).2.mmapData = storage.mmapData ∧
      (storageRemap file storage).2.fileSize = storage.fileSize := by
  unfold storageRemap
  split
  · exact ⟨rfl, rfl⟩
  · rename_i stream
    rcases stays with closed | same
    · rw [closed] at stream
      cases stream
    · dsimp only
      rw [if_pos same]
      exact ⟨rfl, rfl⟩

theorem mappingStep_current (table : MappedTable) (action : MappingAction) (next : MappedTable)
    (current : MappedCurrent dimension table) (safe : MappingSafe dimension table action)
    (stepped : mappingStep dimension table action = some next) :
    MappedCurrent dimension next := by
  cases action with
  | write record io =>
      obtain ⟨⟨code, file, storage⟩, wrote, shape⟩ := Option.map_eq_some_iff.mp stepped
      cases shape
      obtain ⟨mappingEq, sizeEq⟩ := storageWriteRecord_mapping wrote
      intro other member mapped
      exact (current other member mapped).of_same mappingEq sizeEq
  | remap file =>
      cases stepped
      rcases safe with closed | same | none
      · obtain ⟨mappingEq, sizeEq⟩ := storageRemap_mapping (Or.inl closed)
        intro other member mapped
        exact (current other member mapped).of_same mappingEq sizeEq
      · obtain ⟨mappingEq, sizeEq⟩ := storageRemap_mapping (Or.inr same)
        intro other member mapped
        exact (current other member mapped).of_same mappingEq sizeEq
      · exact MappedCurrent.of_noneMapped none
  | compact io =>
      obtain ⟨⟨code, file, storage, records⟩, compacted, shape⟩ :=
        Option.map_eq_some_iff.mp stepped
      cases shape
      cases io with
      | ok =>
          obtain ⟨⟨kept, copied⟩, copiedEq, shape⟩ := Option.map_eq_some_iff.mp compacted
          cases shape
          have small : file.length < 2 ^ 63 := by
            apply safe file.length
            simp only [compactedSize, copiedEq, Option.map_some, Option.mem_def]
          intro other member mapped
          obtain ⟨row, inKept, rfl⟩ := List.mem_map.mp member
          obtain ⟨position, offsetEq, inside⟩ := (compactCopy_inside copiedEq).2 row inKept
          exact compactRebase_points small offsetEq inside mapped
      | writeFailed =>
          cases compacted
          exact current
      | renameFailed reopened =>
          obtain ⟨copied, -, shape⟩ := Option.map_eq_some_iff.mp compacted
          cases shape
          exact MappedCurrent.of_noneMapped safe
      | reopenFailed =>
          obtain ⟨copied, -, shape⟩ := Option.map_eq_some_iff.mp compacted
          cases shape
          exact MappedCurrent.of_noneMapped safe

theorem mapped_vectors_stay_current {data : List UInt8} {start fuel : Nat}
    {records : List Record} {code : Int} {storage : Storage} (small : data.length < 2 ^ 63)
    (inside : start ≤ data.length)
    (loaded : loadAll data dimension fuel (Storage.openAt data start) =
      some (records, code, storage))
    (fits : HeaderSizesFit dimension data records) (actions : List MappingAction)
    (safe : GuardedRun.Admits (mappingStep dimension) (MappingSafe dimension)
      ⟨data, storage, records⟩ actions) :
    GuardedRun.Throughout (mappingStep dimension) (MappedCurrent dimension)
      ⟨data, storage, records⟩ actions := by
  have sizeSmall : (Storage.openAt data start).fileSize.toNat < 2 ^ 63 := by
    rw [openAt_fileSize small]
    exact small
  obtain ⟨after, finalEq, points⟩ := loadAll_points rfl (by omega) sizeSmall loaded fits
  have startCurrent : MappedCurrent dimension ⟨data, storage, records⟩ := by
    intro record member _
    exact (points record member).of_same (by rw [finalEq]) (by rw [finalEq])
  exact GuardedRun.throughout_of_step mappingStep_current (fun _ current => current)
    startCurrent safe

/-! ### A table with one loaded record -/

def loadedSample : Record where
  id := 7
  vector := .mapped 0 24
  metadata := none
  isDeleted := false
  byteOffset := 0
  isMmap := true

def loadedHandle : Storage where
  fp := some 32
  mmapData := some 0
  fileSize := 32
  mappings := 1

theorem sample_loads :
    loadAll sampleRecord.encode 1 2 (Storage.openAt sampleRecord.encode 0) =
      some ([loadedSample], 0, loadedHandle) := by
  decide +kernel

def heapSample : Record := { loadedSample with vector := .heap [1065353216], isMmap := false }

/-- The record is written once more, and the file compacted. -/
def compactedRun : List MappingAction :=
  [.write heapSample .ok, .compact .writeFailed, .compact .ok, .remap sampleRecord.encode,
    .write heapSample .ok]

theorem mapped_vectors_stay_current_compact :
    GuardedRun.Throughout (mappingStep 1) (MappedCurrent 1)
      ⟨sampleRecord.encode, loadedHandle, [loadedSample]⟩ compactedRun :=
  mapped_vectors_stay_current (by decide +kernel) (Nat.zero_le _) sample_loads
    (by decide +kernel) compactedRun (by decide +kernel)

/-- One record appended and the file mapped again: the pointer of the loaded
record leads into the mapping that is gone. -/
theorem remap_leaves_pointer_behind :
    loadAll sampleRecord.encode 1 2 (Storage.openAt sampleRecord.encode 0) =
        some ([loadedSample], 0, loadedHandle) ∧
      ¬GuardedRun.Throughout (mappingStep 1) (MappedCurrent 1)
        ⟨sampleRecord.encode, loadedHandle, [loadedSample]⟩
        [.write heapSample .ok, .remap (sampleRecord.encode ++ sampleRecord.encode)] := by
  constructor
  · exact sample_loads
  · intro always
    have computed : (GuardedRun.run (mappingStep 1)
        ⟨sampleRecord.encode, loadedHandle, [loadedSample]⟩
        [.write heapSample .ok, .remap (sampleRecord.encode ++ sampleRecord.encode)]).map
          (fun table => (table.storage.mmapData, table.records)) =
        some (some 1, [loadedSample]) := by
      decide +kernel
    obtain ⟨final, ran, shape⟩ := Option.map_eq_some_iff.mp computed
    obtain ⟨mappingEq, recordsEq⟩ := Prod.mk.inj shape
    have member : loadedSample ∈ final.records := by
      rw [recordsEq]
      exact List.mem_singleton_self _
    obtain ⟨⟨mapping, found, vectorEq⟩, -⟩ := always.of_run ran loadedSample member rfl
    rw [mappingEq] at found
    cases found
    cases vectorEq

end OriginDb
