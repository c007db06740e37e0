/-
The index of one table: training, loading, use, compaction and removal.

`/train` and the approximate `/search` hold the table's lock shared and take
`index_lock` for their critical sections; the worker compacts under the table's
lock and removes the index later, under `index_lock` alone.  The atomic steps
here are those critical sections.  Between the compaction and the removal the
cached index and the index file still name the old offsets.
-/

import OriginDb.IvfIndex
import OriginDb.SyncWorker

namespace OriginDb

open Foundation

/-! ### The step system -/

/-- Where a handler is that holds the table's lock shared. -/
inductive IndexHandler where
  | searching
  | mustLoad
  | loaded
  | training (k maxIterations : UInt64)
  | trained (k : UInt64) (clusters : List Cluster)
  | finished
deriving DecidableEq

/-- The table, its directory, the handlers, and whether the worker has the index
still to remove.  `given` is the index that `db_ann_search` was given by the
last step, if it ran; `stale` says that a compaction has replaced the data file
and neither a removal nor a training has replaced the index since. -/
structure IndexRun where
  dir : TableDir
  table : OpenTable
  handlers : List IndexHandler
  mustRemove : Bool
  given : Option (List Cluster)
  stale : Bool

inductive IndexAction where
  | search
  | train (k maxIterations : UInt64)
  | handler (index : Nat) (rand : Nat → Nat) (save : SaveIO)
  | compact (io : ExecuteIO) (now : UInt64)
  | removeIndex (removed : Bool)
  | restart
  | filesChange (pendingBin autoDeleteSchedule : Option (List UInt8))

def IndexRun.data (state : IndexRun) : List UInt8 := state.dir.dataDb.getD []

/-- The section of `/search` that loads the index on demand. -/
def loadIndexOnDemand (ivfIndex : Option (List UInt8)) (table : OpenTable) : Option OpenTable :=
  if table.indexLoaded then some table
  else
    (loadIvfIndex ivfIndex table.ivfK 0).map fun (index, k, ivfDimension) =>
      let read := { table with ivfIndex := index, ivfK := k }
      let checked :=
        if index ≠ none ∧ ivfDimension ≠ table.db.dimension then clearCachedIndex read else read
      { checked with indexLoaded := true }

/-- The section of `/train` that puts the trained index in the cache. -/
def installIndex (clusters : List Cluster) (k : UInt64) (table : OpenTable) : OpenTable :=
  { clearCachedIndex table with
    ivfIndex := some clusters
    ivfK := k
    indexLoaded := true }

def IndexRun.move (state : IndexRun) (index : Nat) (handler : IndexHandler) : IndexRun :=
  { state with
    handlers := state.handlers.set index handler
    given := none }

/-- With an index in the cache `db_ann_search` runs; without one the answer is
an error. -/
def IndexRun.annSearch (state : IndexRun) (index : Nat) : IndexRun :=
  { state.move index .finished with given := state.table.ivfIndex }

/-- After `save_ivf_index`: only an index that was saved is put in the cache. -/
def IndexRun.afterSave (state : IndexRun) (index : Nat) (clusters : List Cluster) (k : UInt64)
    (status : Int) (file : Option (List UInt8)) : IndexRun :=
  let finished :=
    { state.move index .finished with dir := { state.dir with ivfIndex := file } }
  if status = 0 then
    { finished with
      table := installIndex clusters k state.table
      stale := false }
  else finished

/-- The next critical section of a handler. -/
def handlerStep (ops : FloatOps) (rand : Nat → Nat) (save : SaveIO) (state : IndexRun)
    (index : Nat) : IndexHandler → Option IndexRun
  | .searching =>
      if state.table.indexLoaded then some (state.annSearch index)
      else some (state.move index .mustLoad)
  | .mustLoad =>
      (loadIndexOnDemand state.dir.ivfIndex state.table).map fun table =>
        { state.move index .loaded with table := table }
  | .loaded => some (state.annSearch index)
  | .training k maxIterations =>
      let db := state.table.db
      if k = 0 ∨ db.records.length = 0 ∨ db.records.length < k.toNat then
        some (state.move index .finished)
      else
        (kmeansBuild ops state.data db.storage db.dimension db.calculateDistance rand db.records k
          maxIterations).map fun clusters => state.move index (.trained k clusters)
  | .trained k clusters =>
      (saveIvfIndex save clusters k state.table.db.dimension state.dir.ivfIndex).map
        fun (status, file) => state.afterSave index clusters k status file
  | .finished => none

/-- Whether a scheduled delete gets as far as replacing the data file. -/
def replacesData (io : ExecuteIO) (now : UInt64) (dir : TableDir) (db : FlatDb) : Bool :=
  decide (0 < (deleteLoop io.deletes (dueIds now dir) 0 (dir.dataDb.getD []) db).2.2) &&
    decide (io.compact = .ok ∨ io.compact = .reopenFailed)

def indexStep (ops : FloatOps) (state : IndexRun) : IndexAction → Option IndexRun
  | .search =>
      some { state with
        handlers := state.handlers ++ [.searching]
        given := none }
  | .train k maxIterations =>
      some { state with
        handlers := state.handlers ++ [.training k maxIterations]
        given := none }
  | .handler index rand save =>
      match state.handlers[index]? with
      | none => none
      | some handler => handlerStep ops rand save state index handler
  | .compact io now =>
      -- The write lock is granted when no handler holds the lock shared.
      if state.mustRemove = false ∧ ∀ handler ∈ state.handlers, handler = .finished then
        (autoDelete io now state.dir state.table).map fun (compacted, dir, table) =>
          { state with
            dir := dir
            table := table
            mustRemove := decide (0 < compacted)
            given := none
            stale := state.stale || replacesData io now state.dir state.table.db }
      else none
  | .removeIndex removed =>
      if state.mustRemove then
        some { state with
          dir :=
            { state.dir with ivfIndex := if removed then none else state.dir.ivfIndex }
          table := clearCachedIndex state.table
          mustRemove := false
          given := none
          stale := state.stale && !removed }
      else none
  | .restart =>
      match dbOpen (state.data.length + 1) state.table.name state.dir with
      | some (dir, some db) =>
          some { state with
            dir := dir
            table := newSlot state.table.name db
            handlers := []
            mustRemove := false
            given := none }
      | _ => none
  | .filesChange pendingBin autoDeleteSchedule =>
      some { state with
        dir :=
          { state.dir with
            pendingBin := pendingBin
            autoDeleteSchedule := autoDeleteSchedule }
        given := none }

/-- Where the records of a data file start: what a scan from 0 finds. -/
def recordStarts (dimension : UInt64) (data : List UInt8) : List UInt64 :=
  match loadAll data dimension (data.length + 1) (Storage.openAt data 0) with
  | none => []
  | some (records, _, _) => records.map Record.byteOffset

def IndexWithin (starts : List UInt64) (index : List Cluster) : Prop :=
  ∀ cluster ∈ index, ∀ offset ∈ cluster.byteOffsets, offset ∈ starts

/-- If `db_ann_search` has just run, its index names records of the current file. -/
def GivenCurrent (dimension : UInt64) (state : IndexRun) : Prop :=
  ∀ index, state.given = some index → IndexWithin (recordStarts dimension state.data) index

/-- `db_ann_search` is not run on a stale index, and a compaction that has
replaced the data file can reopen it. -/
def IndexSafe (state : IndexRun) : IndexAction → Prop
  | .handler index _ _ =>
      (state.handlers[index]? = some .searching ∨ state.handlers[index]? = some .loaded) →
        state.stale = true → state.table.ivfIndex = none
  | .compact io _ => io.compact ≠ .reopenFailed
  | _ => True

/-! ### Record starts -/

variable {dimension : UInt64}

theorem recordStarts_encodeAll {disk : List (StoredRecord dimension)}
    (small : ((recordCodec dimension).encodeAll disk).length < 2 ^ 63) :
    recordStarts dimension ((recordCodec dimension).encodeAll disk) =
      ((recordCodec dimension).entries 0 disk).map Record.byteOffset := by
  have enough : disk.length < ((recordCodec dimension).encodeAll disk).length + 1 :=
    Nat.lt_succ_of_le ((recordCodec dimension).length_le_encodeAll disk)
  have scanned := (recordCodec dimension).scan_encodeAll disk _ small enough
  obtain ⟨code, -, final, loaded⟩ := loadAll_of_scan _ _ 0 _ scanned
  simp only [recordStarts, loaded]

theorem entries_byteOffsets_of_unflagged {first second : List (StoredRecord dimension)}
    (same : first.map StoredRecord.unflag = second.map StoredRecord.unflag) (start : Nat) :
    ((recordCodec dimension).entries start first).map Record.byteOffset =
      ((recordCodec dimension).entries start second).map Record.byteOffset := by
  induction first generalizing second start with
  | nil =>
      rw [List.map_nil] at same
      rw [List.map_eq_nil_iff.mp same.symm]
  | cons head first ih =>
      cases second with
      | nil => cases same
      | cons other second =>
          obtain ⟨sameHead, later⟩ := List.cons.inj same
          have sizeEq : (recordCodec dimension).size head = (recordCodec dimension).size other :=
            StoredRecord.encode_length_of_unflag_eq sameHead
          simp only [FramedLog.Codec.entries, List.map_cons, sizeEq, ih later]
          rfl

theorem recordStarts_of_unflagged {first second : List (StoredRecord dimension)}
    (same : first.map StoredRecord.unflag = second.map StoredRecord.unflag)
    (small : ((recordCodec dimension).encodeAll second).length < 2 ^ 63) :
    recordStarts dimension ((recordCodec dimension).encodeAll first) =
      recordStarts dimension ((recordCodec dimension).encodeAll second) := by
  have smallFirst : ((recordCodec dimension).encodeAll first).length < 2 ^ 63 := by
    rw [encodeAll_length_of_unflagged same]
    exact small
  rw [recordStarts_encodeAll small, recordStarts_encodeAll smallFirst,
    entries_byteOffsets_of_unflagged same]

/-- The data file is a sequence of frames, and the array, unless it is empty,
lists them. -/
structure FramesListed (executed : List UInt64) (data : List UInt8)
    (disk : List (StoredRecord dimension)) (records : List Record) : Prop where
  file : data = (recordCodec dimension).encodeAll disk
  small : data.length < 2 ^ 63
  listed : records = [] ∨ Laid executed data disk records

theorem FramesListed.byteOffset_mem {executed : List UInt64} {data : List UInt8}
    {disk : List (StoredRecord dimension)} {records : List Record}
    (frames : FramesListed executed data disk records) {record : Record}
    (member : record ∈ records) : record.byteOffset ∈ recordStarts dimension data := by
  rcases frames with ⟨rfl, small, rfl | laid⟩
  · cases member
  · obtain ⟨-, tracks⟩ := laid.tracks_of_full (Nat.zero_add _).symm
    rw [recordStarts_encodeAll small, byteOffsets_of_tracks (tracks.imp fun _ _ _ row => row.1)]
    exact List.mem_map_of_mem member

/-! ### The scheduled delete -/

/-- A compaction that copies its records has read every live vector. -/
theorem readable_of_compactCopy {data : List UInt8} {storage : Storage} {records : List Record}
    {out : List UInt8} {copied : List (Record × UInt64) × List UInt8}
    (copies : compactCopy data storage dimension records out = some copied) :
    ∀ record ∈ records, record.isDeleted = false →
      (readVector data storage dimension record.vector).isSome = true := by
  induction records generalizing out copied with
  | nil =>
      intro record member
      cases member
  | cons first records ih =>
      intro record member live
      rw [compactCopy] at copies
      split at copies
      · rename_i deleted
        rcases List.mem_cons.mp member with rfl | later
        · rw [live] at deleted
          cases deleted
        · exact ih copies record later live
      · split at copies
        · cases copies
        · rename_i stored contents
          obtain ⟨rest, copiesRest, -⟩ := Option.map_eq_some_iff.mp copies
          rcases List.mem_cons.mp member with rfl | later
          · obtain ⟨values, readEq, -⟩ := Option.map_eq_some_iff.mp contents
            rw [readEq]
            rfl
          · exact ih copiesRest record later live

/-- What a compaction leaves, by how far it got. -/
theorem dbCompact_cases {compact : CompactIO} {data final : List UInt8} {db next : FlatDb}
    {code : Int} (reopens : compact ≠ .reopenFailed)
    (compacted : dbCompact compact data db = some (code, final, next)) :
    (compact ≠ .ok ∧ final = data ∧ next.records = db.records ∧ next.dimension = db.dimension) ∨
    (compact = .ok ∧ ∃ copied, compactCopy data db.storage db.dimension db.records [] =
      some copied) := by
  cases compact with
  | ok =>
      right
      obtain ⟨⟨_, _, _, _⟩, stored, -⟩ := Option.map_eq_some_iff.mp compacted
      obtain ⟨copied, copies, -⟩ := Option.map_eq_some_iff.mp stored
      exact ⟨rfl, copied, copies⟩
  | writeFailed =>
      cases compacted
      exact Or.inl ⟨by decide, rfl, rfl, rfl⟩
  | renameFailed reopened =>
      obtain ⟨⟨_, _, _, _⟩, stored, result⟩ := Option.map_eq_some_iff.mp compacted
      obtain ⟨copied, copies, shape⟩ := Option.map_eq_some_iff.mp stored
      cases shape
      cases result
      exact Or.inl ⟨nofun, rfl, rfl, rfl⟩
  | reopenFailed => exact absurd rfl reopens

/-- What a scheduled delete keeps of the file and the array. -/
structure DeleteKeeps (dimension : UInt64) (io : ExecuteIO) (now : UInt64) (dir dir' : TableDir)
    (db db' : FlatDb) : Prop where
  dimensionEq : db'.dimension = dimension
  metaBin : dir'.metaBin = dir.metaBin
  ivfIndex : dir'.ivfIndex = dir.ivfIndex
  frames : ∃ executed, ∃ disk : List (StoredRecord dimension),
    FramesListed executed (dir'.dataDb.getD []) disk db'.records
  starts : replacesData io now dir db = false →
    recordStarts dimension (dir'.dataDb.getD []) = recordStarts dimension (dir.dataDb.getD [])

/-- A run of the delete loop leaves a file of the same frames. -/
theorem LoopKeeps.framesListed {executed : List UInt64} {data file : List UInt8}
    {db next : FlatDb} {disk disk' : List (StoredRecord dimension)}
    (keeps : LoopKeeps executed [] data db disk file next disk')
    (dataEq : data = (recordCodec dimension).encodeAll disk) (small : data.length < 2 ^ 63) :
    FramesListed executed file disk' next.records := by
  have laid := keeps.laid
  rw [List.append_nil] at laid
  have full : file.length = 0 + ((recordCodec dimension).encodeAll disk').length := by
    rw [Nat.zero_add, keeps.sameLength, dataEq, encodeAll_length_of_unflagged keeps.unflagged]
  obtain ⟨fileEq, -⟩ := laid.tracks_of_full full
  exact ⟨fileEq, keeps.sameLength ▸ small, Or.inr laid⟩

theorem deleteLoop_of_unlisted {executed : List UInt64} {data : List UInt8}
    {disk : List (StoredRecord dimension)} {db : FlatDb}
    (frames : FramesListed executed data disk db.records) (ios : Nat → DeleteIO)
    (ids : List UInt64) :
    deleteLoop ios ids 0 data db = (data, db, 0) ∨
      db.storage.fp ≠ none ∧ Laid executed data disk db.records := by
  rcases frames.listed with empty | laid
  · left
    apply deleteLoop_of_no_target
    intro id _ record member
    rw [empty] at member
    cases member
  · by_cases closed : db.storage.fp = none
    · exact Or.inl (deleteLoop_of_closed ios ids 0 data closed)
    · exact Or.inr ⟨closed, laid⟩

theorem checkAndRunAutoDelete_keeps {executed : List UInt64} {disk : List (StoredRecord dimension)}
    {io : ExecuteIO} {now : UInt64} {dir dir' : TableDir} {db db' : FlatDb} {compacted : Int}
    (dimensionEq : db.dimension = dimension)
    (frames : FramesListed executed (dir.dataDb.getD []) disk db.records)
    (reopens : io.compact ≠ .reopenFailed)
    (ran : checkAndRunAutoDelete io now dir db = some (compacted, dir', db')) :
    DeleteKeeps dimension io now dir dir' db db' := by
  rcases checkAndRunAutoDelete_eq io now dir db with ⟨-, schedule, called⟩ | ⟨pendingBin, called⟩
  · rw [called] at ran
    cases ran
    exact ⟨dimensionEq, rfl, rfl, ⟨executed, disk, frames⟩, fun _ => rfl⟩
  rcases deleteLoop_of_unlisted frames io.deletes (dueIds now dir) with looped | ⟨stream, laid⟩
  · rw [called _ _ _ looped] at ran
    cases ran
    exact ⟨dimensionEq, rfl, rfl, ⟨executed, disk, frames⟩, fun _ => rfl⟩
  · have wide := laid.widen (dueIds now dir)
    rw [← List.append_nil db.records] at wide
    obtain ⟨file, deleted, successes, disk', looped, keeps, -⟩ :=
      deleteLoop_loopKeeps io.deletes (dueIds now dir) 0
        (fun id member => List.mem_append_right executed member) wide stream frames.small
    have kept := keeps.framesListed frames.file frames.small
    have sameStarts : recordStarts dimension file =
        recordStarts dimension (dir.dataDb.getD []) := by
      have small := frames.small
      rw [frames.file] at small ⊢
      rw [kept.file, recordStarts_of_unflagged keeps.unflagged small]
    have deletedDimension := keeps.same.dimensionEq.trans dimensionEq
    rw [called _ _ _ looped] at ran
    dsimp only at ran
    split at ran
    · rename_i someSuccess
      obtain ⟨⟨code, final, next⟩, compactedEq, result⟩ := Option.map_eq_some_iff.mp ran
      cases result
      rcases dbCompact_cases reopens compactedEq with
        ⟨-, rfl, sameRecords, sameDimension⟩ | ⟨isOk, copied, copies⟩
      · refine ⟨sameDimension.trans deletedDimension, rfl, rfl,
          ⟨executed ++ dueIds now dir, disk', ?_⟩, fun _ => sameStarts⟩
        rw [← sameRecords] at kept
        exact kept
      · have ownLaid := keeps.laid
        rw [List.append_nil] at ownLaid
        rw [deletedDimension] at copies
        obtain ⟨-, compactedTable, disk'', compactedOk, laidAfter, smallAfter, dimensionAfter, -⟩ :=
          dbCompact_laid deletedDimension ownLaid kept.small (readable_of_compactCopy copies)
        rw [isOk, compactedOk] at compactedEq
        cases compactedEq
        refine ⟨dimensionAfter, rfl, rfl,
          ⟨executed ++ dueIds now dir, disk'', rfl, smallAfter, Or.inr laidAfter⟩, ?_⟩
        intro notReplaced
        simp [replacesData, looped, isOk, someSuccess] at notReplaced
    · cases ran
      exact ⟨deletedDimension, rfl, rfl, ⟨executed ++ dueIds now dir, disk', kept⟩,
        fun _ => sameStarts⟩

/-! ### Saved and loaded indexes -/

/-- Whatever the index file is loaded as names records that start there. -/
def FileWithin (starts : List UInt64) (ivfIndex : Option (List UInt8)) : Prop :=
  ∀ outK outDimension index k ivfDimension,
    loadIvfIndex ivfIndex outK outDimension = some (some index, k, ivfDimension) →
      IndexWithin starts index

theorem fileWithin_of_part {starts : List UInt64} {clusters : List Cluster}
    {k dimension : UInt64} {file : List UInt8} (within : IndexWithin starts clusters)
    (writable : Writable clusters k dimension)
    (part : file <+: encodeIvfIndex clusters k dimension) : FileWithin starts (some file) := by
  intro outK outDimension index k' ivfDimension loaded cluster member offset inOffsets
  rw [loadIvfIndex_of_part writable part loaded] at member
  obtain ⟨saved, savedMember, rfl⟩ := List.mem_map.mp member
  exact within saved savedMember offset inOffsets

theorem saveIvfIndex_within {starts : List UInt64} {io : SaveIO} {clusters : List Cluster}
    {k dimension : UInt64} {before after : Option (List UInt8)} {status : Int}
    (within : IndexWithin starts clusters)
    (saved : saveIvfIndex io clusters k dimension before = some (status, after)) :
    (status = 0 ∨ FileWithin starts before) → FileWithin starts after := by
  unfold saveIvfIndex at saved
  split at saved
  · rename_i writable
    intro fine
    cases io with
    | ok =>
        cases saved
        exact fileWithin_of_part within writable (List.prefix_refl _)
    | openFailed =>
        cases saved
        exact fine.resolve_left (by decide)
    | failed written =>
        cases saved
        exact fileWithin_of_part within writable (List.take_prefix _ _)
  · cases saved

theorem loadIndexOnDemand_within {starts : List UInt64} {ivfIndex : Option (List UInt8)}
    {table loaded : OpenTable} (file : FileWithin starts ivfIndex)
    (cached : ∀ index, table.ivfIndex = some index → IndexWithin starts index)
    (ran : loadIndexOnDemand ivfIndex table = some loaded) :
    ∀ index, loaded.ivfIndex = some index → IndexWithin starts index := by
  intro index found
  unfold loadIndexOnDemand at ran
  split at ran
  · cases ran
    exact cached index found
  · obtain ⟨⟨read, k, ivfDimension⟩, readEq, rfl⟩ := Option.map_eq_some_iff.mp ran
    dsimp only at found
    split at found
    · cases found
    · dsimp only at found
      rw [found] at readEq
      exact file _ _ index k ivfDimension readEq

theorem loadIndexOnDemand_db {ivfIndex : Option (List UInt8)} {table loaded : OpenTable}
    (ran : loadIndexOnDemand ivfIndex table = some loaded) :
    loaded.db = table.db ∧ loaded.name = table.name := by
  unfold loadIndexOnDemand at ran
  split at ran
  · cases ran
    exact ⟨rfl, rfl⟩
  · obtain ⟨⟨read, k, ivfDimension⟩, -, rfl⟩ := Option.map_eq_some_iff.mp ran
    dsimp only
    split
    · exact ⟨rfl, rfl⟩
    · exact ⟨rfl, rfl⟩

/-! ### The invariant -/

def IndexRun.starts (dimension : UInt64) (state : IndexRun) : List UInt64 :=
  recordStarts dimension state.data

structure IndexInvariant (dimension : UInt64) (state : IndexRun) : Prop where
  dimensionEq : state.table.db.dimension = dimension
  name : validateDbName state.table.name = true
  metaBin : ∃ file, state.dir.metaBin = some file ∧ ¬file.length < 12 ∧ u64At file 0 = dimension
  frames : ∃ executed, ∃ disk : List (StoredRecord dimension),
    FramesListed executed state.data disk state.table.db.records
  cached : state.stale = false → ∀ index, state.table.ivfIndex = some index →
    IndexWithin (state.starts dimension) index
  file : state.stale = false → FileWithin (state.starts dimension) state.dir.ivfIndex
  trained : ∀ k clusters, .trained k clusters ∈ state.handlers →
    IndexWithin (state.starts dimension) clusters
  given : GivenCurrent dimension state

theorem IndexInvariant.move {state : IndexRun} (invariant : IndexInvariant dimension state)
    (index : Nat) (handler : IndexHandler)
    (within : ∀ k clusters, handler = .trained k clusters →
      IndexWithin (state.starts dimension) clusters) :
    IndexInvariant dimension (state.move index handler) where
  dimensionEq := invariant.dimensionEq
  name := invariant.name
  metaBin := invariant.metaBin
  frames := invariant.frames
  cached := invariant.cached
  file := invariant.file
  trained := by
    intro k clusters member
    rcases List.mem_or_eq_of_mem_set member with old | new
    · exact invariant.trained k clusters old
    · exact within k clusters new.symm
  given := by
    intro index impossible
    cases impossible

theorem IndexInvariant.annSearch {state : IndexRun} (invariant : IndexInvariant dimension state)
    (index : Nat) (safe : state.stale = true → state.table.ivfIndex = none) :
    IndexInvariant dimension (state.annSearch index) := by
  have moved := invariant.move index .finished nofun
  refine { moved with given := ?_ }
  intro given givenEq
  cases stale : state.stale with
  | true =>
      have noIndex : state.table.ivfIndex = none := safe stale
      cases noIndex.symm.trans givenEq
  | false => exact invariant.cached stale given givenEq

theorem handlerStep_invariant {ops : FloatOps} {rand : Nat → Nat} {save : SaveIO}
    {state next : IndexRun} {index : Nat} {handler : IndexHandler}
    (invariant : IndexInvariant dimension state) (found : state.handlers[index]? = some handler)
    (safe : handler = .searching ∨ handler = .loaded →
      state.stale = true → state.table.ivfIndex = none)
    (stepped : handlerStep ops rand save state index handler = some next) :
    IndexInvariant dimension next := by
  have moves : ∀ handler : IndexHandler, (∀ k clusters, handler ≠ .trained k clusters) →
      IndexInvariant dimension (state.move index handler) := by
    intro other notTrained
    apply invariant.move index other
    intro k clusters same
    exact absurd same (notTrained k clusters)
  cases handler with
  | searching =>
      simp only [handlerStep] at stepped
      split at stepped
      · cases stepped
        exact invariant.annSearch index (safe (Or.inl rfl))
      · cases stepped
        exact moves .mustLoad nofun
  | mustLoad =>
      obtain ⟨table, loaded, rfl⟩ := Option.map_eq_some_iff.mp stepped
      obtain ⟨sameDb, sameName⟩ := loadIndexOnDemand_db loaded
      have moved := moves .loaded nofun
      refine
        { moved with
          dimensionEq := ?_
          name := ?_
          frames := ?_
          cached := ?_ }
      · change table.db.dimension = dimension
        rw [sameDb]
        exact invariant.dimensionEq
      · change validateDbName table.name = true
        rw [sameName]
        exact invariant.name
      · rcases invariant.frames with ⟨executed, disk, frames⟩
        refine ⟨executed, disk, ?_⟩
        change FramesListed executed state.data disk table.db.records
        rw [sameDb]
        exact frames
      · intro fresh
        exact loadIndexOnDemand_within (invariant.file fresh) (invariant.cached fresh) loaded
  | loaded =>
      cases stepped
      exact invariant.annSearch index (safe (Or.inr rfl))
  | training k maxIterations =>
      simp only [handlerStep] at stepped
      split at stepped
      · cases stepped
        exact moves .finished nofun
      · obtain ⟨clusters, built, rfl⟩ := Option.map_eq_some_iff.mp stepped
        rcases invariant.frames with ⟨executed, disk, frames⟩
        apply invariant.move
        intro k clusters here cluster member offset inOffsets
        cases here
        obtain ⟨record, inRecords, -, rfl⟩ := kmeansBuild_offsets _ _ _ _ _ built member inOffsets
        exact frames.byteOffset_mem inRecords
  | trained k clusters =>
      obtain ⟨⟨status, file⟩, saved, rfl⟩ := Option.map_eq_some_iff.mp stepped
      have within := invariant.trained k clusters (List.mem_of_getElem? found)
      have moved := moves .finished nofun
      change IndexInvariant dimension (state.afterSave index clusters k status file)
      unfold IndexRun.afterSave
      dsimp only
      split
      · rename_i success
        refine { moved with cached := ?_, file := ?_ }
        · intro _ installed impossible
          cases impossible
          exact within
        · intro _
          exact saveIvfIndex_within within saved (Or.inl success)
      · refine { moved with file := ?_ }
        intro fresh
        exact saveIvfIndex_within within saved (Or.inr (invariant.file fresh))
  | finished => cases stepped

theorem dbOpen_eq (fuel : Nat) {name : CString} {dir : TableDir} {file : List UInt8}
    (valid : validateDbName name = true) (metaEq : dir.metaBin = some file)
    (complete : ¬file.length < 12) :
    ∃ db, dbOpen (fuel + 1) name dir =
        some ({ dir with dataDb := some (dir.dataDb.getD []) }, some db) ∧
      db.records = [] ∧ db.dimension = u64At file 0 := by
  obtain ⟨db, opened, empty, dimensionEq, -⟩ :=
    dbInit_eq (u64At file 0) fuel name 10 (u32At file 8) dir valid
  refine ⟨db, ?_, empty, dimensionEq⟩
  simp only [dbOpen, valid, if_true, metaEq, if_neg complete, opened, openedDir, Option.getD_some]

theorem indexStep_invariant (ops : FloatOps) (state : IndexRun) (action : IndexAction)
    (next : IndexRun) (invariant : IndexInvariant dimension state) (safe : IndexSafe state action)
    (stepped : indexStep ops state action = some next) : IndexInvariant dimension next := by
  have started : ∀ handler : IndexHandler, (∀ k clusters, handler ≠ .trained k clusters) →
      ∀ k clusters, .trained k clusters ∈ state.handlers ++ [handler] →
        IndexWithin (state.starts dimension) clusters := by
    intro handler notTrained k clusters member
    rcases List.mem_append.mp member with old | new
    · exact invariant.trained k clusters old
    · exact absurd (List.mem_singleton.mp new).symm (notTrained k clusters)
  cases action with
  | search =>
      cases stepped
      refine { invariant with trained := started .searching ?_, given := ?_ }
      · intro _ _ impossible
        cases impossible
      · intro _ impossible
        cases impossible
  | train k maxIterations =>
      cases stepped
      refine { invariant with trained := started (.training k maxIterations) ?_, given := ?_ }
      · intro _ _ impossible
        cases impossible
      · intro _ impossible
        cases impossible
  | handler index rand save =>
      simp only [indexStep] at stepped
      cases found : state.handlers[index]? with
      | none =>
          rw [found] at stepped
          cases stepped
      | some handler =>
          rw [found] at stepped
          apply handlerStep_invariant invariant found ?_ stepped
          intro searches
          apply safe
          rcases searches with rfl | rfl
          · exact Or.inl found
          · exact Or.inr found
  | compact io now =>
      simp only [indexStep] at stepped
      split at stepped
      · rename_i granted
        obtain ⟨⟨compacted, dir, table⟩, ran, rfl⟩ := Option.map_eq_some_iff.mp stepped
        obtain ⟨⟨compacted', dir', db'⟩, deleted, shape⟩ := Option.map_eq_some_iff.mp ran
        cases shape
        rcases invariant.frames with ⟨executed, disk, frames⟩
        have keeps := checkAndRunAutoDelete_keeps invariant.dimensionEq frames safe deleted
        -- What was true of the index before stays true if the file was not replaced.
        have sameStarts : (state.stale || replacesData io now state.dir state.table.db) = false →
            state.stale = false ∧
              recordStarts dimension (dir.dataDb.getD []) = state.starts dimension := by
          intro fresh
          obtain ⟨wasFresh, notReplaced⟩ := Bool.or_eq_false_iff.mp fresh
          exact ⟨wasFresh, keeps.starts notReplaced⟩
        constructor
        · exact keeps.dimensionEq
        · exact invariant.name
        · rcases invariant.metaBin with ⟨file, metaEq, complete, dimensionAt⟩
          exact ⟨file, keeps.metaBin.trans metaEq, complete, dimensionAt⟩
        · exact keeps.frames
        · intro fresh index cached
          obtain ⟨wasFresh, same⟩ := sameStarts fresh
          change IndexWithin (recordStarts dimension (dir.dataDb.getD [])) index
          rw [same]
          exact invariant.cached wasFresh index cached
        · intro fresh
          obtain ⟨wasFresh, same⟩ := sameStarts fresh
          change FileWithin (recordStarts dimension (dir.dataDb.getD [])) dir.ivfIndex
          rw [same, keeps.ivfIndex]
          exact invariant.file wasFresh
        · intro k clusters member
          cases granted.2 _ member
        · intro _ impossible
          cases impossible
      · cases stepped
  | removeIndex removed =>
      simp only [indexStep] at stepped
      split at stepped
      · cases stepped
        refine { invariant with cached := ?_, file := ?_, given := ?_ }
        · intro _ _ impossible
          cases impossible
        · intro fresh
          cases removed with
          | true => rintro _ _ _ _ _ ⟨⟩
          | false =>
              simp only [Bool.not_false, Bool.and_true] at fresh
              exact invariant.file fresh
        · intro _ impossible
          cases impossible
      · cases stepped
  | restart =>
      rcases invariant.metaBin with ⟨file, metaEq, complete, dimensionAt⟩
      rcases invariant.frames with ⟨executed, disk, frames⟩
      obtain ⟨db, opened, empty, dimensionEq⟩ :=
        dbOpen_eq state.data.length invariant.name metaEq complete
      simp only [indexStep, opened] at stepped
      cases stepped
      constructor
      · exact dimensionEq.trans dimensionAt
      · exact invariant.name
      · exact ⟨file, metaEq, complete, dimensionAt⟩
      · exact ⟨executed, disk, frames.file, frames.small, Or.inl empty⟩
      · intro _ _ impossible
        cases impossible
      · exact invariant.file
      · intro k clusters member
        cases member
      · intro _ impossible
        cases impossible
  | filesChange pendingBin autoDeleteSchedule =>
      cases stepped
      refine { invariant with given := ?_ }
      intro _ impossible
      cases impossible

/-! ### Whole runs -/

/-- A table that no handler is using, with whatever index it has. -/
def startIndex (dir : TableDir) (table : OpenTable) : IndexRun where
  dir := dir
  table := table
  handlers := []
  mustRemove := false
  given := none
  stale := false

theorem ann_search_uses_current_index (ops : FloatOps) {dir : TableDir} {table : OpenTable}
    {stored : List (StoredRecord dimension)} {metric : UInt32}
    (valid : validateDbName table.name = true)
    (metaEq : dir.metaBin = some (encodeMeta dimension metric))
    (agrees : Agrees (dir.dataDb.getD []) table.db stored stored)
    (file : FileWithin (recordStarts dimension (dir.dataDb.getD [])) dir.ivfIndex)
    (cached : ∀ index, table.ivfIndex = some index →
      IndexWithin (recordStarts dimension (dir.dataDb.getD [])) index)
    (actions : List IndexAction)
    (admitted : GuardedRun.Admits (indexStep ops) IndexSafe (startIndex dir table) actions) :
    GuardedRun.Throughout (indexStep ops) (GivenCurrent dimension) (startIndex dir table)
      actions := by
  have complete : ¬(encodeMeta dimension metric).length < 12 := by
    rw [encodeMeta_length]
    decide
  have start : IndexInvariant dimension (startIndex dir table) := by
    constructor
    · exact agrees.dimensionEq
    · exact valid
    · exact ⟨_, metaEq, complete, u64At_encodeMeta dimension metric⟩
    · exact ⟨[], stored, agrees.file, agrees.small, Or.inr agrees.laid⟩
    · intro _
      exact cached
    · intro _
      exact file
    · intro k clusters member
      cases member
    · intro _ impossible
      cases impossible
  exact GuardedRun.throughout_of_step (indexStep_invariant ops)
    (fun _ invariant => invariant.given) start admitted

instance (state : IndexRun) (action : IndexAction) : Decidable (IndexSafe state action) := by
  unfold IndexSafe
  split
  · infer_instance
  · infer_instance
  · infer_instance

/-- Floating-point operations that are right on one record with the vector (1.0):
its distance to itself is 0 and it is its own mean. -/
def oneRecordOps : FloatOps where
  calculate := fun _ _ first second => if first = second then 0 else 1065353216
  less := fun first second => decide (first < second)
  fltMax := 2139095039
  zero := 0
  add := fun first second => if first = 0 then second else first
  divCount := fun sum _ => sum
  moved := fun old new => decide (old ≠ new)
  huge := 1900671690

/-- The table after one insert, and its directory. -/
def sampleSlot : OpenTable :=
  { moviesSlot with
    db := appendedTable moviesSlot.db sampleRecord.encode [sampleRecord.onHeap 0] }

def sampleDir : TableDir :=
  { emptyDir with
    metaBin := some (encodeMeta 1 0)
    dataDb := some sampleRecord.encode }

theorem sampleSlot_agrees :
    Agrees (sampleDir.dataDb.getD []) sampleSlot.db [sampleRecord] [sampleRecord] :=
  moviesSlot_agrees.insert sampleRecord (by decide)

/-- The next section of the handler with the given number. -/
def proceed (index : Nat) : IndexAction := .handler index (fun _ => 0) .ok

def trainSample : List IndexAction := [.train 1 1, proceed 0, proceed 0]

/-- The worker takes the record out. -/
def compactSample : List IndexAction :=
  [.filesChange (some (LittleEndian.encode 8 7 ++ LittleEndian.encode 8 0))
      (some (setAutoDeleteSchedule 1)),
    .compact .ok 2]

/-- Searches before the compaction, after the removal, and after a restart. -/
theorem ann_search_around_removal :
    GuardedRun.Throughout (indexStep oneRecordOps) (GivenCurrent 1)
      (startIndex sampleDir sampleSlot)
      (trainSample ++ [.search, proceed 1] ++ compactSample ++
        [.removeIndex true, .search, proceed 2, proceed 2, proceed 2, .restart, .search,
          proceed 0]) := by
  have valid : validateDbName sampleSlot.name = true := by decide
  have noFile : FileWithin (recordStarts 1 (sampleDir.dataDb.getD [])) sampleDir.ivfIndex := by
    intro _ _ _ _ _ impossible
    cases impossible
  have noCache : ∀ index, sampleSlot.ivfIndex = some index →
      IndexWithin (recordStarts 1 (sampleDir.dataDb.getD [])) index := by
    intro _ impossible
    cases impossible
  exact ann_search_uses_current_index oneRecordOps valid rfl sampleSlot_agrees noFile noCache _
    (by decide +kernel)

/-- A search between the compaction and the removal of the index. -/
theorem ann_search_before_removal :
    ¬GuardedRun.Throughout (indexStep oneRecordOps) (GivenCurrent 1)
      (startIndex sampleDir sampleSlot) (trainSample ++ compactSample ++ [.search, proceed 1]) := by
  intro always
  have computed : (GuardedRun.run (indexStep oneRecordOps) (startIndex sampleDir sampleSlot)
      (trainSample ++ compactSample ++ [.search, proceed 1])).map (fun state =>
        (state.given.map fun index => index.map Cluster.byteOffsets, recordStarts 1 state.data)) =
      some (some [[0]], []) := by
    decide +kernel
  obtain ⟨final, ran, reached⟩ := Option.map_eq_some_iff.mp computed
  have current := always.of_run ran
  obtain ⟨givenEq, startsEq⟩ := Prod.mk.inj reached
  obtain ⟨index, given, offsetsEq⟩ := Option.map_eq_some_iff.mp givenEq
  obtain ⟨cluster, rfl, clusterOffsets⟩ := List.map_eq_singleton_iff.mp offsetsEq
  have within := current _ given cluster (List.mem_singleton_self _) 0 (by simp [clusterOffsets])
  rw [startsEq] at within
  cases within

end OriginDb
