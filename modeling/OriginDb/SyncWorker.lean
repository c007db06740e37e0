/-
The sync worker beside the insert handlers of one table.

The atomic steps are the critical sections of the code: an `/insert` handler,
and the worker's merge of the insert queue, reload of the pending list and
scheduled delete.  The worker gives up the table between them, so an insert can
land anywhere.  A compaction writes the file anew from the record array and
drops the bytes of whatever is still queued; away from that, and from vectors
that can no longer be read, every acknowledged insert keeps its one entry and
its bytes.
-/

import OriginDb.Foundation.GuardedRun
import OriginDb.Foundation.SpacedLog
import OriginDb.TornInserts

namespace OriginDb

open Foundation

variable {dimension : UInt64}

/-! ### The step system -/

/-- A server table and its directory, with the history that the property speaks
of: the records acknowledged so far and the ids executed from `pending.bin`. -/
structure SyncRun (dimension : UInt64) where
  dir : TableDir
  table : OpenTable
  acknowledged : List (StoredRecord dimension)
  executed : List UInt64

/-- `filesChange` stands for everyone else who writes the queue and the schedule. -/
inductive SyncAction where
  | insert (io : WriteIO) (req : InsertReq)
  | merge
  | refresh
  | autoDelete (io : ExecuteIO) (now : UInt64)
  | filesChange (pendingBin autoDeleteSchedule : Option (List UInt8))

def SyncRun.data (state : SyncRun dimension) : List UInt8 := state.dir.dataDb.getD []

/-- The entries of the table, in the array or waiting in the queue. -/
def SyncRun.entries (state : SyncRun dimension) : List Record :=
  state.table.db.records ++ state.table.insertQueue.map PendingInsert.toRecord

/-- The record an acknowledged request stands for. -/
def acknowledgedRecord (req : InsertReq) : List (StoredRecord dimension) :=
  if lengthEq : req.vector.length = dimension.toNat then [requestedRecord req lengthEq] else []

/-- The ids that a run of `check_and_run_auto_delete` at `now` executes. -/
def dueIds (now : UInt64) (dir : TableDir) : List UInt64 :=
  if getAutoDeleteSchedule dir.autoDeleteSchedule = 0 ∨
      now < getAutoDeleteSchedule dir.autoDeleteSchedule then []
  else (loadPendingDeletes dir.pendingBin).1.getD []

def syncStep (state : SyncRun dimension) : SyncAction → Option (SyncRun dimension)
  | .insert io req =>
      (insertLocked io state.data state.table req).map fun (response, file, table) =>
        { state with
          dir := { state.dir with dataDb := some file }
          table := table
          acknowledged :=
            if response.isSuccess then state.acknowledged ++ acknowledgedRecord req
            else state.acknowledged }
  | .merge =>
      (mergeQueue state.data state.table).map fun table => { state with table := table }
  | .refresh =>
      some { state with table := refreshPending state.dir.pendingBin state.table }
  | .autoDelete io now =>
      (autoDelete io now state.dir state.table).map fun (_, dir, table) =>
        { state with
          dir := dir
          table := table
          executed := state.executed ++ dueIds now state.dir }
  | .filesChange pendingBin autoDeleteSchedule =>
      some
        { state with
          dir :=
            { state.dir with
              pendingBin := pendingBin
              autoDeleteSchedule := autoDeleteSchedule } }

/-- The acknowledged records whose id has not been executed are, one by one and
in order, the live entries of such ids, and each entry's bytes are in the file
at its offset.  No two entries share an offset. -/
structure KeepsAcknowledged (state : SyncRun dimension) : Prop where
  kept : List.Forall₂ (fun entry stored =>
      entry.id = stored.id ∧ entry.metadata = stored.metadata ∧
        stored.encode <+: state.data.drop entry.byteOffset.toNat)
    (state.entries.filter fun entry => !entry.isDeleted && !state.executed.contains entry.id)
    (state.acknowledged.filter fun stored => !state.executed.contains stored.id)
  distinct : state.entries.Pairwise fun first second => first.byteOffset < second.byteOffset

/-- The array has room for the queue after the growth step. -/
def RoomForMerge (table : OpenTable) : Prop :=
  match growForMerge table.db (UInt64.ofNat table.insertQueue.length) with
  | none => False
  | some grown =>
      hasRoom grown.recordsBytes (grown.records.length + table.insertQueue.length) = true

/-- Some of the numbered calls of `db_delete` has a live record to find and disk
operations that report success. -/
def DeletesSome (deletes : Nat → DeleteIO) (calls : List (UInt64 × Nat))
    (records : List Record) : Prop :=
  ∃ call ∈ calls, (deletes call.2 = .ok ∨ deletes call.2 = .writeBackLost) ∧
    ∃ record ∈ records, isDeleteTarget call.1 record = true

/-- Every live vector can be followed. -/
def LiveReadable (state : SyncRun dimension) : Prop :=
  ∀ record ∈ state.table.db.records, record.isDeleted = false →
    (readVector state.data state.table.db.storage dimension record.vector).isSome = true

/-- What a compaction must find, by how far its file operations get: the queue
empty if it replaces the file, the live vectors readable if it copies them.  A
file that was replaced but does not reopen leaves the array with the offsets of
the old one. -/
def CompactionSafe (state : SyncRun dimension) : CompactIO → Prop
  | .writeFailed => True
  | .renameFailed _ => LiveReadable state
  | .reopenFailed => False
  | .ok => state.table.insertQueue = [] ∧ LiveReadable state

def SyncSafe (state : SyncRun dimension) : SyncAction → Prop
  | .insert _ req =>
      ∀ lengthEq : req.vector.length = dimension.toNat,
        (state.data ++ (requestedRecord req lengthEq).encode).length < 2 ^ 63
  | .merge => state.table.insertQueue = [] ∨ RoomForMerge state.table
  | .refresh => True
  | .autoDelete io now =>
      DeletesSome io.deletes (dueIds now state.dir).zipIdx state.table.db.records →
        CompactionSafe state io.compact
  | .filesChange _ _ => True

/-! ### Entries and the frames they point at -/

/-- Whatever a vector pointer is, it is meant for the record's own vector. -/
def PointerShape (stored : StoredRecord dimension) (record : Record) : Prop :=
  match record.vector with
  | .null => True
  | .heap values => values = stored.vector
  | .mapped _ start => start = record.byteOffset.toNat + 24

/-- An entry carries the record that is on disk at its offset.  The two flags
may differ for an executed id only. -/
structure Carries (executed : List UInt64) (stored : StoredRecord dimension) (record : Record) :
    Prop where
  id : record.id = stored.id
  metadata : record.metadata = stored.metadata
  flag : stored.id ∉ executed → record.isDeleted = stored.isDeleted
  pointer : PointerShape stored record

/-- The entries, in order, point at the frames of `disk`. -/
def Laid (executed : List UInt64) (data : List UInt8) (disk : List (StoredRecord dimension))
    (entries : List Record) : Prop :=
  (recordCodec dimension).Spaced (fun record : Record => record.byteOffset.toNat)
    (Carries executed) data 0 disk entries

/-- The records that the property is about. -/
def unexecuted (executed : List UInt64) (stored : List (StoredRecord dimension)) :
    List (StoredRecord dimension) :=
  stored.filter fun record => !executed.contains record.id

structure SyncInvariant (state : SyncRun dimension) : Prop where
  dimensionEq : state.table.db.dimension = dimension
  small : state.data.length < 2 ^ 63
  onDisk : ∃ disk, Laid state.executed state.data disk state.entries ∧
    unexecuted state.executed (liveOf disk) = unexecuted state.executed state.acknowledged

/-- Filtering the entries and filtering their frames is the same. -/
private theorem forall₂_filter {α β : Type} {rel : α → β → Prop} {left : α → Bool}
    {right : β → Bool} {first : List α} {second : List β}
    (related : List.Forall₂ (fun item other => rel item other ∧ left item = right other)
      first second) :
    List.Forall₂ rel (first.filter left) (second.filter right) := by
  induction related with
  | nil => exact List.Forall₂.nil
  | @cons item other first second head _ ih =>
      rw [List.filter_cons, List.filter_cons, head.2]
      split
      · exact List.Forall₂.cons head.1 ih
      · exact ih

theorem SyncInvariant.keepsAcknowledged {state : SyncRun dimension}
    (invariant : SyncInvariant state) : KeepsAcknowledged state := by
  rcases invariant.onDisk with ⟨disk, laid, sameRecords⟩
  constructor
  · have target : state.acknowledged.filter (fun stored => !state.executed.contains stored.id) =
        disk.filter fun stored => !stored.isDeleted && !state.executed.contains stored.id := by
      change unexecuted state.executed state.acknowledged = _
      rw [← sameRecords, unexecuted, liveOf, List.filter_filter]
      congr 1
      funext stored
      exact Bool.and_comm _ _
    rw [target]
    refine forall₂_filter (laid.forall₂.imp ?_)
    intro entry stored holds
    rcases holds with ⟨carries, frame⟩
    refine ⟨⟨carries.id, carries.metadata, frame⟩, ?_⟩
    rw [carries.id]
    by_cases isExecuted : stored.id ∈ state.executed
    · simp [isExecuted]
    · rw [carries.flag isExecuted]
  · exact laid.increasing.imp fun less => UInt64.lt_iff_toNat_lt.mpr less

/-! ### Inserting, merging, refreshing -/

theorem unexecuted_append (executed : List UInt64) (first second : List (StoredRecord dimension)) :
    unexecuted executed (first ++ second) =
      unexecuted executed first ++ unexecuted executed second := List.filter_append ..

theorem liveOf_append (first second : List (StoredRecord dimension)) :
    liveOf (first ++ second) = liveOf first ++ liveOf second := List.filter_append ..

theorem insertLocked_of_closed (io : WriteIO) (data : List UInt8) (table : OpenTable)
    (req : InsertReq) (closed : table.db.storage.fp = none) :
    ∃ response, insertLocked io data table req = some (response, data, table) ∧
      response.isSuccess = false := by
  unfold insertLocked
  split
  · exact ⟨_, rfl, rfl⟩
  · refine ⟨.error .internalError "Failed to write record to disk.", ?_, rfl⟩
    simp only [storageCurrentOffset, storageWriteRecord, closed]
    rfl

theorem SyncInvariant.insert {state : SyncRun dimension} (invariant : SyncInvariant state)
    (io : WriteIO) (req : InsertReq) (safe : SyncSafe state (.insert io req)) :
    ∃ next, syncStep state (.insert io req) = some next ∧ SyncInvariant next := by
  rcases invariant.onDisk with ⟨disk, laid, sameRecords⟩
  by_cases closed : state.table.db.storage.fp = none
  · obtain ⟨response, called, refused⟩ :=
      insertLocked_of_closed io state.data state.table req closed
    refine ⟨{ state with dir := { state.dir with dataDb := some state.data } }, ?_, ?_⟩
    · simp only [syncStep, called, Option.map_some, refused]
      rfl
    · exact ⟨invariant.dimensionEq, invariant.small, disk, laid, sameRecords⟩
  by_cases lengthEq : req.vector.length = dimension.toNat
  · have called := insertLocked_eq io state.data state.table req closed
      invariant.dimensionEq lengthEq
    let stored := requestedRecord req lengthEq
    have small : (state.data ++ stored.encode).length < 2 ^ 63 := safe lengthEq
    cases io with
    | ok =>
        have ackEq : acknowledgedRecord req = [stored] := by
          rw [acknowledgedRecord, dif_pos lengthEq]
        refine ⟨{ state with
            dir := { state.dir with dataDb := some (state.data ++ stored.encode) }
            table := state.table.wrote (state.data ++ stored.encode)
              [req.pending state.data.length]
            acknowledged := state.acknowledged ++ acknowledgedRecord req }, ?_, ?_⟩
        · simp only [syncStep, called, Option.map_some]
          rfl
        · refine ⟨invariant.dimensionEq, small, disk ++ [stored], ?_, ?_⟩
          · have offsetEq : (UInt64.ofNat state.data.length).toNat = state.data.length := by
              rw [List.length_append] at small
              rw [UInt64.toNat_ofNat']
              omega
            have extended := laid.snoc stored (stored.onHeap state.data.length)
              ⟨rfl, rfl, fun _ => rfl, rfl⟩ offsetEq
            have entriesEq : state.entries ++ [stored.onHeap state.data.length] =
                state.table.db.records ++ (state.table.insertQueue ++
                  [req.pending state.data.length]).map PendingInsert.toRecord := by
              rw [SyncRun.entries, List.map_append, List.append_assoc]
              rfl
            rw [entriesEq] at extended
            exact extended
          · have live : liveOf [stored] = [stored] := rfl
            rw [liveOf_append, unexecuted_append, sameRecords, live, ackEq, unexecuted_append]
    | failed appended =>
        refine ⟨{ state with
            dir := { state.dir with
              dataDb := some (state.data ++ stored.encode.take appended) }
            table := state.table.wrote (state.data ++ stored.encode.take appended) [] }, ?_, ?_⟩
        · simp only [syncStep, called, Option.map_some]
          rfl
        · refine ⟨invariant.dimensionEq, ?_, disk, ?_, sameRecords⟩
          · change (state.data ++ stored.encode.take appended).length < 2 ^ 63
            simp only [List.length_append, List.length_take] at small ⊢
            omega
          · have entriesEq : state.entries = state.table.db.records ++
                (state.table.insertQueue ++ []).map PendingInsert.toRecord := by
              rw [List.append_nil]
              rfl
            have extended := laid.append_log (stored.encode.take appended)
            rw [entriesEq] at extended
            exact extended
  · have called := insertLocked_refused io state.data state.table req invariant.dimensionEq
      lengthEq
    refine ⟨{ state with dir := { state.dir with dataDb := some state.data } }, ?_, ?_⟩
    · simp only [syncStep, called, Option.map_some]
      rfl
    · exact ⟨invariant.dimensionEq, invariant.small, disk, laid, sameRecords⟩

theorem growForMerge_kept {db grown : FlatDb} {n : UInt64}
    (grew : growForMerge db n = some grown) :
    grown.records = db.records ∧ grown.storage = db.storage ∧ grown.dimension = db.dimension := by
  unfold growForMerge at grew
  dsimp only at grew
  split at grew
  · obtain ⟨capacity, -, rfl⟩ := Option.map_eq_some_iff.mp grew
    exact ⟨rfl, rfl, rfl⟩
  · cases Option.some.inj grew
    exact ⟨rfl, rfl, rfl⟩

theorem SyncInvariant.merge {state : SyncRun dimension} (invariant : SyncInvariant state)
    (safe : SyncSafe state .merge) :
    ∃ next, syncStep state .merge = some next ∧ SyncInvariant next := by
  rcases invariant.onDisk with ⟨disk, laid, sameRecords⟩
  by_cases empty : state.table.insertQueue = []
  · refine ⟨state, ?_, invariant⟩
    simp only [syncStep, mergeQueue, if_pos empty, Option.map_some]
  · have room := safe.resolve_left empty
    unfold RoomForMerge at room
    cases grew : growForMerge state.table.db (UInt64.ofNat state.table.insertQueue.length) with
    | none =>
        rw [grew] at room
        exact room.elim
    | some grown =>
    rw [grew] at room
    obtain ⟨recordsEq, storageEq, dimensionEq⟩ := growForMerge_kept grew
    refine ⟨{ state with table := mergedTable state.data state.table grown }, ?_, ?_⟩
    · simp only [syncStep, mergeQueue, if_neg empty, grew, room, if_true, Option.map_some]
    · refine ⟨dimensionEq.trans invariant.dimensionEq, invariant.small, disk, ?_, sameRecords⟩
      have entriesEq : state.entries =
          grown.records ++ state.table.insertQueue.map PendingInsert.toRecord ++ [] := by
        rw [recordsEq, List.append_nil]
        rfl
      rw [entriesEq] at laid
      exact laid

theorem SyncInvariant.refresh {state : SyncRun dimension} (invariant : SyncInvariant state) :
    ∃ next, syncStep state .refresh = some next ∧ SyncInvariant next := by
  rcases invariant.onDisk with ⟨disk, laid, sameRecords⟩
  refine ⟨_, rfl, ?_⟩
  unfold refreshPending
  split
  · exact ⟨invariant.dimensionEq, invariant.small, disk, laid, sameRecords⟩
  · exact invariant

/-! ### The delete loop -/

theorem writeAt_eq_set {data : List UInt8} {offset : Nat} (inside : offset < data.length)
    (byte : UInt8) : writeAt data offset [byte] = data.set offset byte := by
  have noGap : offset - data.length = 0 := by omega
  rw [List.set_eq_take_append_cons_drop, if_pos inside]
  simp only [writeAt, noGap, List.replicate_zero, List.append_nil, List.append_assoc,
    List.singleton_append, List.length_singleton]

/-- Setting the flag byte of a frame found in the file. -/
theorem frame_set_flag {data : List UInt8} {start : Nat} {stored : StoredRecord dimension}
    (frame : stored.encode <+: data.drop start) :
    stored.mark.encode <+: (data.set (start + 8) 1).drop start := by
  rcases frame with ⟨after, split⟩
  have header := stored.header_le_encode
  have inside : 8 < (stored.encode ++ after).length := by
    rw [List.length_append]
    omega
  have marked := writeAt_flag [] after stored
  rw [List.nil_append, List.nil_append, List.length_nil, Nat.zero_add,
    writeAt_eq_set inside] at marked
  rw [List.drop_set, if_neg (by omega), Nat.add_sub_cancel_left, ← split, marked]
  exact List.prefix_append _ _

theorem Carries.setDeleted {executed : List UInt64} {stored : StoredRecord dimension}
    {record : Record} (carries : Carries executed stored record)
    (isExecuted : stored.id ∈ executed) :
    Carries executed stored record.setDeleted ∧ Carries executed stored.mark record.setDeleted :=
  ⟨⟨carries.id, carries.metadata, fun notExecuted => absurd isExecuted notExecuted,
      carries.pointer⟩,
    ⟨carries.id, carries.metadata, fun _ => rfl, carries.pointer⟩⟩

theorem unexecuted_cons {executed : List UInt64} (first : StoredRecord dimension)
    (rest : List (StoredRecord dimension)) :
    unexecuted executed (liveOf (first :: rest)) =
      unexecuted executed (liveOf [first]) ++ unexecuted executed (liveOf rest) := by
  rw [← unexecuted_append, ← liveOf_append, List.singleton_append]

theorem unexecuted_of_executed {executed : List UInt64} {record : StoredRecord dimension}
    (isExecuted : record.id ∈ executed) : unexecuted executed (liveOf [record]) = [] := by
  apply List.filter_eq_nil_iff.mpr
  intro other inLive
  have same := List.mem_singleton.mp (List.mem_of_mem_filter inLive)
  simp [same, isExecuted]

/-- Marking a record of an executed id is not seen by the property. -/
theorem unexecuted_mark {executed : List UInt64} {before after : List (StoredRecord dimension)}
    {target : StoredRecord dimension} (isExecuted : target.id ∈ executed) :
    unexecuted executed (liveOf (before ++ target.mark :: after)) =
      unexecuted executed (liveOf (before ++ target :: after)) := by
  have markedExecuted : target.mark.id ∈ executed := isExecuted
  rw [List.append_cons, List.append_cons before target, liveOf_append, liveOf_append,
    liveOf_append, liveOf_append, unexecuted_append, unexecuted_append, unexecuted_append,
    unexecuted_append, unexecuted_of_executed isExecuted, unexecuted_of_executed markedExecuted]

/-- What a loop of deletes of executed ids may change, in a table with `queued`
behind its records. -/
structure LoopKeeps (executed : List UInt64) (queued : List Record) (data : List UInt8)
    (db : FlatDb) (disk : List (StoredRecord dimension)) (file : List UInt8) (next : FlatDb)
    (disk' : List (StoredRecord dimension)) : Prop where
  laid : Laid executed file disk' (next.records ++ queued)
  sameRecords : unexecuted executed (liveOf disk') = unexecuted executed (liveOf disk)
  unflagged : disk'.map StoredRecord.unflag = disk.map StoredRecord.unflag
  sameLength : file.length = data.length
  same : SameHandle db next
  liveMember : ∀ record ∈ next.records, record.isDeleted = false → record ∈ db.records

theorem LoopKeeps.trans {executed : List UInt64} {queued : List Record}
    {data file final : List UInt8} {db next last : FlatDb}
    {disk disk' disk'' : List (StoredRecord dimension)}
    (first : LoopKeeps executed queued data db disk file next disk')
    (second : LoopKeeps executed queued file next disk' final last disk'') :
    LoopKeeps executed queued data db disk final last disk'' where
  laid := second.laid
  sameRecords := second.sameRecords.trans first.sameRecords
  unflagged := second.unflagged.trans first.unflagged
  sameLength := second.sameLength.trans first.sameLength
  same :=
    { dimensionEq := second.same.dimensionEq.trans first.same.dimensionEq
      stream := second.same.stream
      mapping := second.same.mapping.trans first.same.mapping
      size := second.same.size.trans first.same.size }
  liveMember := by
    intro record member live
    exact first.liveMember record (second.liveMember record member live) live

theorem sameHandle_of_storage {db : FlatDb} {records : List Record} {position : Option Nat}
    (stream : position ≠ none) :
    SameHandle db { db with
      records := records
      storage := { db.storage with fp := position } } :=
  ⟨rfl, stream, rfl, rfl⟩

/-- One `db_delete` of an executed id. -/
theorem dbDelete_loopKeeps {executed : List UInt64} {queued : List Record} {data : List UInt8}
    {db : FlatDb} {disk : List (StoredRecord dimension)} (io : DeleteIO) {id : UInt64}
    (isExecuted : id ∈ executed) (laid : Laid executed data disk (db.records ++ queued))
    (stream : db.storage.fp ≠ none) (small : data.length < 2 ^ 63) :
    ∃ code file next disk', dbDelete io data db id = (code, file, next) ∧
      LoopKeeps executed queued data db disk file next disk' ∧
      (code = 0 → (io = .ok ∨ io = .writeBackLost) ∧
        ∃ record ∈ db.records, isDeleteTarget id record = true) := by
  rcases first_cases (isDeleteTarget id) db.records with
    noTarget | ⟨rows, row, more, recordsEq, isTarget, earlier⟩
  · exact ⟨-1, data, db, disk, dbDelete_of_none io data noTarget,
      ⟨laid, rfl, rfl, rfl, ⟨rfl, stream, rfl, rfl⟩, fun record member _ => member⟩, nofun⟩
  · have entriesEq : db.records ++ queued = rows ++ row :: (more ++ queued) := by
      rw [recordsEq, List.append_assoc, List.cons_append]
    have flaggedEq : rows ++ row.setDeleted :: more ++ queued =
        rows ++ row.setDeleted :: (more ++ queued) := by
      rw [List.append_assoc, List.cons_append]
    have laidRow := laid
    rw [entriesEq] at laidRow
    rcases laidRow.split with ⟨first, target, second, rfl, sameLength, carries, frame⟩
    have inside := FramedLog.Codec.frame_inside frame
    have header := target.header_le_encode
    change row.byteOffset.toNat + target.encode.length ≤ data.length at inside
    have called := dbDelete_eq io data db id rows more row row.byteOffset.toNat stream
      recordsEq earlier isTarget rfl (by omega)
    have targetExecuted : target.id ∈ executed := by
      simp only [isDeleteTarget, Bool.and_eq_true, beq_iff_eq] at isTarget
      rw [← carries.id, isTarget.1]
      exact isExecuted
    obtain ⟨carriesSame, carriesMarked⟩ := carries.setDeleted targetExecuted
    have flagged : Laid executed data (first ++ target :: second)
        (rows ++ row.setDeleted :: more ++ queued) := by
      rw [flaggedEq]
      exact FramedLog.Codec.Spaced.update_row sameLength laidRow rfl carriesSame
    have liveMember : ∀ record ∈ rows ++ row.setDeleted :: more, record.isDeleted = false →
        record ∈ db.records := by
      intro record member live
      rw [recordsEq]
      rcases List.mem_append.mp member with inRows | inRest
      · exact List.mem_append_left _ inRows
      · rcases List.mem_cons.mp inRest with rfl | inMore
        · cases live
        · exact List.mem_append_right _ (List.mem_cons_of_mem _ inMore)
    have hasTarget : ∃ record ∈ db.records, isDeleteTarget id record = true :=
      ⟨row, recordsEq ▸ List.mem_append_right _ (List.mem_cons_self ..), isTarget⟩
    have opened : ∀ position : Nat, some position ≠ none := by
      intro position closed
      cases closed
    cases io with
    | ok =>
        have flagInside : row.byteOffset.toNat + 8 < data.length := by omega
        have flagInFrame : row.byteOffset.toNat + 8 <
            row.byteOffset.toNat + (recordCodec dimension).size target := by
          change _ < row.byteOffset.toNat + target.encode.length
          omega
        have marked : Laid executed (data.set (row.byteOffset.toNat + 8) 1)
            (first ++ target.mark :: second) (rows ++ row.setDeleted :: more ++ queued) := by
          rw [flaggedEq]
          exact FramedLog.Codec.Spaced.update sameLength laidRow (Nat.le_add_right _ _)
            flagInFrame rfl (StoredRecord.encode_length_of_unflag_eq target.unflag_mark)
            (frame_set_flag frame) carriesMarked
        refine ⟨0, _, _, first ++ target.mark :: second, called, ?_,
          fun _ => ⟨Or.inl rfl, hasTarget⟩⟩
        rw [writeAt_eq_set flagInside]
        exact ⟨marked, unexecuted_mark targetExecuted, unflagged_mark target, List.length_set,
          sameHandle_of_storage (opened _), liveMember⟩
    | writeBackLost =>
        exact ⟨0, _, _, first ++ target :: second, called,
          ⟨flagged, rfl, rfl, rfl, sameHandle_of_storage (opened _), liveMember⟩,
          fun _ => ⟨Or.inr rfl, hasTarget⟩⟩
    | seekFailed =>
        exact ⟨-1, _, _, first ++ target :: second, called,
          ⟨flagged, rfl, rfl, rfl, sameHandle_of_storage stream, liveMember⟩,
          nofun⟩
    | patchFailed =>
        exact ⟨-1, _, _, first ++ target :: second, called,
          ⟨laid, rfl, rfl, rfl, sameHandle_of_storage (opened _), fun record member _ => member⟩,
          nofun⟩

/-- The whole loop: what it keeps, and why it compacts afterwards. -/
theorem deleteLoop_loopKeeps {executed : List UInt64} {queued : List Record}
    (ios : Nat → DeleteIO) (ids : List UInt64) (index : Nat)
    (areExecuted : ∀ id ∈ ids, id ∈ executed) {data : List UInt8} {db : FlatDb}
    {disk : List (StoredRecord dimension)}
    (laid : Laid executed data disk (db.records ++ queued)) (stream : db.storage.fp ≠ none)
    (small : data.length < 2 ^ 63) :
    ∃ file next successes disk', deleteLoop ios ids index data db = (file, next, successes) ∧
      LoopKeeps executed queued data db disk file next disk' ∧
      (0 < successes → DeletesSome ios (ids.zipIdx index) db.records) := by
  induction ids generalizing index data db disk with
  | nil =>
      exact ⟨data, db, 0, disk, rfl, ⟨laid, rfl, rfl, rfl, ⟨rfl, stream, rfl, rfl⟩,
        fun record member _ => member⟩, nofun⟩
  | cons id rest ih =>
      obtain ⟨code, file, next, disk', called, keeps, succeeds⟩ := dbDelete_loopKeeps (ios index)
        (areExecuted id (List.mem_cons_self ..)) laid stream small
      obtain ⟨final, last, successes, disk'', looped, keepsRest, succeedsRest⟩ := ih (index + 1)
        (fun other member => areExecuted other (List.mem_cons_of_mem _ member)) keeps.laid
        keeps.same.stream (keeps.sameLength ▸ small)
      refine ⟨final, last, if code = 0 then successes + 1 else successes, disk'', ?_,
        keeps.trans keepsRest, ?_⟩
      · simp only [deleteLoop, called, looped]
      · intro positive
        by_cases success : code = 0
        · obtain ⟨reported, hasTarget⟩ := succeeds success
          exact ⟨(id, index), by simp [List.zipIdx_cons], reported, hasTarget⟩
        · rw [if_neg success] at positive
          obtain ⟨call, called, reported, record, member, isTarget⟩ := succeedsRest positive
          have live : record.isDeleted = false := by
            simp only [isDeleteTarget, Bool.and_eq_true, Bool.not_eq_true'] at isTarget
            exact isTarget.2
          refine ⟨call, ?_, reported, record, keeps.liveMember record member live, isTarget⟩
          rw [List.zipIdx_cons]
          exact List.mem_cons_of_mem _ called

theorem deleteLoop_of_closed (ios : Nat → DeleteIO) (ids : List UInt64) (index : Nat)
    (data : List UInt8) {db : FlatDb} (closed : db.storage.fp = none) :
    deleteLoop ios ids index data db = (data, db, 0) := by
  induction ids generalizing index with
  | nil => rfl
  | cons id rest ih =>
      simp only [deleteLoop, dbDelete, if_pos closed, ih (index + 1)]
      rfl

/-! ### Compacting what the loop leaves -/

/-- Whether a vector pointer can be followed depends on the mapping only. -/
theorem readVector_isSome_of_same_mapping {data file : List UInt8} {storage other : Storage}
    {vector : VectorRef} (sameMapping : other.mmapData = storage.mmapData)
    (sameSize : other.fileSize = storage.fileSize)
    (readable : (readVector data storage dimension vector).isSome = true) :
    (readVector file other dimension vector).isSome = true := by
  cases vector with
  | null => exact readable
  | heap values => exact readable
  | mapped mapping start =>
      simp only [readVector] at readable ⊢
      rw [sameMapping, sameSize]
      split
      · rfl
      · rename_i outside
        rw [if_neg outside] at readable
        exact readable

theorem readVector_of_carries {executed : List UInt64} {data : List UInt8} {storage : Storage}
    {stored : StoredRecord dimension} {record : Record} (carries : Carries executed stored record)
    (frame : stored.encode <+: data.drop record.byteOffset.toNat)
    (readable : (readVector data storage dimension record.vector).isSome = true) :
    readVector data storage dimension record.vector =
      some ⟨stored.vector, stored.vector_length⟩ := by
  have pointer := carries.pointer
  unfold PointerShape at pointer
  cases found : record.vector with
  | null =>
      rw [found] at readable
      simp only [readVector] at readable ⊢
      split
      · rename_i noValues
        have empty : stored.vector = [] :=
          List.eq_nil_of_length_eq_zero (stored.vector_length.trans noValues)
        simp only [empty]
      · rename_i someValues
        rw [dif_neg someValues] at readable
        cases readable
  | heap values =>
      rw [found] at pointer
      have enough : dimension.toNat ≤ values.length := by
        rw [pointer, stored.vector_length]
      have all : values.take dimension.toNat = stored.vector := by
        rw [pointer, ← stored.vector_length, List.take_length]
      simp only [readVector, dif_pos enough, all]
  | mapped mapping start =>
      rw [found] at pointer readable
      rcases frame with ⟨after, split⟩
      have inside : record.byteOffset.toNat + (recordCodec dimension).size stored ≤ data.length :=
        FramedLog.Codec.frame_inside ⟨after, split⟩
      have startLength : (data.take record.byteOffset.toNat).length = record.byteOffset.toNat := by
        rw [List.length_take]
        omega
      have dataEq : data = data.take record.byteOffset.toNat ++ stored.encode ++ after := by
        rw [List.append_assoc, split, List.take_append_drop]
      have floats := floatsAt_frame (data.take record.byteOffset.toNat) after stored
      rw [← dataEq, startLength, ← pointer] at floats
      simp only [readVector] at readable ⊢
      split
      · simp only [floats]
      · rename_i outside
        rw [if_neg outside] at readable
        cases readable

/-- The records that a table with readable live vectors would compact. -/
theorem copyable_of_carries {executed : List UInt64} {data : List UInt8} {storage : Storage}
    {disk : List (StoredRecord dimension)} {records : List Record}
    (carried : List.Forall₂ (fun record stored => Carries executed stored record ∧
      stored.encode <+: data.drop record.byteOffset.toNat) records disk)
    (readable : ∀ record ∈ records, record.isDeleted = false →
      (readVector data storage dimension record.vector).isSome = true) :
    ∃ mem, List.Forall₂ (Copyable data storage) records mem ∧
      mem.map StoredRecord.unflag = disk.map StoredRecord.unflag ∧
      unexecuted executed (liveOf mem) = unexecuted executed (liveOf disk) := by
  induction carried with
  | nil => exact ⟨[], List.Forall₂.nil, rfl, rfl⟩
  | @cons record stored records disk head _ ih =>
      obtain ⟨mem, copyable, unflagged, sameRecords⟩ := ih fun other member =>
        readable other (List.mem_cons_of_mem _ member)
      rcases head with ⟨carries, frame⟩
      refine ⟨{ stored with isDeleted := record.isDeleted } :: mem,
        List.Forall₂.cons ⟨rfl, ?_⟩ copyable, ?_, ?_⟩
      · intro live
        have vectorEq := readVector_of_carries carries frame
          (readable record (List.mem_cons_self ..) live)
        simp only [Record.contents, vectorEq, Option.map_some, carries.id, carries.metadata]
      · rw [List.map_cons, List.map_cons, unflagged]
        rfl
      · rw [unexecuted_cons, unexecuted_cons stored, sameRecords]
        congr 1
        by_cases isExecuted : stored.id ∈ executed
        · have sameId : ({ stored with isDeleted := record.isDeleted } :
              StoredRecord dimension).id ∈ executed := isExecuted
          rw [unexecuted_of_executed isExecuted, unexecuted_of_executed sameId]
        · rw [carries.flag isExecuted]

/-- Compaction leaves the array pointing at the frames of the new file. -/
theorem dbCompact_laid {executed : List UInt64} {data : List UInt8} {db : FlatDb}
    {disk : List (StoredRecord dimension)} (dimensionEq : db.dimension = dimension)
    (laid : Laid executed data disk db.records) (small : data.length < 2 ^ 63)
    (readable : ∀ record ∈ db.records, record.isDeleted = false →
      (readVector data db.storage dimension record.vector).isSome = true) :
    (∃ kept file, compactCopy data db.storage dimension db.records [] = some (kept, file)) ∧
      ∃ next disk',
        dbCompact .ok data db = some (0, (recordCodec dimension).encodeAll disk', next) ∧
        Laid executed ((recordCodec dimension).encodeAll disk') disk' next.records ∧
        ((recordCodec dimension).encodeAll disk').length < 2 ^ 63 ∧
        next.dimension = dimension ∧
        unexecuted executed (liveOf disk') = unexecuted executed (liveOf disk) := by
  obtain ⟨mem, copyable, unflagged, sameRecords⟩ := copyable_of_carries laid.forall₂ readable
  have liveSmall : ((recordCodec dimension).encodeAll (liveOf mem)).length < 2 ^ 63 := by
    have shorter := (recordCodec dimension).encodeAll_length_le_of_sublist (liveOf_sublist mem)
    have inFile := laid.encodeAll_length_le
    rw [encodeAll_length_of_unflagged unflagged] at shorter
    omega
  obtain ⟨rows, copied, -⟩ := compactCopy_eq copyable [] liveSmall
  obtain ⟨kept, compacted, tracks, -⟩ := dbCompact_eq dimensionEq copyable liveSmall
  refine ⟨⟨rows, _, copied⟩, _, liveOf mem, compacted, ?_, liveSmall, dimensionEq, ?_⟩
  · have noBytes : ([] : List UInt8).length = 0 := rfl
    rw [← noBytes] at tracks
    apply FramedLog.Codec.Tracks.spaced tracks
    intro start stored record holds
    rcases holds with ⟨placed, pointer⟩
    refine ⟨placed.byteOffset, placed.id, placed.metadata, fun _ => placed.isDeleted, ?_⟩
    unfold AtOwnFrame at pointer
    unfold PointerShape
    split
    · trivial
    · rename_i values found
      rw [found] at pointer
      exact pointer.elim
    · rename_i mapping start found
      rw [found] at pointer
      exact pointer
  · have idempotent : liveOf (liveOf mem) = liveOf mem := by
      simp only [liveOf, List.filter_filter, Bool.and_self]
    rw [idempotent, sameRecords]

/-- The scheduled delete in terms of its parts. -/
theorem checkAndRunAutoDelete_eq (io : ExecuteIO) (now : UInt64) (dir : TableDir) (db : FlatDb) :
    (dueIds now dir = [] ∧ ∃ schedule, checkAndRunAutoDelete io now dir db =
      some (0, { dir with autoDeleteSchedule := schedule }, db)) ∨
    ∃ pendingBin, ∀ file deleted successes,
      deleteLoop io.deletes (dueIds now dir) 0 (dir.dataDb.getD []) db =
        (file, deleted, successes) →
      checkAndRunAutoDelete io now dir db =
        let cleared :=
          { dir with
            dataDb := some file
            pendingBin := pendingBin
            autoDeleteSchedule := none }
        if 0 < successes then
          (dbCompact io.compact file deleted).map fun (_, file, compacted) =>
            (asInt successes, { cleared with dataDb := some file }, compacted)
        else some (asInt successes, cleared, deleted) := by
  unfold checkAndRunAutoDelete dueIds
  dsimp only
  by_cases unset : getAutoDeleteSchedule dir.autoDeleteSchedule = 0
  · refine Or.inl ⟨if_pos (Or.inl unset), dir.autoDeleteSchedule, ?_⟩
    rw [if_pos unset]
  by_cases early : now < getAutoDeleteSchedule dir.autoDeleteSchedule
  · refine Or.inl ⟨if_pos (Or.inr early), dir.autoDeleteSchedule, ?_⟩
    rw [if_neg unset, if_pos early]
  rw [if_neg (not_or.mpr ⟨unset, early⟩), if_neg unset, if_neg early]
  obtain ⟨ids, count⟩ := loadPendingDeletes dir.pendingBin
  cases ids with
  | none => exact Or.inl ⟨rfl, none, rfl⟩
  | some ids =>
      refine Or.inr ⟨(clearPendingDeletes io.clears dir.pendingBin).2,
        fun file deleted successes looped => ?_⟩
      rw [Option.getD_some] at looped
      simp only [looped]

/-- What was true of fewer executed ids. -/
theorem Laid.widen {executed : List UInt64} {data : List UInt8}
    {disk : List (StoredRecord dimension)} {entries : List Record} (more : List UInt64)
    (laid : Laid executed data disk entries) : Laid (executed ++ more) data disk entries :=
  laid.imp fun _ _ carries =>
    ⟨carries.id, carries.metadata,
      fun notExecuted => carries.flag fun member =>
        notExecuted (List.mem_append_left _ member),
      carries.pointer⟩

theorem unexecuted_widen {executed : List UInt64} {first second : List (StoredRecord dimension)}
    (more : List UInt64) (same : unexecuted executed first = unexecuted executed second) :
    unexecuted (executed ++ more) first = unexecuted (executed ++ more) second := by
  have refine_filter : ∀ stored : List (StoredRecord dimension),
      unexecuted (executed ++ more) stored =
        (unexecuted executed stored).filter fun record => !more.contains record.id := by
    intro stored
    simp only [unexecuted, List.filter_filter, List.contains_append, Bool.not_or, Bool.and_comm]
  rw [refine_filter, refine_filter, same]

theorem dbCompact_of_renameFailed {data : List UInt8} {db : FlatDb}
    {copied : List (Record × UInt64) × List UInt8} (reopened : Bool)
    (copies : compactCopy data db.storage db.dimension db.records [] = some copied) :
    ∃ storage, dbCompact (.renameFailed reopened) data db =
      some (-1, data, { db with storage := storage }) := by
  simp only [dbCompact, storageCompact, copies, Option.map_some]
  exact ⟨_, rfl⟩

/-- The compaction after a loop of deletes, however far it gets. -/
theorem LoopKeeps.compact {state : SyncRun dimension} {executed : List UInt64}
    {file : List UInt8} {deleted : FlatDb} {disk disk' : List (StoredRecord dimension)}
    (compact : CompactIO) (dimensionEq : state.table.db.dimension = dimension)
    (small : state.data.length < 2 ^ 63)
    (keeps : LoopKeeps executed (state.table.insertQueue.map PendingInsert.toRecord) state.data
      state.table.db disk file deleted disk')
    (safe : CompactionSafe state compact) :
    ∃ code final next disk'', dbCompact compact file deleted = some (code, final, next) ∧
      Laid executed final disk''
        (next.records ++ state.table.insertQueue.map PendingInsert.toRecord) ∧
      final.length < 2 ^ 63 ∧ next.dimension = dimension ∧
      unexecuted executed (liveOf disk'') = unexecuted executed (liveOf disk') := by
  have deletedDimension : deleted.dimension = dimension := keeps.same.dimensionEq.trans dimensionEq
  have fileSmall : file.length < 2 ^ 63 := keeps.sameLength ▸ small
  have readable : LiveReadable state → ∀ record ∈ deleted.records, record.isDeleted = false →
      (readVector file deleted.storage dimension record.vector).isSome = true := by
    intro before record member live
    exact readVector_isSome_of_same_mapping keeps.same.mapping keeps.same.size
      (before record (keeps.liveMember record member live) live)
  cases compact with
  | writeFailed =>
      exact ⟨-1, file, deleted, disk', rfl, keeps.laid, fileSmall, deletedDimension, rfl⟩
  | renameFailed reopened =>
      obtain ⟨own, ownLaid⟩ := FramedLog.Codec.Spaced.take_rows keeps.laid
      obtain ⟨⟨kept, out, copied⟩, -⟩ :=
        dbCompact_laid deletedDimension ownLaid fileSmall (readable safe)
      rw [← deletedDimension] at copied
      obtain ⟨storage, notSwapped⟩ := dbCompact_of_renameFailed reopened copied
      exact ⟨-1, file, _, disk', notSwapped, keeps.laid, fileSmall, deletedDimension, rfl⟩
  | reopenFailed => exact safe.elim
  | ok =>
      rcases safe with ⟨empty, live⟩
      have laid := keeps.laid
      rw [empty, List.map_nil, List.append_nil] at laid
      obtain ⟨-, next, disk'', compacted, laidAfter, finalSmall, nextDimension, same⟩ :=
        dbCompact_laid deletedDimension laid fileSmall (readable live)
      refine ⟨0, _, next, disk'', compacted, ?_, finalSmall, nextDimension, same⟩
      rw [empty, List.map_nil, List.append_nil]
      exact laidAfter

theorem SyncInvariant.autoDelete {state : SyncRun dimension} (invariant : SyncInvariant state)
    (io : ExecuteIO) (now : UInt64) (safe : SyncSafe state (.autoDelete io now)) :
    ∃ next, syncStep state (.autoDelete io now) = some next ∧ SyncInvariant next := by
  rcases invariant.onDisk with ⟨disk, laid, sameRecords⟩
  rcases checkAndRunAutoDelete_eq io now state.dir state.table.db with
    ⟨noIds, schedule, called⟩ | ⟨pendingBin, called⟩
  · refine ⟨{ state with
        dir := { state.dir with autoDeleteSchedule := schedule }
        executed := state.executed ++ dueIds now state.dir }, ?_, ?_⟩
    · simp only [syncStep, OriginDb.autoDelete, called, Option.map_some]
    · rw [noIds, List.append_nil]
      exact ⟨invariant.dimensionEq, invariant.small, disk, laid, sameRecords⟩
  · have wide := laid.widen (dueIds now state.dir)
    have wideRecords := unexecuted_widen (dueIds now state.dir) sameRecords
    by_cases closed : state.table.db.storage.fp = none
    · have looped := called _ _ _ (deleteLoop_of_closed io.deletes (dueIds now state.dir) 0
        (state.dir.dataDb.getD []) closed)
      refine ⟨{ state with
          dir :=
            { state.dir with
              dataDb := some state.data
              pendingBin := pendingBin
              autoDeleteSchedule := none }
          executed := state.executed ++ dueIds now state.dir }, ?_, ?_⟩
      · simp only [syncStep, OriginDb.autoDelete, looped]
        rfl
      · exact ⟨invariant.dimensionEq, invariant.small, disk, wide, wideRecords⟩
    obtain ⟨file, deleted, successes, disk', looped, keeps, why⟩ :=
      deleteLoop_loopKeeps io.deletes (dueIds now state.dir) 0
        (fun id member => List.mem_append_right state.executed member) wide closed invariant.small
    have afterLoop := called _ _ _ looped
    have fileSmall : file.length < 2 ^ 63 := keeps.sameLength ▸ invariant.small
    have deletedDimension := keeps.same.dimensionEq.trans invariant.dimensionEq
    have afterRecords := keeps.sameRecords.trans wideRecords
    by_cases some_success : 0 < successes
    · obtain ⟨code, final, next, disk'', compacted, laidAfter, finalSmall, nextDimension, same⟩ :=
        keeps.compact io.compact invariant.dimensionEq invariant.small (safe (why some_success))
      rw [if_pos some_success, compacted, Option.map_some] at afterLoop
      refine ⟨{ state with
          dir :=
            { state.dir with
              dataDb := some final
              pendingBin := pendingBin
              autoDeleteSchedule := none }
          table := { state.table with db := next }
          executed := state.executed ++ dueIds now state.dir }, ?_, ?_⟩
      · simp only [syncStep, OriginDb.autoDelete, afterLoop, Option.map_some]
      · exact ⟨nextDimension, finalSmall, disk'', laidAfter, same.trans afterRecords⟩
    · rw [if_neg some_success] at afterLoop
      refine ⟨{ state with
          dir :=
            { state.dir with
              dataDb := some file
              pendingBin := pendingBin
              autoDeleteSchedule := none }
          table := { state.table with db := deleted }
          executed := state.executed ++ dueIds now state.dir }, ?_, ?_⟩
      · simp only [syncStep, OriginDb.autoDelete, afterLoop, Option.map_some]
      · exact ⟨deletedDimension, fileSmall, disk', keeps.laid, afterRecords⟩

/-! ### Whole runs -/

theorem syncStep_invariant (state : SyncRun dimension) (action : SyncAction)
    (invariant : SyncInvariant state) (safe : SyncSafe state action) :
    ∃ next, syncStep state action = some next ∧ SyncInvariant next := by
  cases action with
  | insert io req => exact invariant.insert io req safe
  | merge => exact invariant.merge safe
  | refresh => exact invariant.refresh
  | autoDelete io now => exact invariant.autoDelete io now safe
  | filesChange pendingBin autoDeleteSchedule =>
      exact ⟨_, rfl, invariant.dimensionEq, invariant.small, invariant.onDisk⟩

/-- A table with nothing queued; its live records count as acknowledged. -/
def startSync (dir : TableDir) (table : OpenTable) (stored : List (StoredRecord dimension)) :
    SyncRun dimension where
  dir := dir
  table := table
  acknowledged := liveOf stored
  executed := []

theorem pointerShape_of_vectorHolds {storage : Storage} {offset : Nat}
    {stored : StoredRecord dimension} {record : Record}
    (offsetEq : record.byteOffset.toNat = offset)
    (pointer : VectorHolds storage offset stored record) : PointerShape stored record := by
  unfold VectorHolds at pointer
  unfold PointerShape
  split
  · trivial
  · rename_i values found
    rw [found] at pointer
    exact pointer.2
  · rename_i mapping start found
    rw [found] at pointer
    rw [offsetEq]
    exact pointer.2.2.1

theorem Agrees.laid {data : List UInt8} {db : FlatDb} {stored : List (StoredRecord dimension)}
    (agrees : Agrees data db stored stored) : Laid [] data stored db.records := by
  have laid : Laid [] ([] ++ (recordCodec dimension).encodeAll stored) stored db.records := by
    apply FramedLog.Codec.Tracks.spaced agrees.tracks
    intro start item record holds
    rcases holds with ⟨placed, pointer⟩
    exact ⟨placed.byteOffset, placed.id, placed.metadata, fun _ => placed.isDeleted,
      pointerShape_of_vectorHolds placed.byteOffset pointer⟩
  rw [List.nil_append, ← agrees.file] at laid
  exact laid

theorem startSync_invariant {dir : TableDir} {table : OpenTable}
    {stored : List (StoredRecord dimension)}
    (agrees : Agrees (dir.dataDb.getD []) table.db stored stored)
    (noQueue : table.insertQueue = []) : SyncInvariant (startSync dir table stored) := by
  refine ⟨agrees.dimensionEq, agrees.small, stored, ?_, rfl⟩
  have entriesEq : (startSync dir table stored).entries = table.db.records := by
    simp only [SyncRun.entries, startSync, noQueue, List.map_nil, List.append_nil]
  rw [entriesEq]
  exact agrees.laid

instance (table : OpenTable) : Decidable (RoomForMerge table) := by
  unfold RoomForMerge
  cases growForMerge table.db (UInt64.ofNat table.insertQueue.length) with
  | none => exact instDecidableFalse
  | some grown => exact inferInstance

instance (deletes : Nat → DeleteIO) (calls : List (UInt64 × Nat)) (records : List Record) :
    Decidable (DeletesSome deletes calls records) := by
  unfold DeletesSome
  infer_instance

instance (state : SyncRun dimension) : Decidable (LiveReadable state) := by
  unfold LiveReadable
  infer_instance

instance (state : SyncRun dimension) : (compact : CompactIO) →
    Decidable (CompactionSafe state compact)
  | .writeFailed => instDecidableTrue
  | .renameFailed _ => inferInstanceAs (Decidable (LiveReadable state))
  | .reopenFailed => instDecidableFalse
  | .ok => inferInstanceAs (Decidable (state.table.insertQueue = [] ∧ LiveReadable state))

instance (state : SyncRun dimension) : (action : SyncAction) → Decidable (SyncSafe state action)
  | .insert _ req => inferInstanceAs (Decidable (∀ lengthEq : req.vector.length = dimension.toNat,
      (state.data ++ (requestedRecord req lengthEq).encode).length < 2 ^ 63))
  | .merge => inferInstanceAs (Decidable (state.table.insertQueue = [] ∨ RoomForMerge state.table))
  | .refresh => instDecidableTrue
  | .autoDelete io now => inferInstanceAs (Decidable
      (DeletesSome io.deletes (dueIds now state.dir).zipIdx state.table.db.records →
        CompactionSafe state io.compact))
  | .filesChange _ _ => instDecidableTrue

/-- A queue file with a request for the id 7, and a schedule that is due at 2. -/
def requestSeven : SyncAction :=
  .filesChange (some (LittleEndian.encode 8 7 ++ LittleEndian.encode 8 0))
    (some (setAutoDeleteSchedule 1))

end OriginDb
