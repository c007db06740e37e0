/-
The numbers of the record array and the functions that carry the records.

A run of calls on a table is a run on the numbers of its array, so where the numbers always
have room the table has.
-/

import OriginDb.ArrayCapacity

namespace OriginDb

open Foundation

namespace RecordArray

variable {array next : RecordArray} {n : Nat}

/-! ### The functions that carry the records -/

/-- The numbers of a table; to the table, a released array is one without bytes. -/
structure Tracks (array : RecordArray) (db : FlatDb) : Prop where
  countEq : array.count = db.records.length
  capacityEq : array.capacity = db.capacity
  bytesEq : array.bytes.getD 0 = db.recordsBytes

variable {db : FlatDb}

theorem Tracks.full_iff (tracks : array.Tracks db) :
    array.count = array.capacity.toNat ↔ db.records.length = db.capacity.toNat := by
  rw [tracks.countEq, tracks.capacityEq]

/-- Records stored within the allocation are stored in both. -/
theorem Tracks.store (tracks : array.Tracks db)
    (room : hasRoom db.recordsBytes (db.records.length + n) = true) :
    ∃ next, array.store n = some next ∧
      ∀ (added : List Record) (storage : Storage), added.length = n →
        next.Tracks { db with records := db.records ++ added, storage := storage } := by
  rw [← tracks.bytesEq, ← tracks.countEq] at room
  refine ⟨_, if_pos room, fun added storage lengthEq => ⟨?_, tracks.capacityEq, tracks.bytesEq⟩⟩
  rw [List.length_append, lengthEq, tracks.countEq]

theorem Tracks.realloc (tracks : array.Tracks db) (held : array.bytes ≠ none)
    (capacity : UInt64) :
    ∃ next, array.realloc capacity = some next ∧
      next.Tracks { db with capacity := capacity, recordsBytes := sizeofRecord * capacity } := by
  obtain ⟨bytes, bytesEq⟩ := Option.ne_none_iff_exists'.mp held
  have reallocated : array.realloc capacity =
      some { array with capacity := capacity, bytes := granted capacity } := by
    rw [RecordArray.realloc, bytesEq, Option.map_some]
  exact ⟨_, reallocated, tracks.countEq, rfl, granted_getD capacity⟩

theorem store_held (stored : array.store n = some next) (positive : 0 < n) :
    next.bytes ≠ none := by
  obtain ⟨fits, rfl⟩ := store_eq_some_iff.mp stored
  intro released
  rw [toNat_sizeofRecord, released, Option.getD_none, UInt64.toNat_zero] at fits
  omega

/-- The table after the growth step of the load loop. -/
def grownForLoad (db : FlatDb) : FlatDb :=
  if db.records.length = db.capacity.toNat then
    let newCapacity := if db.capacity = 0 then 8 else db.capacity * 2
    { db with
      capacity := newCapacity
      recordsBytes := sizeofRecord * newCapacity }
  else db

theorem grownForLoad_records (db : FlatDb) : (grownForLoad db).records = db.records := by
  unfold grownForLoad
  split <;> rfl

theorem Tracks.load (tracks : array.Tracks db) (held : array.bytes ≠ none) (record : Record)
    (storage : Storage)
    (room : hasRoom (grownForLoad db).recordsBytes ((grownForLoad db).records.length + 1) = true) :
    ∃ next, array.load = some next ∧
      next.Tracks
        { grownForLoad db with
          records := (grownForLoad db).records ++ [record]
          storage := storage } := by
  by_cases full : db.records.length = db.capacity.toNat
  · have arrayFull := tracks.full_iff.mpr full
    simp only [grownForLoad, if_pos full] at room ⊢
    rw [RecordArray.load, if_pos arrayFull, tracks.capacityEq]
    obtain ⟨grown, reallocated, grownTracks⟩ :=
      tracks.realloc held (if db.capacity = 0 then 8 else db.capacity * 2)
    obtain ⟨next, stored, nextTracks⟩ := grownTracks.store room
    dsimp only
    rw [reallocated]
    exact ⟨next, stored, nextTracks [record] storage rfl⟩
  · have arrayNotFull := mt tracks.full_iff.mp full
    simp only [grownForLoad, if_neg full] at room ⊢
    simp only [RecordArray.load, if_neg arrayNotFull]
    obtain ⟨next, stored, nextTracks⟩ := tracks.store room
    exact ⟨next, stored, nextTracks [record] storage rfl⟩

theorem load_held (loaded : array.load = some next) : next.bytes ≠ none := by
  unfold load at loaded
  split at loaded
  · obtain ⟨grown, -, stored⟩ := Option.bind_eq_some_iff.mp loaded
    exact store_held stored Nat.one_pos
  · exact store_held loaded Nat.one_pos

theorem loadRecords_succ (data : List UInt8) (fuel : Nat) (db : FlatDb) :
    loadRecords data (fuel + 1) db =
      match storageLoadRecord data db.storage db.dimension with
      | (.error _, storage) => some { db with storage := storage }
      | (.ok record, storage) =>
          if hasRoom (grownForLoad db).recordsBytes ((grownForLoad db).records.length + 1) then
            loadRecords data fuel
              { grownForLoad db with
                records := (grownForLoad db).records ++ [record]
                storage := storage }
          else none := rfl

/-- The load loop is a run of loads. -/
theorem loadRecords_run {data : List UInt8} {fuel : Nat} {opened : FlatDb}
    (tracks : array.Tracks db) (held : array.bytes ≠ none)
    (loaded : loadRecords data fuel db = some opened) :
    ∃ loads final, GuardedRun.run step array (List.replicate loads .load) = some final ∧
      final.Tracks opened ∧ opened.records.length = db.records.length + loads := by
  induction fuel generalizing db array with
  | zero => cases loaded
  | succ fuel ih =>
      rw [loadRecords_succ] at loaded
      split at loaded
      · cases loaded
        exact ⟨0, array, rfl, ⟨tracks.countEq, tracks.capacityEq, tracks.bytesEq⟩, rfl⟩
      · next record storage _ =>
          split at loaded
          · next room =>
              obtain ⟨next, stepped, nextTracks⟩ := tracks.load held record storage room
              obtain ⟨loads, final, ran, finalTracks, lengthEq⟩ :=
                ih nextTracks (load_held stepped) loaded
              refine ⟨loads + 1, final, ?_, finalTracks, ?_⟩
              · simp only [List.replicate_succ, GuardedRun.run, step, stepped, ran]
              · rw [lengthEq, List.length_append, grownForLoad_records, Nat.add_assoc,
                  Nat.add_comm loads]
                rfl
          · cases loaded

/-- `db_init` makes the array and loads the records one by one. -/
theorem dbInit_run {fuel : Nat} {name : CString} {dimension initialCapacity : UInt64}
    {metric : UInt32} {dir after : TableDir} {opened : FlatDb}
    (init : dbInit fuel name dimension initialCapacity metric dir = some (after, some opened)) :
    ∃ final, GuardedRun.run step (create initialCapacity)
        (List.replicate opened.records.length .load) = some final ∧ final.Tracks opened := by
  unfold dbInit at init
  split at init
  · obtain ⟨db, loaded, same⟩ := Option.map_eq_some_iff.mp init
    cases same
    obtain ⟨loads, final, ran, tracks, lengthEq⟩ :=
      loadRecords_run (show (create initialCapacity).Tracks _ from ⟨rfl, rfl, rfl⟩) nofun loaded
    have loadsEq : loads = opened.records.length := by
      rw [lengthEq]
      exact (Nat.zero_add loads).symm
    exact ⟨final, loadsEq ▸ ran, tracks⟩
  · cases init

theorem Tracks.growInsert (tracks : array.Tracks db) (held : array.bytes ≠ none) :
    ∃ grown, array.growInsert = some (grown, (growForInsert db).2) ∧
      grown.Tracks (growForInsert db).1 := by
  by_cases full : db.records.length = db.capacity.toNat
  · have arrayFull := tracks.full_iff.mpr full
    obtain ⟨grown, reallocated, grownTracks⟩ := tracks.realloc held (db.capacity * 2)
    have grownEq : grown.bytes = granted (db.capacity * 2) := by
      obtain ⟨bytes, -, rfl⟩ := Option.map_eq_some_iff.mp reallocated
      rfl
    rw [RecordArray.growInsert, if_pos arrayFull, tracks.capacityEq, reallocated, Option.map_some,
      grownEq]
    by_cases zero : sizeofRecord * (db.capacity * 2) = 0
    · simp only [growForInsert, granted, full, zero, if_true]
      exact ⟨_, rfl, tracks.countEq, rfl, rfl⟩
    · simp only [growForInsert, granted, full, zero, if_true, if_false, reduceCtorEq]
      exact ⟨_, rfl, grownTracks⟩
  · rw [RecordArray.growInsert, if_neg (mt tracks.full_iff.mp full), growForInsert, if_neg full]
    exact ⟨array, rfl, tracks⟩

/-- An insert is an insert on the numbers. -/
theorem dbInsert_tracks {io : WriteIO} {data file : List UInt8} {id : UInt32}
    {vector : List UInt32} {metadata : Option CString} {code : Int} {after : FlatDb}
    (tracks : array.Tracks db) (held : array.bytes ≠ none)
    (inserted : dbInsert io data db id vector metadata = some (code, file, after)) :
    ∃ next, array.step (.insert (code == 0)) = some next ∧ next.Tracks after := by
  obtain ⟨grown, grew, grownTracks⟩ := tracks.growInsert held
  unfold dbInsert at inserted
  split at inserted
  · next released failed =>
      cases inserted
      rw [failed] at grew grownTracks
      exact ⟨grown, by simp only [step, insert, grew], grownTracks⟩
  · next table succeeded =>
      rw [succeeded] at grew grownTracks
      split at inserted
      · next fits =>
          dsimp only at inserted
          split at inserted
          · cases inserted
          · next writeCode written storage _ =>
              obtain ⟨stored, storedEq, storedTracks⟩ := grownTracks.store fits.1
              split at inserted
              · cases inserted
                have stepped : array.step (.insert false) =
                    some { stored with count := grown.count } := by
                  simp only [step, insert, grew, storeInserted, storedEq, Option.map_some]
                  rfl
                have uncounted := storedTracks [Record.blank] storage rfl
                exact ⟨_, stepped, grownTracks.countEq, uncounted.capacityEq,
                  uncounted.bytesEq⟩
              · cases inserted
                have stepped : array.step (.insert true) = some stored := by
                  simp only [step, insert, grew, storeInserted, storedEq, Option.map_some]
                  rfl
                exact ⟨stored, stepped, storedTracks _ storage rfl⟩
      · cases inserted

/-- The copy of the queue stays within the allocation in both or in neither. -/
theorem Tracks.store_queue (tracks : array.Tracks db) (data : List UInt8) (table : OpenTable) :
    Option.Rel (fun (next : RecordArray) (merged : OpenTable) => next.Tracks merged.db)
      (array.store table.insertQueue.length)
      (if hasRoom db.recordsBytes (db.records.length + table.insertQueue.length) then
        some (mergedTable data table db)
      else none) := by
  by_cases room : hasRoom db.recordsBytes (db.records.length + table.insertQueue.length) = true
  · obtain ⟨next, stored, nextTracks⟩ := tracks.store room
    rw [if_pos room, stored]
    exact Option.Rel.some (nextTracks _ _ (List.length_map _))
  · have outside := room
    rw [← tracks.bytesEq, ← tracks.countEq] at outside
    rw [if_neg room, RecordArray.store, if_neg outside]
    exact Option.Rel.none

/-- A merge is a merge on the numbers, defined where it is. -/
theorem mergeQueue_tracks (table : OpenTable) (tracks : array.Tracks table.db)
    (held : array.bytes ≠ none) (small : table.insertQueue.length < 2 ^ 64)
    (data : List UInt8) :
    Option.Rel (fun (next : RecordArray) (merged : OpenTable) => next.Tracks merged.db)
      (array.step (.merge (UInt64.ofNat table.insertQueue.length))) (mergeQueue data table) := by
  by_cases nothing : table.insertQueue = []
  · simp only [mergeQueue, nothing]
    exact Option.Rel.some tracks
  · have lengthEq := UInt64.toNat_ofNat_of_lt' small
    have positive : 0 < table.insertQueue.length := List.length_pos_iff.mpr nothing
    have nonzero : UInt64.ofNat table.insertQueue.length ≠ 0 := by
      intro zero
      rw [zero, UInt64.toNat_zero] at lengthEq
      omega
    simp only [mergeQueue, if_neg nothing, growForMerge, step, merge, if_neg nonzero,
      tracks.countEq, tracks.capacityEq, lengthEq]
    split
    · cases growCapacity (UInt64.ofNat table.db.records.length +
          UInt64.ofNat table.insertQueue.length) 65 table.db.capacity with
      | none => exact Option.Rel.none
      | some capacity =>
          obtain ⟨grown, reallocated, grownTracks⟩ := tracks.realloc held capacity
          simp only [Option.map_some, reallocated, Option.bind_some]
          exact grownTracks.store_queue data table
    · exact tracks.store_queue data table

theorem compactCopy_length_le {data file out : List UInt8} {storage : Storage}
    {dimension : UInt64} {records : List Record} {kept : List (Record × UInt64)}
    (copied : compactCopy data storage dimension records out = some (kept, file)) :
    kept.length ≤ records.length := by
  induction records generalizing out kept with
  | nil =>
      cases copied
      exact Nat.le_refl _
  | cons record rest ih =>
      simp only [compactCopy] at copied
      split at copied
      · exact (ih copied).trans (Nat.le_succ _)
      · split at copied
        · cases copied
        · obtain ⟨⟨keptRest, fileRest⟩, copiedRest, same⟩ := Option.map_eq_some_iff.mp copied
          cases same
          exact Nat.succ_le_succ (ih copiedRest)

theorem storageCompact_length_le {io : CompactIO} {data file : List UInt8}
    {storage after : Storage} {records kept : List Record} {dimension : UInt64} {code : Int}
    (compacted : storageCompact io data storage records dimension =
      some (code, file, after, kept)) : kept.length ≤ records.length := by
  cases io with
  | writeFailed =>
      cases compacted
      exact Nat.le_refl _
  | renameFailed reopened =>
      obtain ⟨_, -, same⟩ := Option.map_eq_some_iff.mp compacted
      cases same
      exact Nat.le_refl _
  | reopenFailed =>
      obtain ⟨_, -, same⟩ := Option.map_eq_some_iff.mp compacted
      cases same
      exact Nat.le_refl _
  | ok =>
      obtain ⟨⟨rows, written⟩, copied, same⟩ := Option.map_eq_some_iff.mp compacted
      cases same
      rw [List.length_map]
      exact compactCopy_length_le copied

/-- A compaction is a compaction on the numbers. -/
theorem dbCompact_tracks {io : CompactIO} {data file : List UInt8} {code : Int}
    {after : FlatDb} (tracks : array.Tracks db) (held : array.bytes ≠ none)
    (compacted : dbCompact io data db = some (code, file, after)) :
    ∃ next, array.step (.compact (code == 0) (db.records.length - after.records.length)) =
        some next ∧ next.Tracks after := by
  obtain ⟨⟨result, written, storage, records⟩, stored, same⟩ :=
    Option.map_eq_some_iff.mp compacted
  have fewer := storageCompact_length_le stored
  dsimp only at same
  split at same
  · cases same
    exact ⟨array, rfl, tracks.countEq, tracks.capacityEq, tracks.bytesEq⟩
  · cases same
    have keptEq : array.count - (db.records.length - records.length) = records.length := by
      rw [tracks.countEq]
      omega
    obtain ⟨next, reallocated, nextTracks⟩ :=
      tracks.realloc held (if 0 < records.length then UInt64.ofNat records.length else 1)
    have stepped : array.step (.compact true (db.records.length - records.length)) =
        some { next with count := records.length, stored := records.length } := by
      simp only [step, compact, if_true, keptEq, reallocated, Option.map_some]
    exact ⟨_, stepped, rfl, nextTracks.capacityEq, nextTracks.bytesEq⟩

/-- What room in the numbers means for the table they track. -/
theorem Tracks.table_hasRoom (tracks : array.Tracks db) (room : array.HasRoom) :
    db.records.length ≤ db.capacity.toNat ∧
      sizeofRecord.toNat * db.capacity.toNat ≤ db.recordsBytes.toNat := by
  rw [← tracks.countEq, ← tracks.capacityEq, ← tracks.bytesEq]
  exact ⟨room.countLe, room.bytesLe⟩

/-! ### Runs of calls -/

/-- A call on a table, with what it finds on the disk and in the insert queue. -/
inductive TableCall where
  | insert (io : WriteIO) (data : List UInt8) (id : UInt32) (vector : List UInt32)
      (metadata : Option CString)
  | merge (data : List UInt8) (table : OpenTable) (small : table.insertQueue.length < 2 ^ 64)
  | compact (io : CompactIO) (data : List UInt8)

def callTable (db : FlatDb) : TableCall → Option FlatDb
  | .insert io data id vector metadata =>
      (dbInsert io data db id vector metadata).map fun (_, _, after) => after
  | .merge data table _ => (mergeQueue data { table with db := db }).map OpenTable.db
  | .compact io data => (dbCompact io data db).map fun (_, _, after) => after

/-- What a call is to the numbers. -/
def actionOf (db : FlatDb) : TableCall → ArrayAction
  | .insert io data id vector metadata =>
      .insert ((dbInsert io data db id vector metadata).any fun (code, _, _) => code == 0)
  | .merge _ table _ => .merge (UInt64.ofNat table.insertQueue.length)
  | .compact io data =>
      match dbCompact io data db with
      | none => .compact false 0
      | some (code, _, after) => .compact (code == 0) (db.records.length - after.records.length)

def actionsOf : FlatDb → List TableCall → List ArrayAction
  | _, [] => []
  | db, call :: rest =>
      actionOf db call :: (callTable db call).elim [] fun after => actionsOf after rest

theorem call_tracks {call : TableCall} {after : FlatDb} (tracks : array.Tracks db)
    (held : array.bytes ≠ none) (called : callTable db call = some after) :
    ∃ next, array.step (actionOf db call) = some next ∧ next.Tracks after := by
  cases call with
  | insert io data id vector metadata =>
      obtain ⟨⟨code, file, inserted⟩, insertedEq, rfl⟩ := Option.map_eq_some_iff.mp called
      simp only [actionOf, insertedEq, Option.any_some]
      exact dbInsert_tracks tracks held insertedEq
  | merge data table small =>
      obtain ⟨merged, mergedEq, rfl⟩ := Option.map_eq_some_iff.mp called
      have related := mergeQueue_tracks { table with db := db } tracks held small data
      rw [mergedEq] at related
      dsimp only [actionOf]
      generalize array.step (.merge (UInt64.ofNat table.insertQueue.length)) = next at related ⊢
      cases related with
      | some nextTracks => exact ⟨_, rfl, nextTracks⟩
  | compact io data =>
      obtain ⟨⟨code, file, compacted⟩, compactedEq, rfl⟩ := Option.map_eq_some_iff.mp called
      simp only [actionOf, compactedEq]
      exact dbCompact_tracks tracks held compactedEq

/-- An array with room that has been released can only be left alone. -/
theorem released_step {action : ArrayAction} (room : array.HasRoom)
    (released : array.bytes = none) (stepped : array.step action = some next) :
    next = array ∧ (action = .merge 0 ∨ ∃ deleted, action = .compact false deleted) := by
  have noRealloc : ∀ capacity, array.realloc capacity = none := by
    intro capacity
    rw [realloc, released, Option.map_none]
  have empty : array.capacity = 0 := by
    by_contra positive
    exact room.held positive released
  have noRecords : array.count = 0 := by
    have countLe := room.countLe
    rw [empty, UInt64.toNat_zero] at countLe
    omega
  have full : array.count = array.capacity.toNat := by
    rw [noRecords, empty]
    rfl
  cases action with
  | load =>
      simp only [step, load, if_pos full, noRealloc, Option.bind_none, reduceCtorEq] at stepped
  | insert written =>
      simp only [step, insert, growInsert, if_pos full, noRealloc, Option.map_none,
        reduceCtorEq] at stepped
  | merge n =>
      by_cases nothing : n = 0
      · simp only [step, merge, if_pos nothing, Option.some.injEq] at stepped
        exact ⟨stepped.symm, Or.inl (by rw [nothing])⟩
      · have short : (0 : UInt64) < UInt64.ofNat 0 + n := by
          rw [UInt64.lt_iff_toNat_lt, UInt64.toNat_zero]
          apply Nat.pos_of_ne_zero
          intro zero
          exact nothing ((UInt64.zero_add n).symm.trans (UInt64.toNat_inj.mp zero))
        simp only [step, merge, if_neg nothing, noRecords, empty, if_pos short, noRealloc,
          Option.bind_none] at stepped
        split at stepped
        · cases stepped
        · cases stepped
  | compact swapped deleted =>
      cases swapped with
      | true =>
          simp only [step, compact, if_true, noRealloc, Option.map_none, reduceCtorEq] at stepped
      | false => exact ⟨(Option.some.inj stepped).symm, Or.inr ⟨deleted, rfl⟩⟩

theorem released_call {call : TableCall} {after : FlatDb} (tracks : array.Tracks db)
    (room : array.HasRoom) (released : array.bytes = none)
    (stepped : array.step (actionOf db call) = some next)
    (called : callTable db call = some after) : next.Tracks after := by
  obtain ⟨rfl, action⟩ := released_step room released stepped
  cases call with
  | insert io data id vector metadata =>
      rcases action with impossible | ⟨deleted, impossible⟩
      · cases impossible
      · cases impossible
  | merge data table small =>
      rcases action with noneQueued | ⟨deleted, impossible⟩
      · have lengthEq := UInt64.toNat_ofNat_of_lt' small
        rw [ArrayAction.merge.inj noneQueued, UInt64.toNat_zero] at lengthEq
        have nothing : table.insertQueue = [] := List.length_eq_zero_iff.mp lengthEq.symm
        simp only [callTable, mergeQueue, nothing, if_true, Option.map_some,
          Option.some.injEq] at called
        rw [← called]
        exact tracks
      · cases impossible
  | compact io data =>
      obtain ⟨⟨code, file, compacted⟩, compactedEq, rfl⟩ := Option.map_eq_some_iff.mp called
      rcases action with impossible | ⟨deleted, failed⟩
      · simp only [actionOf, compactedEq, reduceCtorEq] at impossible
      · simp only [actionOf, compactedEq] at failed
        have codeNe : code ≠ 0 := ne_of_beq_false (ArrayAction.compact.inj failed).1
        obtain ⟨⟨result, written, storage, records⟩, -, same⟩ :=
          Option.map_eq_some_iff.mp compactedEq
        dsimp only at same
        split at same
        · cases same
          exact ⟨tracks.countEq, tracks.capacityEq, tracks.bytesEq⟩
        · cases same
          exact absurd rfl codeNe

/-- The numbers of a run of calls are a run on the numbers, as long as there is room. -/
theorem calls_keep_room {calls : List TableCall} {final : FlatDb} (tracks : array.Tracks db)
    (always : GuardedRun.AllStates step HasRoom array (actionsOf db calls))
    (ran : GuardedRun.run callTable db calls = some final) :
    final.records.length ≤ final.capacity.toNat ∧
      sizeofRecord.toNat * final.capacity.toNat ≤ final.recordsBytes.toNat := by
  induction calls generalizing db array with
  | nil =>
      cases Option.some.inj ran
      exact tracks.table_hasRoom always.here
  | cons call rest ih =>
      simp only [GuardedRun.run] at ran
      cases called : callTable db call with
      | none =>
          rw [called] at ran
          cases ran
      | some after =>
          rw [called] at ran
          rw [actionsOf, called] at always
          obtain ⟨room, next, stepped, later⟩ := always
          have nextTracks : next.Tracks after := by
            by_cases held : array.bytes = none
            · exact released_call tracks room held stepped called
            · obtain ⟨other, otherStepped, otherTracks⟩ := call_tracks tracks held called
              rw [Option.some.inj (stepped.symm.trans otherStepped)]
              exact otherTracks
          exact ih nextTracks later ran

/-- Where the numbers of a table always have room, so has the table: from `db_init` through
any calls. -/
theorem opened_table_has_room {fuel : Nat} {name : CString}
    {dimension initialCapacity : UInt64} {metric : UInt32} {dir after : TableDir}
    {opened final : FlatDb} {calls : List TableCall}
    (init : dbInit fuel name dimension initialCapacity metric dir = some (after, some opened))
    (ran : GuardedRun.run callTable opened calls = some final)
    (always : AlwaysRoom initialCapacity
      (List.replicate opened.records.length .load ++ actionsOf opened calls)) :
    final.records.length ≤ final.capacity.toNat ∧
      sizeofRecord.toNat * final.capacity.toNat ≤ final.recordsBytes.toNat := by
  obtain ⟨loaded, loadsRan, tracks⟩ := dbInit_run init
  exact calls_keep_room tracks (always.of_append loadsRan) ran

end RecordArray

end OriginDb
