/-
The pending list in memory against `pending.bin`.

Searches skip the ids of the list that the table keeps in memory.  A pass of
the sync worker reloads it when a request has marked it dirty, and only then
executes the queue; an execution that clears the file marks nothing.  The
module states what one pass leaves, for every table and every file.
-/

import OriginDb.QueueExecution
import OriginDb.ServerTable

namespace OriginDb

open Foundation

/-- One pass of `sync_worker` over a table. -/
def syncPass (io : ExecuteIO) (removed : Bool) (now : UInt64) (dir : TableDir)
    (table : OpenTable) : Option (TableDir × OpenTable) :=
  match mergeQueue (dir.dataDb.getD []) table with
  | none => none
  | some merged =>
      (autoDelete io now dir (refreshPending dir.pendingBin merged)).map
        fun (compacted, dir, table) =>
          if 0 < compacted then
            ({ dir with ivfIndex := if removed then none else dir.ivfIndex },
              clearCachedIndex table)
          else (dir, table)

/-- The list in memory holds the ids of the file, sorted. -/
structure ListsQueue (db : FlatDb) (pendingBin : Option (List UInt8)) : Prop where
  perm : (db.pendingDeletes.getD []).Perm (queuedIds pendingBin)
  sorted : (db.pendingDeletes.getD []).Pairwise (· ≤ ·)
  count : db.pendingCount = (queuedIds pendingBin).length

/-- Only ids of the file are skipped by a search. -/
def HidesOnlyQueued (db : FlatDb) (pendingBin : Option (List UInt8)) : Prop :=
  ∀ id, id ∉ queuedIds pendingBin → isPendingDelete id db.pendingDeletes db.pendingCount = false

/-- The pass does not clear a queue that has entries. -/
def LeavesQueue (io : ExecuteIO) (now : UInt64) (dir : TableDir) : Prop :=
  getAutoDeleteSchedule dir.autoDeleteSchedule = 0 ∨
    now < getAutoDeleteSchedule dir.autoDeleteSchedule ∨
    queuedIds dir.pendingBin = [] ∨ io.clears = false

/-! ### The searches -/

theorem ListsQueue.hidesOnlyQueued {db : FlatDb} {pendingBin : Option (List UInt8)}
    (lists : ListsQueue db pendingBin) : HidesOnlyQueued db pendingBin := by
  intro id notQueued
  unfold isPendingDelete
  split
  · rfl
  · rename_i ids pendingEq
    split
    · rfl
    · apply Bool.eq_false_iff.mpr
      intro found
      apply notQueued
      apply lists.perm.mem_iff.mp
      rw [pendingEq]
      exact mem_of_bsearch found

/-! ### The parts of a pass -/

theorem growForMerge_pending {db grown : FlatDb} {n : UInt64}
    (grew : growForMerge db n = some grown) :
    grown.pendingDeletes = db.pendingDeletes ∧ grown.pendingCount = db.pendingCount := by
  unfold growForMerge at grew
  dsimp only at grew
  split at grew
  · obtain ⟨capacity, -, rfl⟩ := Option.map_eq_some_iff.mp grew
    exact ⟨rfl, rfl⟩
  · cases grew
    exact ⟨rfl, rfl⟩

theorem mergeQueue_pending {data : List UInt8} {table merged : OpenTable}
    (called : mergeQueue data table = some merged) :
    merged.db.pendingDeletes = table.db.pendingDeletes ∧
      merged.db.pendingCount = table.db.pendingCount ∧
      merged.pendingDeleteDirty = table.pendingDeleteDirty := by
  unfold mergeQueue at called
  split at called
  · cases called
    exact ⟨rfl, rfl, rfl⟩
  · split at called
    · cases called
    · rename_i grown grew
      split at called
      · cases called
        obtain ⟨pendingEq, countEq⟩ := growForMerge_pending grew
        exact ⟨pendingEq, countEq, rfl⟩
      · cases called

theorem listsQueue_of_loaded {db : FlatDb} {pendingBin : Option (List UInt8)}
    (pendingEq : db.pendingDeletes = (loadPendingDeletes pendingBin).1)
    (countEq : db.pendingCount = (loadPendingDeletes pendingBin).2) : ListsQueue db pendingBin := by
  obtain ⟨perm, sorted, count⟩ := loadsSorted_pendingIds pendingBin
  constructor
  · rw [pendingEq]
    exact perm
  · rw [pendingEq]
    exact sorted
  · rw [countEq, count]
    exact perm.length_eq

/-- After the reload the list follows the file, whether it was due or not. -/
theorem refreshPending_lists {pendingBin : Option (List UInt8)} {table : OpenTable}
    (follows : ListsQueue table.db pendingBin ∨ table.pendingDeleteDirty = true) :
    ListsQueue (refreshPending pendingBin table).db pendingBin := by
  unfold refreshPending
  split
  · exact listsQueue_of_loaded rfl rfl
  · rename_i clean
    exact follows.resolve_right clean

theorem dbDelete_pending (io : DeleteIO) (data : List UInt8) (db : FlatDb) (id : UInt64) :
    (dbDelete io data db id).2.2.pendingDeletes = db.pendingDeletes ∧
      (dbDelete io data db id).2.2.pendingCount = db.pendingCount := by
  unfold dbDelete
  split
  · exact ⟨rfl, rfl⟩
  · split
    · exact ⟨rfl, rfl⟩
    · dsimp only
      split
      · exact ⟨rfl, rfl⟩
      · cases io with
        | ok => exact ⟨rfl, rfl⟩
        | seekFailed => exact ⟨rfl, rfl⟩
        | patchFailed => exact ⟨rfl, rfl⟩
        | writeBackLost => exact ⟨rfl, rfl⟩

theorem deleteLoop_pending (ios : Nat → DeleteIO) (ids : List UInt64) (index : Nat)
    (data : List UInt8) (db : FlatDb) :
    (deleteLoop ios ids index data db).2.1.pendingDeletes = db.pendingDeletes ∧
      (deleteLoop ios ids index data db).2.1.pendingCount = db.pendingCount := by
  induction ids generalizing index data db with
  | nil => exact ⟨rfl, rfl⟩
  | cons id rest ih =>
      obtain ⟨pendingOne, countOne⟩ := dbDelete_pending (ios index) data db id
      obtain ⟨pendingRest, countRest⟩ := ih (index + 1) (dbDelete (ios index) data db id).2.1
        (dbDelete (ios index) data db id).2.2
      exact ⟨pendingRest.trans pendingOne, countRest.trans countOne⟩

theorem dbCompact_pending {io : CompactIO} {data file : List UInt8} {db compacted : FlatDb}
    {code : Int} (called : dbCompact io data db = some (code, file, compacted)) :
    compacted.pendingDeletes = db.pendingDeletes ∧ compacted.pendingCount = db.pendingCount := by
  obtain ⟨⟨status, written, storage, records⟩, -, shape⟩ := Option.map_eq_some_iff.mp called
  dsimp only at shape
  split at shape
  · cases shape
    exact ⟨rfl, rfl⟩
  · cases shape
    exact ⟨rfl, rfl⟩

/-- An execution leaves the list alone and clears the file, if it is due and
finds an entry. -/
theorem checkAndRunAutoDelete_pending {io : ExecuteIO} {now : UInt64} {dir after : TableDir}
    {db next : FlatDb} {code : Int}
    (called : checkAndRunAutoDelete io now dir db = some (code, after, next)) :
    next.pendingDeletes = db.pendingDeletes ∧ next.pendingCount = db.pendingCount ∧
      (LeavesQueue io now dir → queuedIds after.pendingBin = queuedIds dir.pendingBin) ∧
      (¬LeavesQueue io now dir → queuedIds after.pendingBin = []) := by
  unfold checkAndRunAutoDelete at called
  dsimp only at called
  split at called
  · rename_i unset
    cases called
    exact ⟨rfl, rfl, fun _ => rfl, fun executes => absurd (Or.inl unset) executes⟩
  · rename_i isSet
    split at called
    · rename_i early
      cases called
      exact ⟨rfl, rfl, fun _ => rfl, fun executes => absurd (Or.inr (Or.inl early)) executes⟩
    · rename_i due
      split at called
      · rename_i ids count loadedEq
        obtain ⟨pendingLoop, countLoop⟩ :=
          deleteLoop_pending io.deletes ids 0 (dir.dataDb.getD []) db
        have cleared : (LeavesQueue io now dir →
              queuedIds (clearPendingDeletes io.clears dir.pendingBin).2 =
                queuedIds dir.pendingBin) ∧
            (¬LeavesQueue io now dir →
              queuedIds (clearPendingDeletes io.clears dir.pendingBin).2 = []) := by
          rw [queuedIds_clear]
          constructor
          · intro leaves
            rcases leaves with unset | later | empty | refused
            · exact absurd unset isSet
            · exact absurd later due
            · rw [empty, ite_self]
            · rw [refused]
              rfl
          · intro executes
            have clears : io.clears = true := by
              cases clearsEq : io.clears with
              | true => rfl
              | false => exact absurd (Or.inr (Or.inr (Or.inr clearsEq))) executes
            rw [clears]
            rfl
        split at called
        · obtain ⟨⟨status, file, compacted⟩, compactedEq, shape⟩ :=
            Option.map_eq_some_iff.mp called
          cases shape
          obtain ⟨pendingCompact, countCompact⟩ := dbCompact_pending compactedEq
          exact ⟨pendingCompact.trans pendingLoop, countCompact.trans countLoop, cleared⟩
        · cases called
          exact ⟨pendingLoop, countLoop, cleared⟩
      · rename_i count loadedEq
        cases called
        have empty : queuedIds dir.pendingBin = [] := by
          apply List.eq_nil_iff_forall_not_mem.mpr
          intro id member
          rw [← loaded_mem_iff, loadedEq] at member
          cases member
        exact ⟨rfl, rfl, fun _ => rfl, fun _ => empty⟩

/-! ### One pass -/

/-- What a pass does to the list and to the file. -/
theorem syncPass_parts {io : ExecuteIO} {removed : Bool} {now : UInt64} {dir after : TableDir}
    {table next : OpenTable} (ran : syncPass io removed now dir table = some (after, next)) :
    ∃ merged code executed db, mergeQueue (dir.dataDb.getD []) table = some merged ∧
      checkAndRunAutoDelete io now dir (refreshPending dir.pendingBin merged).db =
        some (code, executed, db) ∧
      after.pendingBin = executed.pendingBin ∧ next.db = db := by
  unfold syncPass at ran
  split at ran
  · cases ran
  · rename_i merged mergedEq
    obtain ⟨⟨compacted, executed, deleted⟩, called, shape⟩ := Option.map_eq_some_iff.mp ran
    obtain ⟨⟨code, cleared, db⟩, executedEq, same⟩ := Option.map_eq_some_iff.mp called
    cases same
    refine ⟨merged, compacted, executed, db, mergedEq, executedEq, ?_⟩
    dsimp only at shape
    split at shape
    · cases shape
      exact ⟨rfl, rfl⟩
    · cases shape
      exact ⟨rfl, rfl⟩

theorem ListsQueue.of_same {db db' : FlatDb} {pendingBin pendingBin' : Option (List UInt8)}
    (lists : ListsQueue db pendingBin) (pendingEq : db'.pendingDeletes = db.pendingDeletes)
    (countEq : db'.pendingCount = db.pendingCount)
    (queuedEq : queuedIds pendingBin' = queuedIds pendingBin) : ListsQueue db' pendingBin' := by
  constructor
  · rw [pendingEq, queuedEq]
    exact lists.perm
  · rw [pendingEq]
    exact lists.sorted
  · rw [countEq, queuedEq]
    exact lists.count

/-- After a pass the list follows the file, and nothing but the ids of the file
is skipped, exactly if the pass has not cleared a queue with entries. -/
theorem pass_follows_queue_iff (io : ExecuteIO) (removed : Bool) (now : UInt64)
    (dir after : TableDir) (table next : OpenTable)
    (follows : ListsQueue table.db dir.pendingBin ∨ table.pendingDeleteDirty = true)
    (ran : syncPass io removed now dir table = some (after, next)) :
    ListsQueue next.db after.pendingBin ∧ HidesOnlyQueued next.db after.pendingBin ↔
      LeavesQueue io now dir := by
  obtain ⟨merged, code, executed, db, mergedEq, executedEq, pendingBinEq, rfl⟩ :=
    syncPass_parts ran
  obtain ⟨pendingMerged, countMerged, dirtyMerged⟩ := mergeQueue_pending mergedEq
  have followsMerged : ListsQueue merged.db dir.pendingBin ∨ merged.pendingDeleteDirty = true := by
    rcases follows with lists | dirty
    · exact Or.inl (lists.of_same pendingMerged countMerged rfl)
    · exact Or.inr (dirtyMerged.trans dirty)
  have listsReloaded := refreshPending_lists followsMerged
  obtain ⟨pendingEq, countEq, stays, clears⟩ := checkAndRunAutoDelete_pending executedEq
  rw [pendingBinEq]
  constructor
  · intro kept
    apply Classical.byContradiction
    intro executes
    -- The file has become empty, so the list in memory was empty before.
    have noneLeft := kept.1.count
    rw [clears executes, List.length_nil, countEq, listsReloaded.count] at noneLeft
    exact executes (Or.inr (Or.inr (Or.inl (List.length_eq_zero_iff.mp noneLeft))))
  · intro leaves
    have lists := listsReloaded.of_same pendingEq countEq (stays leaves)
    exact ⟨lists, lists.hidesOnlyQueued⟩

/-! ### A table with a request for the id 7 -/

def requestedSlot : OpenTable :=
  { newSlot moviesName twinsTable with pendingDeleteDirty := true }

def listingSlot : OpenTable :=
  { newSlot moviesName twinsTable with
    db :=
      { twinsTable with
        pendingDeletes := some [7]
        pendingCount := 1 } }

theorem queuedIds_twinsDir : queuedIds (twinsDir [7]).pendingBin = [7] := by
  have loaded : (loadPendingDeletes (twinsDir [7]).pendingBin).1.getD [] = [7] := by
    decide +kernel
  have perm := (loadsSorted_pendingIds (twinsDir [7]).pendingBin).1
  rw [loaded] at perm
  exact List.perm_singleton.mp perm.symm

theorem pass_before_schedule_follows :
    ListsQueue listingSlot.db (twinsDir [7]).pendingBin ∧
        HidesOnlyQueued listingSlot.db (twinsDir [7]).pendingBin ↔
      LeavesQueue .ok 0 (twinsDir [7]) :=
  pass_follows_queue_iff .ok true 0 (twinsDir [7]) (twinsDir [7]) requestedSlot listingSlot
    (Or.inr rfl) (by rfl)

/-- The queue is executed and cleared, and the id stays hidden: a record that is
inserted under it now is skipped by every search. -/
theorem executed_queue_stays_listed :
    ListsQueue listingSlot.db (twinsDir [7]).pendingBin ∧
      ∃ after next, syncPass .ok true 5 (twinsDir [7]) listingSlot = some (after, next) ∧
        ¬ListsQueue next.db after.pendingBin ∧ 7 ∉ queuedIds after.pendingBin ∧
          isPendingDelete 7 next.db.pendingDeletes next.db.pendingCount = true := by
  constructor
  · constructor
    · rw [queuedIds_twinsDir]
      exact List.Perm.refl _
    · exact List.pairwise_singleton _ _
    · rw [queuedIds_twinsDir]
      rfl
  · have computed : (syncPass .ok true 5 (twinsDir [7]) listingSlot).map
        (fun result => (result.1.pendingBin, result.2.db.pendingDeletes,
          result.2.db.pendingCount)) = some (some [], some [7], 1) := by
      decide +kernel
    obtain ⟨⟨after, next⟩, ran, shape⟩ := Option.map_eq_some_iff.mp computed
    obtain ⟨pendingBinEq, shape⟩ := Prod.mk.inj shape
    obtain ⟨pendingEq, countEq⟩ := Prod.mk.inj shape
    have empty : queuedIds after.pendingBin = [] := by
      rw [pendingBinEq]
      simp [queuedIds, pendingIds]
    refine ⟨after, next, ran, ?_, ?_, ?_⟩
    · intro lists
      have noneListed := lists.count
      rw [empty, countEq] at noneListed
      cases noneListed
    · rw [empty]
      exact List.not_mem_nil
    · rw [pendingEq, countEq]
      decide

end OriginDb
