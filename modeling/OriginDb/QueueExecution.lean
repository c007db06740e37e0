/-
Executing the delete queue.

A record is hidden from search while its id is in `pending.bin`.  Executing the
queue calls `db_delete` once per entry, clears the file and compacts if some
call has reported success.  Each call takes out one live record at most and may
fail, while the file is cleared as a whole, so a hidden record can come back.
The module counts, per id, the live records against the calls that take one
out, and states when nothing comes back.
-/

import OriginDb.Reopen
import OriginDb.TableAgreement

namespace OriginDb

open Foundation

variable {dimension : UInt64}

/-! ### The command-line executor -/

/-- `process-deletes` after the confirmation: the table is opened from disk, and
once more for the compaction. -/
def processDeletes (fuel : Nat) (io : ExecuteIO) (name : CString) (dir : TableDir) :
    Option TableDir :=
  match loadPendingDeletes dir.pendingBin with
  | (none, _) => some dir
  | (some ids, _) =>
      match dbOpen fuel name dir with
      | none => none
      | some (opened, none) => some opened
      | some (opened, some tempDb) =>
          let (data, _, successes) :=
            deleteLoop io.deletes ids 0 (opened.dataDb.getD []) tempDb
          let deleted := { opened with dataDb := some data }
          let cleared := (clearPendingDeletes io.clears dir.pendingBin).2
          if 0 < successes then
            match dbOpen fuel name deleted with
            | none => none
            | some (reopened, none) => some { reopened with pendingBin := cleared }
            | some (reopened, some compactDb) =>
                (dbCompact io.compact data compactDb).map fun (code, file, _) =>
                  { reopened with
                    dataDb := some file
                    ivfIndex := if code = 0 then none else reopened.ivfIndex
                    pendingBin := cleared }
          else some { deleted with pendingBin := cleared }

/-! ### What the loop does to the flags in memory -/

/-- The flags after the calls for `ids`, the first of them at `index`. -/
def deleteAllMem (ios : Nat → DeleteIO) :
    List UInt64 → Nat → List (StoredRecord dimension) → List (StoredRecord dimension)
  | [], _, mem => mem
  | id :: rest, index, mem => deleteAllMem ios rest (index + 1) (deleteMem (ios index) id mem)

def successCount (ios : Nat → DeleteIO) :
    List UInt64 → Nat → List (StoredRecord dimension) → Nat
  | [], _, _ => 0
  | id :: rest, index, mem =>
      let later := successCount ios rest (index + 1) (deleteMem (ios index) id mem)
      if DeleteSucceeds (ios index) id mem then later + 1 else later

theorem Agrees.deleteLoop {data : List UInt8} {db : FlatDb}
    {mem disk : List (StoredRecord dimension)} (ios : Nat → DeleteIO) (ids : List UInt64)
    (index : Nat) (agrees : Agrees data db mem disk) :
    ∃ file next disk', deleteLoop ios ids index data db =
        (file, next, successCount ios ids index mem) ∧
      Agrees file next (deleteAllMem ios ids index mem) disk' ∧
      (successCount ios ids index mem = 0 → file = data) := by
  induction ids generalizing data db mem disk index with
  | nil => exact ⟨data, db, disk, rfl, agrees, fun _ => rfl⟩
  | cons id rest ih =>
      obtain ⟨code, file, next, disk', called, agreesNext, succeeds, failed, -⟩ :=
        agrees.delete (ios index) id
      obtain ⟨finalFile, finalDb, finalDisk, looped, agreesFinal, unchanged⟩ :=
        ih (index + 1) agreesNext
      refine ⟨finalFile, finalDb, finalDisk, ?_, agreesFinal, ?_⟩
      · simp only [OriginDb.deleteLoop, called, looped, successCount, succeeds]
      · intro noSuccess
        rw [successCount] at noSuccess
        by_cases success : DeleteSucceeds (ios index) id mem
        · rw [if_pos success] at noSuccess
          omega
        · rw [if_neg success] at noSuccess
          have notZero : code ≠ 0 := fun zero => success (succeeds.mp zero)
          rw [unchanged noSuccess, (failed notZero).1]

/-! ### Counting -/

/-- Live records with the id. -/
def liveCount (id : UInt64) (stored : List (StoredRecord dimension)) : Nat :=
  stored.countP fun record => record.id == id && !record.isDeleted

/-- Calls for the id that leave their mark in memory if there is a record to mark. -/
def markingCalls (ios : Nat → DeleteIO) : List UInt64 → Nat → UInt64 → Nat
  | [], _, _ => 0
  | called :: rest, index, id =>
      let later := markingCalls ios rest (index + 1) id
      if called = id ∧ ios index ≠ .patchFailed then later + 1 else later

theorem liveCount_pos_iff {id : UInt64} {stored : List (StoredRecord dimension)} :
    0 < liveCount id stored ↔ ∃ record ∈ stored, record.id = id ∧ record.isDeleted = false := by
  simp only [liveCount, List.countP_pos_iff, Bool.and_eq_true, beq_iff_eq, Bool.not_eq_true']

theorem liveCount_markFirst (called id : UInt64) (stored : List (StoredRecord dimension)) :
    liveCount id (markFirst called stored) =
      liveCount id stored - if called = id then 1 else 0 := by
  induction stored with
  | nil => simp only [markFirst, liveCount, List.countP_nil, Nat.zero_sub]
  | cons first rest ih =>
      rw [markFirst]
      by_cases target : first.id = called ∧ first.isDeleted = false
      · rw [if_pos target]
        rcases target with ⟨rfl, live⟩
        by_cases same : first.id = id
        · simp [liveCount, StoredRecord.mark, same, live]
        · simp [liveCount, StoredRecord.mark, same]
      · rw [if_neg target]
        by_cases counted : first.id = id ∧ first.isDeleted = false
        · have other : called ≠ id := by
            intro same
            subst same
            exact target counted
          simp only [liveCount, List.countP_cons, if_neg other, Nat.sub_zero] at ih ⊢
          rw [ih]
        · have notCounted : (first.id == id && !first.isDeleted) = false := by
            rw [Bool.eq_false_iff]
            intro both
            simp only [Bool.and_eq_true, beq_iff_eq, Bool.not_eq_true'] at both
            exact counted both
          simp only [liveCount, List.countP_cons, notCounted] at ih ⊢
          simpa using ih

theorem liveCount_deleteMem (io : DeleteIO) (called id : UInt64)
    (stored : List (StoredRecord dimension)) :
    liveCount id (deleteMem io called stored) =
      liveCount id stored - if called = id ∧ io ≠ .patchFailed then 1 else 0 := by
  unfold deleteMem
  by_cases failed : io = .patchFailed
  · simp [failed]
  · rw [if_neg failed, liveCount_markFirst]
    simp [failed]

/-- The calls take out one live record each, as long as there is one. -/
theorem liveCount_deleteAllMem (ios : Nat → DeleteIO) (ids : List UInt64) (index : Nat)
    (id : UInt64) (stored : List (StoredRecord dimension)) :
    liveCount id (deleteAllMem ios ids index stored) =
      liveCount id stored - markingCalls ios ids index id := by
  induction ids generalizing index stored with
  | nil => rfl
  | cons called rest ih =>
      rw [deleteAllMem, ih, liveCount_deleteMem, markingCalls]
      split <;> omega

/-- Some call reports success: its disk operations do, and the marking calls
before it have not used up the live records with its id. -/
def SomeCallSucceeds (ios : Nat → DeleteIO) (ids : List UInt64) (index : Nat)
    (stored : List (StoredRecord dimension)) : Prop :=
  ∃ before id after, ids = before ++ id :: after ∧
    (ios (index + before.length) = .ok ∨ ios (index + before.length) = .writeBackLost) ∧
    markingCalls ios before index id < liveCount id stored

theorem someCallSucceeds_cons_iff {ios : Nat → DeleteIO} {called : UInt64} {rest : List UInt64}
    {index : Nat} {stored : List (StoredRecord dimension)} :
    SomeCallSucceeds ios (called :: rest) index stored ↔
      DeleteSucceeds (ios index) called stored ∨
        SomeCallSucceeds ios rest (index + 1) (deleteMem (ios index) called stored) := by
  constructor
  · intro success
    rcases success with ⟨before, id, after, split, reported, remaining⟩
    cases before with
    | nil =>
        obtain ⟨rfl, rfl⟩ := List.cons.inj split
        exact Or.inl ⟨reported, liveCount_pos_iff.mp remaining⟩
    | cons first before =>
        obtain ⟨rfl, rfl⟩ := List.cons.inj split
        right
        refine ⟨before, id, after, rfl, ?_, ?_⟩
        · rw [List.length_cons, ← Nat.add_assoc, Nat.add_right_comm] at reported
          exact reported
        · rw [markingCalls] at remaining
          rw [liveCount_deleteMem]
          by_cases marks : called = id ∧ ios index ≠ .patchFailed
          · rw [if_pos marks] at remaining ⊢
            omega
          · rw [if_neg marks] at remaining ⊢
            omega
  · intro success
    rcases success with ⟨reported, live⟩ | ⟨before, id, after, rfl, reported, remaining⟩
    · exact ⟨[], called, rest, rfl, reported, liveCount_pos_iff.mpr live⟩
    · refine ⟨called :: before, id, after, rfl, ?_, ?_⟩
      · rw [List.length_cons, ← Nat.add_assoc, Nat.add_right_comm]
        exact reported
      · rw [liveCount_deleteMem] at remaining
        rw [markingCalls]
        by_cases marks : called = id ∧ ios index ≠ .patchFailed
        · rw [if_pos marks] at remaining ⊢
          omega
        · rw [if_neg marks] at remaining ⊢
          omega

theorem successCount_pos_iff {ios : Nat → DeleteIO} {ids : List UInt64} {index : Nat}
    {stored : List (StoredRecord dimension)} :
    0 < successCount ios ids index stored ↔ SomeCallSucceeds ios ids index stored := by
  induction ids generalizing index stored with
  | nil =>
      apply iff_of_false (Nat.lt_irrefl 0)
      intro success
      rcases success with ⟨before, id, after, split, -⟩
      cases before <;> cases split
  | cons called rest ih =>
      rw [someCallSucceeds_cons_iff, ← ih, successCount]
      by_cases success : DeleteSucceeds (ios index) called stored
      · rw [if_pos success]
        exact iff_of_true (Nat.succ_pos _) (Or.inl success)
      · rw [if_neg success]
        exact ⟨Or.inr, fun either => either.resolve_left success⟩

/-! ### What a scan finds afterwards -/

/-- Ids of the entries of a queue file, which may not exist. -/
def queuedIds (pendingBin : Option (List UInt8)) : List UInt64 :=
  (pendingBin.map pendingIds).getD []

/-- No live record in the data file has one of the ids that were queued, unless
the id still is. -/
def NothingReappears (dimension : UInt64) (queued : List UInt64) (dir : TableDir) : Prop :=
  let data := dir.dataDb.getD []
  ∃ records code final,
    loadAll data dimension (data.length + 1) (Storage.openAt data 0) =
        some (records, code, final) ∧
      ∀ record ∈ records, record.isDeleted = false → record.id ∈ queued →
        record.id ∈ queuedIds dir.pendingBin

theorem entries_flags (start : Nat) (stored : List (StoredRecord dimension)) :
    ((recordCodec dimension).entries start stored).map
        (fun record => (record.id, record.isDeleted)) =
      stored.map (fun record => (record.id, record.isDeleted)) := by
  induction stored generalizing start with
  | nil => rfl
  | cons first rest ih =>
      simp only [FramedLog.Codec.entries, List.map_cons, ih]
      rfl

theorem nothingReappears_iff {queued : List UInt64} {dir : TableDir}
    {stored : List (StoredRecord dimension)}
    (dataEq : dir.dataDb.getD [] = (recordCodec dimension).encodeAll stored)
    (small : ((recordCodec dimension).encodeAll stored).length < 2 ^ 63) :
    NothingReappears dimension queued dir ↔
      ∀ id ∈ queued, 0 < liveCount id stored → id ∈ queuedIds dir.pendingBin := by
  have enough := (recordCodec dimension).length_le_encodeAll stored
  have scanned := (recordCodec dimension).scan_encodeAll stored _ small (Nat.lt_succ_of_le enough)
  obtain ⟨code, -, final, loaded⟩ := loadAll_of_scan _ _ 0 _ scanned
  have flags := entries_flags 0 stored
  -- A live record is found exactly when the file holds one.
  have found : ∀ id, (∃ record ∈ (recordCodec dimension).entries 0 stored,
      record.id = id ∧ record.isDeleted = false) ↔ 0 < liveCount id stored := by
    intro id
    rw [liveCount_pos_iff]
    have same : ((id, false) ∈ ((recordCodec dimension).entries 0 stored).map
        fun record => (record.id, record.isDeleted)) ↔
        (id, false) ∈ stored.map fun record => (record.id, record.isDeleted) := by
      rw [flags]
    simpa only [List.mem_map, Prod.mk.injEq] using same
  unfold NothingReappears
  rw [dataEq]
  constructor
  · intro hidden id queuedId live
    rcases hidden with ⟨records, code', final', loadedEq, nothing⟩
    rw [loaded] at loadedEq
    cases Option.some.inj loadedEq
    obtain ⟨record, member, rfl, notDeleted⟩ := (found id).mpr live
    exact nothing record member notDeleted queuedId
  · intro nothing
    refine ⟨_, code, _, loaded, ?_⟩
    intro record member notDeleted queuedId
    exact nothing record.id queuedId ((found record.id).mp ⟨record, member, rfl, notDeleted⟩)

/-! ### When nothing comes back -/

/-- No queued id has a live record; or some call reports success, so that the
file is rewritten from memory, and the calls that leave their mark there are,
for every queued id, at least as many as its live records. -/
def AllTakenOut (ios : Nat → DeleteIO) (ids : List UInt64)
    (stored : List (StoredRecord dimension)) : Prop :=
  (∀ id ∈ ids, liveCount id stored = 0) ∨
    (SomeCallSucceeds ios ids 0 stored ∧
      ∀ id ∈ ids, liveCount id stored ≤ markingCalls ios ids 0 id)

theorem loaded_mem_iff (pendingBin : Option (List UInt8)) (id : UInt64) :
    id ∈ (loadPendingDeletes pendingBin).1.getD [] ↔ id ∈ queuedIds pendingBin :=
  (loadsSorted_pendingIds pendingBin).1.mem_iff

theorem queuedIds_clear (clears : Bool) (pendingBin : Option (List UInt8)) :
    queuedIds (clearPendingDeletes clears pendingBin).2 =
      if clears then [] else queuedIds pendingBin := by
  cases clears with
  | true => simp [clearPendingDeletes, queuedIds, pendingIds]
  | false => rfl

theorem mem_queuedIds_clear (clears : Bool) (pendingBin : Option (List UInt8)) (id : UInt64) :
    id ∈ queuedIds (clearPendingDeletes clears pendingBin).2 ↔
      clears = false ∧ id ∈ queuedIds pendingBin := by
  rw [queuedIds_clear]
  cases clears with
  | true => simp
  | false => simp

/-- Reading the condition off a final file that holds `final`. -/
private theorem nothingReappears_cleared {dir after : TableDir} {clears : Bool}
    {final : List (StoredRecord dimension)}
    (dataEq : after.dataDb.getD [] = (recordCodec dimension).encodeAll final)
    (small : ((recordCodec dimension).encodeAll final).length < 2 ^ 63)
    (pendingEq : after.pendingBin = (clearPendingDeletes clears dir.pendingBin).2) :
    NothingReappears dimension (queuedIds dir.pendingBin) after ↔
      clears = false ∨
        ∀ id ∈ (loadPendingDeletes dir.pendingBin).1.getD [], liveCount id final = 0 := by
  rw [nothingReappears_iff dataEq small, pendingEq]
  constructor
  · intro nothing
    by_cases kept : clears = false
    · exact Or.inl kept
    · right
      intro id member
      apply Nat.eq_zero_of_not_pos
      intro live
      apply kept
      have still := nothing id ((loaded_mem_iff _ _).mp member) live
      exact ((mem_queuedIds_clear clears _ id).mp still).1
  · intro condition id queuedId live
    rcases condition with kept | none
    · exact (mem_queuedIds_clear clears _ id).mpr ⟨kept, queuedId⟩
    · have noneLive := none id ((loaded_mem_iff _ _).mpr queuedId)
      omega

theorem liveCount_liveOf (id : UInt64) (stored : List (StoredRecord dimension)) :
    liveCount id (liveOf stored) = liveCount id stored := by
  rw [liveCount, liveOf, List.countP_filter]
  congr 1
  funext record
  cases record.isDeleted <;> simp

/-- The scheduled executor on a table that agrees with its file. -/
theorem checkAndRunAutoDelete_reappears_iff {db : FlatDb} {dir : TableDir}
    {stored : List (StoredRecord dimension)} (ios : Nat → DeleteIO) (clears : Bool)
    (now : UInt64) (agrees : Agrees (dir.dataDb.getD []) db stored stored)
    (scheduled : getAutoDeleteSchedule dir.autoDeleteSchedule ≠ 0)
    (due : ¬now < getAutoDeleteSchedule dir.autoDeleteSchedule) :
    ∃ code after next,
      checkAndRunAutoDelete ⟨ios, clears, .ok⟩ now dir db = some (code, after, next) ∧
        (NothingReappears dimension (queuedIds dir.pendingBin) after ↔
          clears = false ∨
            AllTakenOut ios ((loadPendingDeletes dir.pendingBin).1.getD []) stored) := by
  unfold checkAndRunAutoDelete
  dsimp only
  rw [if_neg scheduled, if_neg due]
  rcases loadedEq : loadPendingDeletes dir.pendingBin with ⟨_ | ids, count⟩
  · refine ⟨_, _, _, rfl, iff_of_true ?_ (Or.inr (Or.inl ?_))⟩
    · have noneQueued : ∀ id, id ∉ queuedIds dir.pendingBin := by
        intro id member
        rw [← loaded_mem_iff, loadedEq] at member
        cases member
      apply (nothingReappears_iff agrees.file (agrees.file ▸ agrees.small)).mpr
      intro id member
      exact absurd member (noneQueued id)
    · intro id member
      cases member
  · obtain ⟨file, next, disk, looped, agreesNext, unchanged⟩ := agrees.deleteLoop ios ids 0
    dsimp only
    rw [looped]
    dsimp only
    by_cases success : 0 < successCount ios ids 0 stored
    · rw [if_pos success]
      have small := agreesNext.liveSmall
      obtain ⟨kept, compacted, -⟩ :=
        dbCompact_eq agreesNext.dimensionEq agreesNext.copyable small
      rw [compacted, Option.map_some]
      refine ⟨_, _, _, rfl, ?_⟩
      apply (nothingReappears_cleared rfl small rfl).trans
      apply or_congr Iff.rfl
      rw [loadedEq]
      -- The compacted file holds what the calls have left live in memory.
      have perId : ∀ id, liveCount id (liveOf (deleteAllMem ios ids 0 stored)) = 0 ↔
          liveCount id stored ≤ markingCalls ios ids 0 id := by
        intro id
        rw [liveCount_liveOf, liveCount_deleteAllMem]
        omega
      simp only [Option.getD_some, perId]
      constructor
      · intro enough
        exact Or.inr ⟨successCount_pos_iff.mp success, enough⟩
      · intro covered id member
        rcases covered with none | ⟨-, enough⟩
        · rw [none id member]
          exact Nat.zero_le _
        · exact enough id member
    · rw [if_neg success]
      refine ⟨_, _, _, rfl, ?_⟩
      have fileEq := (unchanged (Nat.eq_zero_of_not_pos success)).trans agrees.file
      have storedSmall : ((recordCodec dimension).encodeAll stored).length < 2 ^ 63 :=
        agrees.file ▸ agrees.small
      apply Iff.trans (nothingReappears_cleared _ storedSmall rfl) (or_congr Iff.rfl _)
      · exact fileEq
      rw [loadedEq]
      constructor
      · exact Or.inl
      · intro covered
        rcases covered with none | ⟨someSuccess, -⟩
        · exact none
        · exact absurd (successCount_pos_iff.mpr someSuccess) success

/-- The command-line executor opens a table without records, so none of its
calls finds anything to delete. -/
theorem processDeletes_reappears_iff {dir : TableDir} {stored : List (StoredRecord dimension)}
    (fuel : Nat) (ios : Nat → DeleteIO) (clears : Bool) (name : CString) (metric : UInt32)
    (valid : validateDbName name = true)
    (metaEq : dir.metaBin = some (encodeMeta dimension metric))
    (dataEq : dir.dataDb.getD [] = (recordCodec dimension).encodeAll stored)
    (small : (dir.dataDb.getD []).length < 2 ^ 63) :
    ∃ after, processDeletes (fuel + 1) ⟨ios, clears, .ok⟩ name dir = some after ∧
      (NothingReappears dimension (queuedIds dir.pendingBin) after ↔
        clears = false ∨
          ∀ id ∈ (loadPendingDeletes dir.pendingBin).1.getD [], liveCount id stored = 0) := by
  have storedSmall : ((recordCodec dimension).encodeAll stored).length < 2 ^ 63 := dataEq ▸ small
  have complete : ¬(encodeMeta dimension metric).length < 12 := by
    rw [encodeMeta_length]
    decide
  unfold processDeletes
  rcases loadedEq : loadPendingDeletes dir.pendingBin with ⟨_ | ids, count⟩
  · refine ⟨dir, rfl, iff_of_true ?_ (Or.inr ?_)⟩
    · apply (nothingReappears_iff dataEq storedSmall).mpr
      intro id member
      rw [← loaded_mem_iff, loadedEq] at member
      cases member
    · intro id member
      cases member
  · obtain ⟨tempDb, madeEq, noRecords, -⟩ :=
      dbInit_eq dimension fuel name 10 (u32At (encodeMeta dimension metric) 8) dir valid
    have openedEq : dbOpen (fuel + 1) name dir =
        some (openedDir dimension (u32At (encodeMeta dimension metric) 8) dir, some tempDb) := by
      simp only [dbOpen, valid, if_true, metaEq, if_neg complete, u64At_encodeMeta, madeEq]
    dsimp only
    rw [openedEq]
    dsimp only
    rw [deleteLoop_of_no_target ios ids 0 _ (by simp [noRecords])]
    refine ⟨_, rfl, ?_⟩
    apply Iff.trans (nothingReappears_cleared _ storedSmall rfl)
    · rw [loadedEq]
    · exact dataEq

/-! ### Both executors -/

/-- Who executes the queue: the server's pass at clock time `now` on the open
table, or the command line on the table's directory. -/
inductive QueueExecutor where
  | autoDelete (now : UInt64) (db : FlatDb)
  | processDeletes (name : CString)

namespace QueueExecutor

def run (executor : QueueExecutor) (fuel : Nat) (io : ExecuteIO) (dir : TableDir) :
    Option TableDir :=
  match executor with
  | .autoDelete now db =>
      (checkAndRunAutoDelete io now dir db).map fun (_, after, _) => after
  | .processDeletes name => OriginDb.processDeletes fuel io name dir

/-- The queue is due and the table agrees with its file, which holds `stored`. -/
def Ready (executor : QueueExecutor) (dir : TableDir)
    (stored : List (StoredRecord dimension)) : Prop :=
  match executor with
  | .autoDelete now db =>
      Agrees (dir.dataDb.getD []) db stored stored ∧
        getAutoDeleteSchedule dir.autoDeleteSchedule ≠ 0 ∧
        getAutoDeleteSchedule dir.autoDeleteSchedule ≤ now
  | .processDeletes name =>
      validateDbName name = true ∧
        (∃ metric, dir.metaBin = some (encodeMeta dimension metric)) ∧
        dir.dataDb.getD [] = (recordCodec dimension).encodeAll stored ∧
        (dir.dataDb.getD []).length < 2 ^ 63

/-- After the execution no record that was hidden is live again. -/
def HidesQueued (executor : QueueExecutor) (dimension : UInt64) (fuel : Nat)
    (ios : Nat → DeleteIO) (clears : Bool) (dir : TableDir) : Prop :=
  ∃ after, executor.run fuel ⟨ios, clears, .ok⟩ dir = some after ∧
    NothingReappears dimension (queuedIds dir.pendingBin) after

/-- The outcomes and queues for which the execution takes out every hidden
record; a queue file that cannot be cleared keeps all of them hidden. -/
def TakesOutQueued (executor : QueueExecutor) (ios : Nat → DeleteIO) (clears : Bool)
    (dir : TableDir) (stored : List (StoredRecord dimension)) : Prop :=
  let ids := (loadPendingDeletes dir.pendingBin).1.getD []
  match executor with
  | .autoDelete _ _ => clears = false ∨ AllTakenOut ios ids stored
  | .processDeletes _ => clears = false ∨ ∀ id ∈ ids, liveCount id stored = 0

end QueueExecutor

private theorem exists_unique_run_iff {run : Option TableDir} {good : TableDir → Prop}
    {condition : Prop} (defined : ∃ after, run = some after ∧ (good after ↔ condition)) :
    (∃ after, run = some after ∧ good after) ↔ condition := by
  rcases defined with ⟨after, ran, iff⟩
  constructor
  · intro good
    rcases good with ⟨other, ranOther, isGood⟩
    rw [ran] at ranOther
    cases Option.some.inj ranOther
    exact iff.mp isGood
  · intro holds
    exact ⟨after, ran, iff.mpr holds⟩

theorem autoDelete_hides_iff (now : UInt64) (db : FlatDb) (fuel : Nat) (ios : Nat → DeleteIO)
    (clears : Bool) (dir : TableDir) (stored : List (StoredRecord dimension))
    (ready : (QueueExecutor.autoDelete now db).Ready dir stored) :
    (QueueExecutor.autoDelete now db).HidesQueued dimension fuel ios clears dir ↔
      (QueueExecutor.autoDelete now db).TakesOutQueued ios clears dir stored := by
  rcases ready with ⟨agrees, scheduled, due⟩
  obtain ⟨code, after, next, ran, reappears⟩ :=
    checkAndRunAutoDelete_reappears_iff ios clears now agrees scheduled (UInt64.not_lt.mpr due)
  refine exists_unique_run_iff ⟨after, ?_, reappears⟩
  simp only [QueueExecutor.run, ran, Option.map_some]

def twinsTable : FlatDb where
  dimension := 1
  capacity := 4
  records := [sampleRecord.onHeap 0, sampleRecord.onHeap 32]
  recordsBytes := 192
  calculateDistance := .euclidean
  storage := Storage.openAt (sampleRecord.encode ++ sampleRecord.encode) 0
  pendingDeletes := none
  pendingCount := 0

/-- Id 7 is queued as often as `ids` says, and the schedule is due from time 1 on. -/
def twinsDir (ids : List UInt64) : TableDir where
  metaBin := some (encodeMeta 1 1)
  dataDb := some (sampleRecord.encode ++ sampleRecord.encode)
  pendingBin := some (ids.flatMap fun id =>
    LittleEndian.encode 8 id.toNat ++ LittleEndian.encode 8 0)
  autoDeleteSchedule := some (setAutoDeleteSchedule 1)
  ivfIndex := none

theorem twinsTable_agrees :
    Agrees (sampleRecord.encode ++ sampleRecord.encode) twinsTable
      [sampleRecord, sampleRecord] [sampleRecord, sampleRecord] where
  dimensionEq := rfl
  stream := by decide
  file := rfl
  small := by decide
  unflagged := rfl
  tracks := ⟨sampleRecord.holds_onHeap _ 0 (by decide),
    sampleRecord.holds_onHeap _ 32 (by decide), trivial⟩

end OriginDb
