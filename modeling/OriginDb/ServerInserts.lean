/-
One table among all that the server does.

The system of the sync worker has one table and nobody else.  Here the table is
a slot of the server, with requests for any tables, their handlers' sections,
the index and the passes over the other tables between its own steps.  Each
step of the server is for that table one step of the smaller system or leaves
its records, its queue and its data file alone; so the table keeps what it has
acknowledged in every run of the server, too.
-/

import OriginDb.SyncWorker
import OriginDb.TableRegistry

namespace OriginDb

open Foundation

variable {dimension : UInt64} {δ ν : Type}

/-! ### A table in its server -/

/-- What a step of the server is for the table in a slot. -/
def tableAction (slot : Nat) (server : Server δ) : ServerAction → Option SyncAction
  | .task index io =>
      match server.tasks[index]? with
      | some (.insert target req) => if target = slot then some (.insert io.write req) else none
      | _ => none
  | .merge target => if target = slot then some .merge else none
  | .refresh target => if target = slot then some .refresh else none
  | .autoDelete target io now => if target = slot then some (.autoDelete io now) else none
  | .request _ _ _ | .reloadAuth _ | .removeIndex _ _ => none

/-- A server with the history of one of its tables. -/
structure Followed (δ : Type) (dimension : UInt64) where
  server : Server δ
  acknowledged : List (StoredRecord dimension)
  executed : List UInt64

section Steps

variable [DecidableEq δ] (env : ServerEnv δ ν) (slot : Nat)

def Followed.view (state : Followed δ dimension) (table : OpenTable) : SyncRun dimension where
  dir := state.server.disk (env.dirOf table.name)
  table := table
  acknowledged := state.acknowledged
  executed := state.executed

/-- The history after a step of the server. -/
def Followed.record (state : Followed δ dimension) (action : ServerAction) (next : Server δ) :
    Followed δ dimension :=
  match state.server.openTables[slot]?, tableAction slot state.server action with
  | some table, some own =>
      match syncStep (state.view env table) own with
      | some after =>
          { server := next
            acknowledged := after.acknowledged
            executed := after.executed }
      | none => { state with server := next }
  | _, _ => { state with server := next }

def followedStep (state : Followed δ dimension) (action : ServerAction) :
    Option (Followed δ dimension) :=
  (serverStep env state.server action).map (state.record env slot action)

/-- The data file of a table that a request names is below the range of a file offset. -/
def FileSmall (server : Server δ) : ServerAction → Prop
  | .request headerBuffer httpBody _ =>
      ∀ name ∈ requestedName env headerBuffer httpBody,
        ((server.disk (env.dirOf name)).dataDb.getD []).length < 2 ^ 63
  | _ => True

instance (server : Server δ) (action : ServerAction) : Decidable (FileSmall env server action) :=
  match action with
  | .request _ _ _ => Option.decidableForallMem _
  | .task _ _ => isTrue trivial
  | .reloadAuth _ => isTrue trivial
  | .merge _ => isTrue trivial
  | .refresh _ => isTrue trivial
  | .autoDelete _ _ _ => isTrue trivial
  | .removeIndex _ _ => isTrue trivial

/-- The table's own steps are safe ones; nothing is asked of those of the other tables. -/
def FollowedSafe (state : Followed δ dimension) (action : ServerAction) : Prop :=
  FileSmall env state.server action ∧
    ∀ table ∈ state.server.openTables[slot]?, table.db.dimension = dimension →
      ∀ own ∈ tableAction slot state.server action, SyncSafe (state.view env table) own

instance (state : Followed δ dimension) (action : ServerAction) :
    Decidable (FollowedSafe env slot state action) :=
  inferInstanceAs (Decidable (FileSmall _ _ _ ∧ ∀ _ ∈ _, _ → ∀ _ ∈ _, SyncSafe _ _))

/-- Table names that the server accepts are directories of their own. -/
def NamesApart : Prop :=
  ∀ first second, validateDbName first = true → validateDbName second = true →
    env.dirOf first = env.dirOf second → first = second

/-- A table of the dimension, once it is open, has what it has acknowledged. -/
def FollowedKeeps (state : Followed δ dimension) : Prop :=
  ∀ table, state.server.openTables[slot]? = some table → table.db.dimension = dimension →
    KeepsAcknowledged (state.view env table)

end Steps

/-! ### Steps that are not the table's -/

/-- What the property of an open table speaks of. -/
structure SameContents (before after : OpenTable) : Prop where
  name : after.name = before.name
  dimension : after.db.dimension = before.db.dimension
  records : after.db.records = before.db.records
  insertQueue : after.insertQueue = before.insertQueue

theorem SameContents.refl (table : OpenTable) : SameContents table table := ⟨rfl, rfl, rfl, rfl⟩

theorem SyncInvariant.of_sameContents {before after : SyncRun dimension}
    (invariant : SyncInvariant before) (same : SameContents before.table after.table)
    (data : after.data = before.data) (acknowledged : after.acknowledged = before.acknowledged)
    (executed : after.executed = before.executed) : SyncInvariant after := by
  have entriesEq : after.entries = before.entries := by
    unfold SyncRun.entries
    rw [same.records, same.insertQueue]
  constructor
  · exact same.dimension.trans invariant.dimensionEq
  · rw [data]
    exact invariant.small
  · rw [data, acknowledged, executed, entriesEq]
    exact invariant.onDisk

section Frame

variable {env : ServerEnv δ ν} {slot : Nat} {before after server next : Server δ}

/-- The table in the slot keeps its contents and its data file. -/
def Untouched (env : ServerEnv δ ν) (slot : Nat) (before after : Server δ) : Prop :=
  ∀ table, before.openTables[slot]? = some table →
    ∃ later, after.openTables[slot]? = some later ∧ SameContents table later ∧
      (after.disk (env.dirOf table.name)).dataDb.getD [] =
        (before.disk (env.dirOf table.name)).dataDb.getD []

theorem Untouched.of_same (tables : after.openTables = before.openTables)
    (data : ∀ place, (after.disk place).dataDb.getD [] = (before.disk place).dataDb.getD []) :
    Untouched env slot before after := by
  intro table found
  exact ⟨table, tables ▸ found, SameContents.refl table, data _⟩

/-- A section that changes neither the contents of its table nor a data file. -/
theorem Untouched.of_sameContents {target : Nat} {table later : OpenTable}
    (found : before.openTables[target]? = some table)
    (tables : after.openTables = before.openTables.set target later)
    (same : SameContents table later)
    (data : ∀ place, (after.disk place).dataDb.getD [] = (before.disk place).dataDb.getD []) :
    Untouched env slot before after := by
  intro own foundOwn
  rw [tables]
  by_cases here : target = slot
  · rw [← here, found] at foundOwn
    cases foundOwn
    obtain ⟨inside, -⟩ := List.getElem?_eq_some_iff.mp found
    refine ⟨later, ?_, same, data _⟩
    rw [← here, List.getElem?_set_self inside]
  · refine ⟨own, ?_, SameContents.refl own, data _⟩
    rw [List.getElem?_set_ne here]
    exact foundOwn

theorem data_update [DecidableEq δ] {disk : δ → TableDir} {place : δ} {dir : TableDir}
    (same : dir.dataDb.getD [] = (disk place).dataDb.getD []) (other : δ) :
    (Function.update disk place dir other).dataDb.getD [] = (disk other).dataDb.getD [] := by
  by_cases here : other = place
  · rw [here, Function.update_self]
    exact same
  · rw [Function.update_of_ne here]

/-- Two slots have two directories. -/
theorem Listed.dirs_apart {target : Nat} {table other : OpenTable} (listed : Listed env server)
    (names : NamesApart env) (found : server.openTables[slot]? = some table)
    (foundOther : server.openTables[target]? = some other) (elsewhere : target ≠ slot) :
    env.dirOf table.name ≠ env.dirOf other.name := by
  intro sameDir
  have validOwn := listed.valid table.identity
    (List.mem_map_of_mem (List.mem_of_getElem? found))
  have validOther := listed.valid other.identity
    (List.mem_map_of_mem (List.mem_of_getElem? foundOther))
  have sameName := names _ _ validOwn validOther sameDir
  have nameAt : ∀ {index : Nat} {entry : OpenTable}, server.openTables[index]? = some entry →
      (server.registry.map TableIdentity.name)[index]? = some entry.name := by
    intro index entry atIndex
    rw [Server.registry, List.map_map, List.getElem?_map, atIndex]
    rfl
  obtain ⟨inside, -⟩ := List.getElem?_eq_some_iff.mp (nameAt found)
  have same := (nameAt found).trans ((congrArg some sameName).trans (nameAt foundOther).symm)
  exact elsewhere ((List.getElem?_inj inside listed.distinct).mp same).symm

/-- A section of another slot, on its own directory. -/
theorem Untouched.of_elsewhere [DecidableEq δ] {target : Nat} {other later : OpenTable}
    {dir : TableDir} (listed : Listed env before) (names : NamesApart env)
    (found : before.openTables[target]? = some other) (elsewhere : target ≠ slot)
    (tables : after.openTables = before.openTables.set target later)
    (disk : after.disk = Function.update before.disk (env.dirOf other.name) dir) :
    Untouched env slot before after := by
  intro table foundOwn
  refine ⟨table, ?_, SameContents.refl table, ?_⟩
  · rw [tables, List.getElem?_set_ne elsewhere]
    exact foundOwn
  · rw [disk, Function.update_of_ne (listed.dirs_apart names foundOwn found elsewhere)]

/-! ### One step -/

theorem untouched_markDirty (dbName : CString)
    (tables : after.openTables = markTablePendingDirty dbName before.openTables)
    (disk : after.disk = before.disk) : Untouched env slot before after := by
  intro table found
  unfold markTablePendingDirty at tables
  split at tables
  · refine ⟨table, tables ▸ found, SameContents.refl table, ?_⟩
    rw [disk]
  · rename_i marked _
    rw [tables, List.getElem?_modify, found, disk]
    refine ⟨_, rfl, ?_, rfl⟩
    split
    · exact ⟨rfl, rfl, rfl, rfl⟩
    · exact SameContents.refl table

variable [DecidableEq δ]

theorem loadIndexOnDemand_contents {ivfIndex : Option (List UInt8)} {table loaded : OpenTable}
    (ran : loadIndexOnDemand ivfIndex table = some loaded) : SameContents table loaded := by
  unfold loadIndexOnDemand at ran
  split at ran
  · cases ran
    exact SameContents.refl table
  · obtain ⟨⟨read, k, ivfDimension⟩, -, rfl⟩ := Option.map_eq_some_iff.mp ran
    dsimp only
    split
    · exact ⟨rfl, rfl, rfl, rfl⟩
    · exact ⟨rfl, rfl, rfl, rfl⟩

theorem Untouched.of_opening {dbName : CString} {opened : Option Nat}
    (opening : Opening env server dbName next opened) : Untouched env slot server next := by
  cases opening with
  | found target table atSlot named => exact Untouched.of_same rfl fun _ => rfl
  | refused => exact Untouched.of_same rfl fun _ => rfl
  | failed dir metaBin data => exact Untouched.of_same rfl (data_update data)
  | opened fuel dir db new room opens =>
      intro table found
      refine ⟨table, ?_, SameContents.refl table, data_update (dbOpen_dir opens).2 _⟩
      obtain ⟨inside, -⟩ := List.getElem?_eq_some_iff.mp found
      exact (List.getElem?_append_left inside).trans found

theorem handelClient_untouched {io : OpenIO} {headerBuffer httpBody : CString}
    {outcome : Except Response Task}
    (ran : handelClient env io server headerBuffer httpBody = some (next, outcome)) :
    Untouched env slot server next := by
  cases handelClient_cases ran with
  | refused response => exact Untouched.of_same rfl fun _ => rfl
  | queued req named accepted => exact Untouched.of_same rfl fun _ => rfl
  | notFound name response named accepted opening => exact Untouched.of_opening opening
  | found name target task named accepted opening isTask => exact Untouched.of_opening opening

/-- A section of a handler that is not an insert into the table. -/
theorem taskStep_untouched {index : Nat} {io : SectionIO} {task : Task}
    (listed : Listed env server) (names : NamesApart env)
    (notOwn : ∀ req, task ≠ .insert slot req)
    (ran : taskStep env server index io task = some next) : Untouched env slot server next := by
  cases task with
  | search target req =>
      simp only [taskStep] at ran
      obtain ⟨table, found, ran⟩ := onSlot_eq_some ran
      split at ran
      · cases ran
        exact Untouched.of_same rfl fun _ => rfl
      · obtain ⟨loaded, loadedEq, rfl⟩ := Option.map_eq_some_iff.mp ran
        exact Untouched.of_sameContents found rfl (loadIndexOnDemand_contents loadedEq)
          fun _ => rfl
  | insert target req =>
      simp only [taskStep] at ran
      obtain ⟨table, found, ran⟩ := onSlot_eq_some ran
      obtain ⟨⟨response, file, written⟩, inserted, rfl⟩ := Option.map_eq_some_iff.mp ran
      have elsewhere : target ≠ slot := by
        intro here
        exact notOwn req (by rw [here])
      exact Untouched.of_elsewhere listed names found elsewhere rfl rfl
  | appendPending req =>
      obtain ⟨⟨code, queue⟩, -, rfl⟩ := Option.map_eq_some_iff.mp ran
      exact Untouched.of_same rfl (data_update rfl)
  | markDirty dbName =>
      cases ran
      exact untouched_markDirty dbName rfl rfl
  | train target req =>
      simp only [taskStep] at ran
      obtain ⟨table, found, ran⟩ := onSlot_eq_some ran
      split at ran
      · cases ran
        exact Untouched.of_same rfl fun _ => rfl
      · obtain ⟨clusters, -, rfl⟩ := Option.map_eq_some_iff.mp ran
        exact Untouched.of_same rfl fun _ => rfl
  | save target k clusters =>
      simp only [taskStep] at ran
      obtain ⟨table, found, ran⟩ := onSlot_eq_some ran
      obtain ⟨⟨status, file⟩, -, rfl⟩ := Option.map_eq_some_iff.mp ran
      refine Untouched.of_sameContents found rfl ?_ (data_update rfl)
      split
      · exact ⟨rfl, rfl, rfl, rfl⟩
      · exact SameContents.refl table
  | done => cases ran

/-- A step that is none of the table's leaves it alone. -/
theorem serverStep_untouched {action : ServerAction} (listed : Listed env server)
    (names : NamesApart env) (notOwn : tableAction slot server action = none)
    (stepped : serverStep env server action = some next) : Untouched env slot server next := by
  cases action with
  | request headerBuffer httpBody io =>
      obtain ⟨⟨admitted, outcome⟩, ran, rfl⟩ := Option.map_eq_some_iff.mp stepped
      have untouched : Untouched env slot server admitted := handelClient_untouched ran
      cases outcome with
      | error response => exact untouched
      | ok task => exact untouched
  | task index io =>
      simp only [serverStep] at stepped
      split at stepped
      · cases stepped
      · rename_i task found
        apply taskStep_untouched listed names _ stepped
        intro req isInsert
        simp only [tableAction, found, isInsert, if_true] at notOwn
        cases notOwn
  | reloadAuth authKeys =>
      cases stepped
      exact Untouched.of_same rfl fun _ => rfl
  | merge target =>
      have elsewhere : target ≠ slot := by
        intro here
        simp only [tableAction, here, if_true] at notOwn
        cases notOwn
      simp only [serverStep] at stepped
      obtain ⟨table, found, ran⟩ := onSlot_eq_some stepped
      obtain ⟨merged, -, rfl⟩ := Option.map_eq_some_iff.mp ran
      exact Untouched.of_elsewhere listed names found elsewhere rfl
        (Function.update_eq_self _ _).symm
  | refresh target =>
      have elsewhere : target ≠ slot := by
        intro here
        simp only [tableAction, here, if_true] at notOwn
        cases notOwn
      simp only [serverStep] at stepped
      obtain ⟨table, found, ran⟩ := onSlot_eq_some stepped
      cases ran
      exact Untouched.of_elsewhere listed names found elsewhere rfl
        (Function.update_eq_self _ _).symm
  | autoDelete target io now =>
      have elsewhere : target ≠ slot := by
        intro here
        simp only [tableAction, here, if_true] at notOwn
        cases notOwn
      simp only [serverStep] at stepped
      obtain ⟨table, found, ran⟩ := onSlot_eq_some stepped
      obtain ⟨⟨compacted, dir, later⟩, -, rfl⟩ := Option.map_eq_some_iff.mp ran
      exact Untouched.of_elsewhere listed names found elsewhere rfl rfl
  | removeIndex target removed =>
      simp only [serverStep] at stepped
      split at stepped
      · obtain ⟨table, found, ran⟩ := onSlot_eq_some stepped
        cases ran
        exact Untouched.of_sameContents found rfl ⟨rfl, rfl, rfl, rfl⟩ (data_update rfl)
      · cases stepped

/-- A step of the table is that step of the smaller system. -/
theorem serverStep_own {state : Followed δ dimension} {next : Server δ} {action : ServerAction}
    {table : OpenTable} {own : SyncAction} (found : state.server.openTables[slot]? = some table)
    (isOwn : tableAction slot state.server action = some own)
    (stepped : serverStep env state.server action = some next) :
    ∃ after, syncStep (state.view env table) own = some after ∧
      next.openTables[slot]? = some after.table ∧ after.table.identity = table.identity ∧
      next.disk (env.dirOf table.name) = after.dir := by
  obtain ⟨inside, -⟩ := List.getElem?_eq_some_iff.mp found
  cases action with
  | request headerBuffer httpBody io => cases isOwn
  | reloadAuth authKeys => cases isOwn
  | removeIndex target removed => cases isOwn
  | task index io =>
      simp only [serverStep] at stepped
      simp only [tableAction] at isOwn
      split at isOwn
      · rename_i target req inTask
        split at isOwn
        · rename_i here
          cases isOwn
          rw [inTask] at stepped
          simp only [taskStep, onSlot, here, found] at stepped
          obtain ⟨⟨response, file, written⟩, inserted, rfl⟩ := Option.map_eq_some_iff.mp stepped
          have identity := insertLocked_identity inserted
          refine ⟨_, by simp only [syncStep]; exact congrArg (Option.map _) inserted, ?_, identity,
            ?_⟩
          · exact List.getElem?_set_self inside
          · exact Function.update_self ..
        · cases isOwn
      · cases isOwn
  | merge target =>
      simp only [tableAction] at isOwn
      split at isOwn
      · rename_i here
        cases isOwn
        simp only [serverStep, onSlot, here, found] at stepped
        obtain ⟨merged, mergedEq, rfl⟩ := Option.map_eq_some_iff.mp stepped
        have identity := mergeQueue_identity mergedEq
        refine ⟨_, by simp only [syncStep]; exact congrArg (Option.map _) mergedEq, ?_, identity,
          rfl⟩
        exact List.getElem?_set_self inside
      · cases isOwn
  | refresh target =>
      simp only [tableAction] at isOwn
      split at isOwn
      · rename_i here
        cases isOwn
        simp only [serverStep, onSlot, here, found] at stepped
        cases stepped
        have identity :=
          refreshPending_identity (state.server.disk (env.dirOf table.name)).pendingBin table
        exact ⟨_, rfl, List.getElem?_set_self inside, identity, rfl⟩
      · cases isOwn
  | autoDelete target io now =>
      simp only [tableAction] at isOwn
      split at isOwn
      · rename_i here
        cases isOwn
        simp only [serverStep, onSlot, here, found] at stepped
        obtain ⟨⟨compacted, dir, later⟩, deleted, rfl⟩ := Option.map_eq_some_iff.mp stepped
        have identity := (autoDelete_keeps deleted).1
        refine ⟨_, by simp only [syncStep]; exact congrArg (Option.map _) deleted, ?_, identity, ?_⟩
        · exact List.getElem?_set_self inside
        · exact Function.update_self ..
      · cases isOwn

/-! ### A slot that is filled -/

/-- A slot that was empty is filled by a request, with a table that has no records yet. -/
theorem serverStep_fills {action : ServerAction} {table : OpenTable}
    (small : FileSmall env server action) (empty : server.openTables[slot]? = none)
    (stepped : serverStep env server action = some next)
    (filled : next.openTables[slot]? = some table) :
    table.db.records = [] ∧ table.insertQueue = [] ∧
      ((next.disk (env.dirOf table.name)).dataDb.getD []).length < 2 ^ 63 := by
  have steady : Steady server next → False := by
    intro steady
    have sameAt : next.registry[slot]? = server.registry[slot]? := by rw [steady.registry]
    unfold Server.registry at sameAt
    rw [List.getElem?_map, List.getElem?_map, empty, filled] at sameAt
    cases sameAt
  have opens : ∀ {name : CString} {opened : Option Nat} {after : Server δ},
      ((server.disk (env.dirOf name)).dataDb.getD []).length < 2 ^ 63 →
      Opening env server name after opened → after.openTables[slot]? = some table →
      table.db.records = [] ∧ table.insertQueue = [] ∧
        ((after.disk (env.dirOf table.name)).dataDb.getD []).length < 2 ^ 63 := by
    intro name opened after fits opening filled
    cases opening with
    | found target other atSlot named => rw [empty] at filled; cases filled
    | refused => rw [empty] at filled; cases filled
    | failed dir metaBin data =>
        change server.openTables[slot]? = some table at filled
        rw [empty] at filled
        cases filled
    | opened fuel dir db new room opensDb =>
        change (server.openTables ++ [newSlot name db])[slot]? = some table at filled
        have beyond := List.getElem?_eq_none_iff.mp empty
        rw [List.getElem?_append_right beyond] at filled
        have isNew := List.mem_singleton.mp (List.mem_of_getElem? filled)
        rw [isNew]
        refine ⟨dbOpen_empty opensDb, rfl, ?_⟩
        have sameData : (Function.update server.disk (env.dirOf name) dir
            (env.dirOf name)).dataDb.getD [] = (server.disk (env.dirOf name)).dataDb.getD [] :=
          data_update (dbOpen_dir opensDb).2 (env.dirOf name)
        have fitsAfter := fits
        rw [← sameData] at fitsAfter
        exact fitsAfter
  cases action with
  | request headerBuffer httpBody io =>
      obtain ⟨⟨admitted, outcome⟩, ran, rfl⟩ := Option.map_eq_some_iff.mp stepped
      cases handelClient_cases ran with
      | refused response => rw [empty] at filled; cases filled
      | queued req named accepted =>
          change server.openTables[slot]? = some table at filled
          rw [empty] at filled
          cases filled
      | notFound name response named accepted opening =>
          exact opens (small name named) opening filled
      | found name target task named accepted opening isTask =>
          change admitted.openTables[slot]? = some table at filled
          have inPlace := opens (small name named) opening filled
          exact inPlace
  | task index io =>
      simp only [serverStep] at stepped
      split at stepped
      · cases stepped
      · exact (steady (taskStep_steady stepped).1).elim
  | _ => exact (steady (workerStep_steady rfl stepped).1).elim

/-! ### Whole runs -/

/-- The server's tables are listed, and the followed one is as the sync worker leaves it. -/
structure FollowedInvariant (env : ServerEnv δ ν) (slot : Nat) (state : Followed δ dimension) :
    Prop where
  registered : Registered env state.server
  unopened : state.server.openTables[slot]? = none →
    state.acknowledged = [] ∧ state.executed = []
  inserts : ∀ table, state.server.openTables[slot]? = some table →
    table.db.dimension = dimension → SyncInvariant (state.view env table)

/-- Before its first insert a table may have any data file. -/
theorem SyncInvariant.of_new {state : SyncRun dimension} (records : state.table.db.records = [])
    (insertQueue : state.table.insertQueue = []) (small : state.data.length < 2 ^ 63)
    (dimensionEq : state.table.db.dimension = dimension) (acknowledged : state.acknowledged = [])
    (executed : state.executed = []) : SyncInvariant state := by
  refine ⟨dimensionEq, small, [], ?_, ?_⟩
  · unfold SyncRun.entries
    rw [records, insertQueue]
    exact Nat.zero_le _
  · rw [acknowledged, executed]
    rfl

theorem followedStep_invariant (names : NamesApart env) {state after : Followed δ dimension}
    {action : ServerAction} (invariant : FollowedInvariant env slot state)
    (safe : FollowedSafe env slot state action)
    (stepped : followedStep env slot state action = some after) :
    FollowedInvariant env slot after := by
  obtain ⟨next, serverStepped, rfl⟩ := Option.map_eq_some_iff.mp stepped
  obtain ⟨registered, kept⟩ := serverStep_registered action invariant.registered serverStepped
  cases found : state.server.openTables[slot]? with
  | none =>
      obtain ⟨noneAcknowledged, noneExecuted⟩ := invariant.unopened found
      have recorded : state.record env slot action next = { state with server := next } := by
        unfold Followed.record
        rw [found]
      rw [recorded]
      refine ⟨registered, fun _ => ⟨noneAcknowledged, noneExecuted⟩, ?_⟩
      intro table filled dimensionEq
      obtain ⟨records, insertQueue, small⟩ :=
        serverStep_fills safe.1 found serverStepped filled
      exact SyncInvariant.of_new records insertQueue small dimensionEq noneAcknowledged
        noneExecuted
  | some table =>
      have stillOpen : ∀ {later : OpenTable}, next.openTables[slot]? = some later →
          ¬next.openTables[slot]? = none := by
        intro later foundLater closed
        rw [closed] at foundLater
        cases foundLater
      cases isOwn : tableAction slot state.server action with
      | none =>
          have recorded : state.record env slot action next = { state with server := next } := by
            unfold Followed.record
            rw [found, isOwn]
          obtain ⟨later, foundLater, same, data⟩ :=
            serverStep_untouched invariant.registered.toListed names isOwn serverStepped table
              found
          rw [recorded]
          refine ⟨registered, fun closed => (stillOpen foundLater closed).elim, ?_⟩
          intro other foundOther dimensionEq
          cases Option.some.inj (foundLater.symm.trans foundOther)
          have holds := invariant.inserts table found (same.dimension.symm.trans dimensionEq)
          refine SyncInvariant.of_sameContents holds ?_ ?_ rfl rfl
          · exact same
          · unfold SyncRun.data Followed.view
            dsimp only
            rw [same.name]
            exact data
      | some own =>
          obtain ⟨result, ran, foundResult, identity, dir⟩ :=
            serverStep_own found isOwn serverStepped
          have recorded : state.record env slot action next =
              { server := next
                acknowledged := result.acknowledged
                executed := result.executed } := by
            unfold Followed.record
            rw [found, isOwn]
            dsimp only
            rw [ran]
          rw [recorded]
          refine ⟨registered, fun closed => (stillOpen foundResult closed).elim, ?_⟩
          intro other foundOther dimensionEq
          cases Option.some.inj (foundResult.symm.trans foundOther)
          have sameDimension : table.db.dimension = dimension :=
            (congrArg TableIdentity.dimension identity).symm.trans dimensionEq
          obtain ⟨other, otherRan, holds⟩ := syncStep_invariant (state.view env table) own
            (invariant.inserts table found sameDimension)
            (safe.2 table found sameDimension own isOwn)
          rw [ran] at otherRan
          cases otherRan
          refine SyncInvariant.of_sameContents holds ?_ ?_ rfl rfl
          · exact SameContents.refl _
          · have sameName : result.table.name = table.name :=
              congrArg TableIdentity.name identity
            unfold SyncRun.data Followed.view
            dsimp only
            rw [sameName, dir]

end Frame

theorem Started.followed {env : ServerEnv δ ν} {server : Server δ} (started : Started server)
    (slot : Nat) : FollowedInvariant env slot (⟨server, [], []⟩ : Followed δ dimension) := by
  refine ⟨started.registered, fun _ => ⟨rfl, rfl⟩, ?_⟩
  intro table found
  rw [started.tables] at found
  cases found

/-- In every run of a server from its start, whatever its clients ask of any of its tables, the
table in a slot keeps what it has acknowledged, if only its own steps are safe. -/
theorem server_keeps_inserts [DecidableEq δ] (env : ServerEnv δ ν) (names : NamesApart env)
    {server : Server δ} (started : Started server) (slot : Nat) (actions : List ServerAction)
    (admitted : GuardedRun.Admits (followedStep env slot) (FollowedSafe env slot)
      (⟨server, [], []⟩ : Followed δ dimension) actions) :
    GuardedRun.Throughout (followedStep env slot) (FollowedKeeps env slot)
      (⟨server, [], []⟩ : Followed δ dimension) actions := by
  have start : FollowedInvariant env slot (⟨server, [], []⟩ : Followed δ dimension) :=
    started.followed slot
  apply GuardedRun.throughout_of_step _ _ start admitted
  · intro state action next invariant safe stepped
    exact followedStep_invariant names invariant safe stepped
  · intro state invariant table found dimensionEq
    exact (invariant.inserts table found dimensionEq).keepsAcknowledged

theorem server_keeps_inserts_scheduled :
    (GuardedRun.run (followedStep insertEnv 0) (⟨scheduledServer, [], []⟩ : Followed CString 1)
        deleteRequestRun).any (fun state => state.acknowledged.length == 1) = true ∧
      GuardedRun.Throughout (followedStep insertEnv 0) (FollowedKeeps insertEnv 0)
        (⟨scheduledServer, [], []⟩ : Followed CString 1) deleteRequestRun := by
  constructor
  · decide +kernel
  · apply server_keeps_inserts insertEnv _ ⟨rfl, rfl, rfl⟩
    · decide +kernel
    · intro first second _ _ same
      exact same

end OriginDb
