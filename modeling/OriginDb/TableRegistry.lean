/-
The tables that a server has open.

A slot is filled by `get_or_open_table` and never emptied, and no section of a
handler or of the worker changes the name, the dimension or the metric of the
table in it.  So the list of open tables only grows at its end: there are at
most `MAX_OPEN_TABLES`, no name is open twice, each table is what its
`meta.bin` says, and a handler that waits for its next section finds the table
that its request named.
-/

import OriginDb.ServerSteps

namespace OriginDb

open Foundation

/-- What stays of an open table. -/
structure TableIdentity where
  name : CString
  dimension : UInt64
  metric : MetricType
deriving DecidableEq

def FlatDb.shape (db : FlatDb) : UInt64 × MetricType := (db.dimension, db.calculateDistance)

def OpenTable.identity (table : OpenTable) : TableIdentity where
  name := table.name
  dimension := table.db.dimension
  metric := table.db.calculateDistance

def Server.registry {δ : Type} (server : Server δ) : List TableIdentity :=
  server.openTables.map OpenTable.identity

/-- The table is the one that `meta.bin` describes. -/
def TableIdentity.DescribedBy (entry : TableIdentity) (metaBin : Option (List UInt8)) : Prop :=
  ∃ file, metaBin = some file ∧ 12 ≤ file.length ∧ entry.dimension = u64At file 0 ∧
    entry.metric = getDistance (u32At file 8)

/-- The slot that a handler goes back to holds the table that its request named. -/
def TaskFits (registry : List TableIdentity) : Task → Prop
  | .search slot req => ∃ entry, registry[slot]? = some entry ∧ entry.name = req.dbName
  | .insert slot req => ∃ entry, registry[slot]? = some entry ∧ entry.name = req.dbName
  | .train slot req => ∃ entry, registry[slot]? = some entry ∧ entry.name = req.dbName
  | .save slot _ _ => slot < registry.length
  | .appendPending _ | .markDirty _ | .done => True

/-- What holds of the open tables. -/
structure Listed {δ ν : Type} (env : ServerEnv δ ν) (server : Server δ) : Prop where
  bounded : server.registry.length ≤ maxOpenTables
  distinct : (server.registry.map TableIdentity.name).Nodup
  valid : ∀ entry ∈ server.registry, validateDbName entry.name = true
  described : ∀ entry ∈ server.registry,
    entry.DescribedBy (server.disk (env.dirOf entry.name)).metaBin

/-- What holds of a server at work: its tables are listed, and so is every slot that a
handler or the worker goes back to. -/
structure Registered {δ ν : Type} (env : ServerEnv δ ν) (server : Server δ) : Prop extends
    Listed env server where
  inWork : ∀ task ∈ server.tasks, TaskFits server.registry task
  removals : ∀ slot ∈ server.removals, slot < server.registry.length

/-- Nothing is open or in work when a server starts. -/
structure Started {δ : Type} (server : Server δ) : Prop where
  tables : server.openTables = []
  tasks : server.tasks = []
  removals : server.removals = []

/-- What one state leaves to a later one: its tables in their slots, and every `meta.bin`. -/
structure KeepsTables {δ : Type} (before after : Server δ) : Prop where
  registry : before.registry <+: after.registry
  metaBin : ∀ place, (after.disk place).metaBin = (before.disk place).metaBin

/-! ### The functions on one table -/

theorem identity_of {table next : OpenTable} (name : next.name = table.name)
    (shape : next.db.shape = table.db.shape) : next.identity = table.identity := by
  have dimensionEq : next.db.dimension = table.db.dimension := congrArg Prod.fst shape
  have metricEq : next.db.calculateDistance = table.db.calculateDistance := congrArg Prod.snd shape
  unfold OpenTable.identity
  rw [name, dimensionEq, metricEq]

theorem loadRecords_shape {data : List UInt8} {fuel : Nat} {db loaded : FlatDb}
    (ran : loadRecords data fuel db = some loaded) : loaded.shape = db.shape := by
  induction fuel generalizing db with
  | zero => cases ran
  | succ fuel ih =>
      simp only [loadRecords] at ran
      split at ran
      · cases ran
        rfl
      · rename_i record storage _
        have stored : ∀ grown : FlatDb, grown.shape = db.shape →
            (if hasRoom grown.recordsBytes (grown.records.length + 1) = true then
              loadRecords data fuel
                { grown with
                  records := grown.records ++ [record]
                  storage := storage }
            else none) = some loaded → loaded.shape = db.shape := by
          intro grown same ran
          split at ran
          · exact (ih ran).trans same
          · cases ran
        apply stored _ _ ran
        split
        · rfl
        · rfl

theorem dbOpen_described {fuel : Nat} {name : CString} {dir dir' : TableDir} {db : FlatDb}
    (opened : dbOpen fuel name dir = some (dir', some db)) :
    validateDbName name = true ∧
      (newSlot name db).identity.DescribedBy dir.metaBin := by
  unfold dbOpen at opened
  split at opened
  · rename_i valid
    refine ⟨valid, ?_⟩
    cases stored : dir.metaBin with
    | none =>
        rw [stored] at opened
        cases opened
    | some file =>
        rw [stored] at opened
        dsimp only at opened
        split at opened
        · cases opened
        · rename_i complete
          unfold dbInit at opened
          rw [if_pos valid] at opened
          obtain ⟨loaded, ran, shape⟩ := Option.map_eq_some_iff.mp opened
          cases shape
          have kept := loadRecords_shape ran
          refine ⟨file, rfl, Nat.le_of_not_lt complete, ?_, ?_⟩
          · exact congrArg Prod.fst kept
          · exact congrArg Prod.snd kept
  · cases opened

theorem insertLocked_identity {io : WriteIO} {data file : List UInt8} {table next : OpenTable}
    {req : InsertReq} {response : Response}
    (inserted : insertLocked io data table req = some (response, file, next)) :
    next.identity = table.identity := by
  unfold insertLocked at inserted
  split at inserted
  · cases inserted
    rfl
  · dsimp only at inserted
    split at inserted
    · cases inserted
    · split at inserted
      · cases inserted
        rfl
      · cases inserted
        rfl

theorem mergeQueue_identity {data : List UInt8} {table next : OpenTable}
    (merged : mergeQueue data table = some next) : next.identity = table.identity := by
  unfold mergeQueue at merged
  split at merged
  · cases merged
    rfl
  · split at merged
    · cases merged
    · rename_i grown grew
      have kept : grown.shape = table.db.shape := by
        unfold growForMerge at grew
        dsimp only at grew
        split at grew
        · obtain ⟨capacity, -, rfl⟩ := Option.map_eq_some_iff.mp grew
          rfl
        · cases grew
          rfl
      split at merged
      · cases merged
        exact identity_of rfl kept
      · cases merged

theorem refreshPending_identity (pendingBin : Option (List UInt8)) (table : OpenTable) :
    (refreshPending pendingBin table).identity = table.identity := by
  unfold refreshPending
  split
  · rfl
  · rfl

theorem dbDelete_shape (io : DeleteIO) (data : List UInt8) (db : FlatDb) (id : UInt64) :
    (dbDelete io data db id).2.2.shape = db.shape := by
  unfold dbDelete
  split
  · rfl
  · split
    · rfl
    · dsimp only
      split
      · rfl
      · cases io with
        | ok => rfl
        | seekFailed => rfl
        | patchFailed => rfl
        | writeBackLost => rfl

theorem deleteLoop_shape (ios : Nat → DeleteIO) (ids : List UInt64) (index : Nat)
    (data : List UInt8) (db : FlatDb) :
    (deleteLoop ios ids index data db).2.1.shape = db.shape := by
  induction ids generalizing index data db with
  | nil => rfl
  | cons id rest ih =>
      simp only [deleteLoop]
      exact (ih (index + 1) _ _).trans (dbDelete_shape (ios index) data db id)

theorem dbCompact_shape {io : CompactIO} {data file : List UInt8} {db next : FlatDb} {code : Int}
    (compacted : dbCompact io data db = some (code, file, next)) : next.shape = db.shape := by
  obtain ⟨⟨status, written, storage, records⟩, -, shape⟩ :=
    Option.map_eq_some_iff.mp compacted
  dsimp only at shape
  split at shape
  · cases shape
    rfl
  · cases shape
    rfl

theorem autoDelete_keeps {io : ExecuteIO} {now : UInt64} {dir after : TableDir}
    {table next : OpenTable} {compacted : Int}
    (ran : autoDelete io now dir table = some (compacted, after, next)) :
    next.identity = table.identity ∧ after.metaBin = dir.metaBin := by
  obtain ⟨⟨code, written, db⟩, called, shape⟩ := Option.map_eq_some_iff.mp ran
  cases shape
  rcases checkAndRunAutoDelete_eq io now dir table.db with ⟨-, schedule, idle⟩ | ⟨pendingBin, due⟩
  · rw [idle] at called
    cases called
    exact ⟨rfl, rfl⟩
  · have looped := deleteLoop_shape io.deletes (dueIds now dir) 0 (dir.dataDb.getD []) table.db
    rw [due _ _ _ rfl] at called
    dsimp only at called
    split at called
    · obtain ⟨⟨status, file, last⟩, compactedEq, result⟩ := Option.map_eq_some_iff.mp called
      cases result
      exact ⟨identity_of rfl ((dbCompact_shape compactedEq).trans looped), rfl⟩
    · cases called
      exact ⟨identity_of rfl looped, rfl⟩

theorem markTablePendingDirty_identity (dbName : CString) (tables : List OpenTable) :
    (markTablePendingDirty dbName tables).map OpenTable.identity =
      tables.map OpenTable.identity := by
  unfold markTablePendingDirty
  split
  · rfl
  · rename_i slot _
    apply List.ext_getElem?
    intro index
    rw [List.getElem?_map, List.getElem?_map, List.getElem?_modify]
    cases tables[index]? with
    | none => rfl
    | some table =>
        rw [Option.map_eq_map, Option.map_map]
        by_cases marked : slot = index
        · simp only [if_pos marked]
          rfl
        · simp only [if_neg marked]
          rfl

/-! ### Sections -/

section Sections

variable {δ ν : Type} {env : ServerEnv δ ν} {before after server next : Server δ}

theorem TaskFits.mono {registry later : List TableIdentity} (kept : registry <+: later)
    {task : Task} (fits : TaskFits registry task) : TaskFits later task := by
  have stays : ∀ {slot : Nat} {name : CString},
      (∃ entry, registry[slot]? = some entry ∧ entry.name = name) →
      ∃ entry, later[slot]? = some entry ∧ entry.name = name := by
    intro slot name found
    obtain ⟨entry, atSlot, named⟩ := found
    obtain ⟨inside, -⟩ := List.getElem?_eq_some_iff.mp atSlot
    obtain ⟨more, rfl⟩ := kept
    exact ⟨entry, (List.getElem?_append_left inside).trans atSlot, named⟩
  cases task with
  | search slot req => exact stays fits
  | insert slot req => exact stays fits
  | train slot req => exact stays fits
  | save slot k clusters => exact Nat.lt_of_lt_of_le fits kept.length_le
  | appendPending req => trivial
  | markDirty dbName => trivial
  | done => trivial

theorem Started.registered (started : Started server) : Registered env server := by
  have none : server.registry = [] := by rw [Server.registry, started.tables, List.map_nil]
  refine ⟨⟨?_, ?_, ?_, ?_⟩, ?_, ?_⟩
  · rw [none]
    exact Nat.zero_le _
  · rw [none]
    exact List.nodup_nil
  · rw [none]
    exact nofun
  · rw [none]
    exact nofun
  · rw [started.tasks]
    exact nofun
  · rw [started.removals]
    exact nofun

theorem KeepsTables.refl (server : Server δ) : KeepsTables server server :=
  ⟨List.prefix_refl _, fun _ => rfl⟩

theorem KeepsTables.trans {first second third : Server δ} (before : KeepsTables first second)
    (after : KeepsTables second third) : KeepsTables first third := by
  constructor
  · exact before.registry.trans after.registry
  · intro place
    exact (after.metaBin place).trans (before.metaBin place)

/-- A section that opens no table. -/
structure Steady (before after : Server δ) : Prop where
  registry : after.registry = before.registry
  metaBin : ∀ place, (after.disk place).metaBin = (before.disk place).metaBin

theorem Steady.of_same (tables : after.openTables = before.openTables)
    (disk : after.disk = before.disk) : Steady before after := by
  constructor
  · exact congrArg (List.map OpenTable.identity) tables
  · intro place
    rw [disk]

theorem Steady.keepsTables (steady : Steady before after) : KeepsTables before after := by
  constructor
  · rw [steady.registry]
  · exact steady.metaBin

theorem Listed.of_steady (listed : Listed env before) (steady : Steady before after) :
    Listed env after := by
  constructor
  · rw [steady.registry]
    exact listed.bounded
  · rw [steady.registry]
    exact listed.distinct
  · rw [steady.registry]
    exact listed.valid
  · rw [steady.registry]
    intro entry member
    rw [steady.metaBin]
    exact listed.described entry member

theorem metaBin_update [DecidableEq δ] {disk : δ → TableDir} {place : δ} {dir : TableDir}
    (same : dir.metaBin = (disk place).metaBin) (other : δ) :
    (Function.update disk place dir other).metaBin = (disk other).metaBin := by
  by_cases here : other = place
  · rw [here, Function.update_self]
    exact same
  · rw [Function.update_of_ne here]

/-- A section on the table in a slot. -/
theorem Steady.of_slot {slot : Nat} {table later : OpenTable}
    (found : before.openTables[slot]? = some table)
    (tables : after.openTables = before.openTables.set slot later)
    (identity : later.identity = table.identity)
    (metaBin : ∀ place, (after.disk place).metaBin = (before.disk place).metaBin) :
    Steady before after := by
  constructor
  · unfold Server.registry
    rw [tables, List.map_set, identity]
    obtain ⟨inside, rfl⟩ := List.getElem?_eq_some_iff.mp found
    have insideMap : slot < (before.openTables.map OpenTable.identity).length := by
      rw [List.length_map]
      exact inside
    rw [← List.getElem_map OpenTable.identity (h := insideMap), List.set_getElem_self]
  · exact metaBin

/-! ### One step -/

/-- What reading a request, or looking for its table, leaves. -/
structure Received (env : ServerEnv δ ν) (before after : Server δ) : Prop where
  listed : Listed env after
  kept : KeepsTables before after
  tasks : after.tasks = before.tasks
  removals : after.removals = before.removals

theorem Received.unchanged (listed : Listed env server) : Received env server server :=
  ⟨listed, KeepsTables.refl server, rfl, rfl⟩

/-- What a handler has to do next fits the tables. -/
structure Admitted (env : ServerEnv δ ν) (before after : Server δ)
    (outcome : Except Response Task) : Prop extends Received env before after where
  fits : ∀ task, outcome = .ok task → TaskFits after.registry task

theorem Task.FollowedBy.fits {registry : List TableIdentity} {task later : Task}
    (follows : task.FollowedBy later) (fits : TaskFits registry task) :
    TaskFits registry later := by
  cases follows with
  | finished => trivial
  | queued req => trivial
  | trained slot req clusters =>
      obtain ⟨entry, atSlot, -⟩ := fits
      exact (List.getElem?_eq_some_iff.mp atSlot).1

theorem Registered.of_steady (registered : Registered env before) (steady : Steady before after)
    (tasks : after.tasks = before.tasks)
    (removals : ∀ slot ∈ after.removals, slot ∈ before.removals ∨
      slot < before.registry.length) : Registered env after := by
  refine ⟨registered.toListed.of_steady steady, ?_, ?_⟩
  · rw [tasks, steady.registry]
    exact registered.inWork
  · rw [steady.registry]
    intro slot member
    rcases removals slot member with old | inside
    · exact registered.removals slot old
    · exact inside

variable [DecidableEq δ]

theorem Server.withTable_registry (server : Server δ) (place : δ) (dir : TableDir)
    (table : OpenTable) :
    (server.withTable place dir table).registry = server.registry ++ [table.identity] := by
  unfold Server.registry Server.withTable
  rw [List.map_append]
  rfl

theorem Opening.received {dbName : CString} {slot : Option Nat} (listed : Listed env server)
    (opening : Opening env server dbName next slot) :
    Received env server next ∧
      ∀ found ∈ slot, ∃ entry, next.registry[found]? = some entry ∧ entry.name = dbName := by
  cases opening with
  | found slot table atSlot named =>
      refine ⟨Received.unchanged listed, ?_⟩
      intro found isSlot
      cases isSlot
      refine ⟨table.identity, ?_, named⟩
      unfold Server.registry
      rw [List.getElem?_map, atSlot]
      rfl
  | refused => exact ⟨Received.unchanged listed, nofun⟩
  | failed dir metaBin data =>
      have steady : Steady server (server.setDir (env.dirOf dbName) dir) :=
        ⟨rfl, metaBin_update metaBin⟩
      exact ⟨⟨listed.of_steady steady, steady.keepsTables, rfl, rfl⟩, nofun⟩
  | opened fuel dir db new room opens =>
      have registryEq := server.withTable_registry (env.dirOf dbName) dir (newSlot dbName db)
      have metaBin : ∀ place,
          ((server.withTable (env.dirOf dbName) dir (newSlot dbName db)).disk place).metaBin =
            (server.disk place).metaBin := metaBin_update (dbOpen_dir opens).1
      obtain ⟨valid, described⟩ := dbOpen_described opens
      have newName : dbName ∉ server.registry.map TableIdentity.name := by
        intro taken
        rw [Server.registry, List.map_map] at taken
        obtain ⟨table, member, named⟩ := List.mem_map.mp taken
        exact new table member named
      have kept : KeepsTables server
          (server.withTable (env.dirOf dbName) dir (newSlot dbName db)) := by
        constructor
        · rw [registryEq]
          exact List.prefix_append _ _
        · exact metaBin
      refine ⟨⟨⟨?_, ?_, ?_, ?_⟩, kept, rfl, rfl⟩, ?_⟩
      · rw [registryEq, List.length_append]
        have fits : server.registry.length < maxOpenTables := by
          rw [Server.registry, List.length_map]
          exact room
        exact fits
      · rw [registryEq, List.map_append, List.nodup_append]
        refine ⟨listed.distinct, List.nodup_singleton _, ?_⟩
        intro name inside other isNew same
        rw [same, List.mem_singleton.mp isNew] at inside
        exact newName inside
      · rw [registryEq]
        intro entry member
        rcases List.mem_append.mp member with old | isNew
        · exact listed.valid entry old
        · rw [List.mem_singleton.mp isNew]
          exact valid
      · rw [registryEq]
        intro entry member
        rw [metaBin]
        rcases List.mem_append.mp member with old | isNew
        · exact listed.described entry old
        · rw [List.mem_singleton.mp isNew]
          exact described
      · intro slot isSlot
        cases isSlot
        refine ⟨(newSlot dbName db).identity, ?_, rfl⟩
        rw [registryEq, ← List.length_map OpenTable.identity]
        exact List.getElem?_concat_length

theorem TaskOn.fits {registry : List TableIdentity} {slot : Nat} {name : CString} {task : Task}
    (isTask : TaskOn slot name task)
    (found : ∃ entry, registry[slot]? = some entry ∧ entry.name = name) :
    TaskFits registry task := by
  cases isTask with
  | search req => exact found
  | insert req => exact found
  | train req => exact found

theorem handelClient_admitted {io : OpenIO} {headerBuffer httpBody : CString}
    {outcome : Except Response Task} (listed : Listed env server)
    (ran : handelClient env io server headerBuffer httpBody = some (next, outcome)) :
    Admitted env server next outcome := by
  cases handelClient_cases ran with
  | refused response => exact ⟨Received.unchanged listed, nofun⟩
  | queued req named accepted =>
      refine ⟨Received.unchanged listed, ?_⟩
      intro task same
      cases same
      trivial
  | notFound name response named accepted opening => exact ⟨(opening.received listed).1, nofun⟩
  | found name slot task named accepted opening isTask =>
      obtain ⟨received, atSlot⟩ := opening.received listed
      refine ⟨received, ?_⟩
      intro other same
      cases same
      exact isTask.fits (atSlot slot rfl)

/-- A section of a handler opens no table. -/
theorem taskStep_steady {index : Nat} {io : SectionIO} {task : Task}
    (ran : taskStep env server index io task = some next) :
    Steady server next ∧ next.removals = server.removals ∧
      ∃ later, next.tasks = server.tasks.set index later ∧ task.FollowedBy later := by
  cases task with
  | search slot req =>
      simp only [taskStep] at ran
      obtain ⟨table, found, ran⟩ := onSlot_eq_some ran
      split at ran
      · cases ran
        exact ⟨Steady.of_same rfl rfl, rfl, .done, rfl, .finished _⟩
      · obtain ⟨loaded, loadedEq, rfl⟩ := Option.map_eq_some_iff.mp ran
        obtain ⟨sameDb, sameName⟩ := loadIndexOnDemand_db loadedEq
        have identity := identity_of sameName (congrArg FlatDb.shape sameDb)
        refine ⟨?_, rfl, .done, rfl, .finished _⟩
        exact Steady.of_slot found rfl identity fun _ => rfl
  | insert slot req =>
      simp only [taskStep] at ran
      obtain ⟨table, found, ran⟩ := onSlot_eq_some ran
      obtain ⟨⟨response, file, written⟩, inserted, rfl⟩ := Option.map_eq_some_iff.mp ran
      refine ⟨?_, rfl, .done, rfl, .finished _⟩
      exact Steady.of_slot found rfl (insertLocked_identity inserted) (metaBin_update rfl)
  | appendPending req =>
      obtain ⟨⟨code, queue⟩, -, rfl⟩ := Option.map_eq_some_iff.mp ran
      refine ⟨?_, rfl, .markDirty req.dbName, rfl, .queued req⟩
      exact ⟨rfl, metaBin_update rfl⟩
  | markDirty dbName =>
      cases ran
      refine ⟨?_, rfl, .done, rfl, .finished _⟩
      exact ⟨markTablePendingDirty_identity dbName server.openTables, fun _ => rfl⟩
  | train slot req =>
      simp only [taskStep] at ran
      obtain ⟨table, found, ran⟩ := onSlot_eq_some ran
      split at ran
      · cases ran
        exact ⟨Steady.of_same rfl rfl, rfl, .done, rfl, .finished _⟩
      · obtain ⟨clusters, -, rfl⟩ := Option.map_eq_some_iff.mp ran
        exact ⟨Steady.of_same rfl rfl, rfl, .save slot req.k clusters, rfl,
          .trained slot req clusters⟩
  | save slot k clusters =>
      simp only [taskStep] at ran
      obtain ⟨table, found, ran⟩ := onSlot_eq_some ran
      obtain ⟨⟨status, file⟩, -, rfl⟩ := Option.map_eq_some_iff.mp ran
      refine ⟨?_, rfl, .done, rfl, .finished _⟩
      refine Steady.of_slot found rfl ?_ (metaBin_update rfl)
      split
      · rfl
      · rfl
  | done => cases ran

/-- A step of the worker opens no table. -/
theorem workerStep_steady {action : ServerAction}
    (worker : action.ofWorker = true)
    (stepped : serverStep env server action = some next) :
    Steady server next ∧ next.tasks = server.tasks ∧
      ∀ slot ∈ next.removals, slot ∈ server.removals ∨ slot < server.registry.length := by
  cases action with
  | request headerBuffer httpBody io => cases worker
  | task index io => cases worker
  | reloadAuth authKeys =>
      cases stepped
      exact ⟨Steady.of_same rfl rfl, rfl, fun _ => Or.inl⟩
  | merge slot =>
      simp only [serverStep] at stepped
      obtain ⟨table, found, ran⟩ := onSlot_eq_some stepped
      obtain ⟨merged, mergedEq, rfl⟩ := Option.map_eq_some_iff.mp ran
      refine ⟨?_, rfl, fun _ => Or.inl⟩
      exact Steady.of_slot found rfl (mergeQueue_identity mergedEq) fun _ => rfl
  | refresh slot =>
      simp only [serverStep] at stepped
      obtain ⟨table, found, ran⟩ := onSlot_eq_some stepped
      cases ran
      refine ⟨?_, rfl, fun _ => Or.inl⟩
      exact Steady.of_slot found rfl (refreshPending_identity _ table) fun _ => rfl
  | autoDelete slot io now =>
      simp only [serverStep] at stepped
      obtain ⟨table, found, ran⟩ := onSlot_eq_some stepped
      obtain ⟨⟨compacted, dir, later⟩, deleted, rfl⟩ := Option.map_eq_some_iff.mp ran
      obtain ⟨identity, metaBin⟩ := autoDelete_keeps deleted
      refine ⟨Steady.of_slot found rfl identity (metaBin_update metaBin), rfl, ?_⟩
      have inside : slot < server.registry.length := by
        rw [Server.registry, List.length_map]
        exact (List.getElem?_eq_some_iff.mp found).1
      dsimp only
      split
      · intro removed member
        rcases List.mem_cons.mp member with here | old
        · rw [here]
          exact Or.inr inside
        · exact Or.inl old
      · intro removed member
        exact Or.inl member
  | removeIndex slot removed =>
      simp only [serverStep] at stepped
      split at stepped
      · obtain ⟨table, found, ran⟩ := onSlot_eq_some stepped
        cases ran
        refine ⟨Steady.of_slot found rfl rfl (metaBin_update rfl), rfl, ?_⟩
        intro other member
        exact Or.inl (List.mem_of_mem_erase member)
      · cases stepped

/-- One step, whatever it is, keeps the list. -/
theorem serverStep_registered (action : ServerAction) (registered : Registered env server)
    (stepped : serverStep env server action = some next) :
    Registered env next ∧ KeepsTables server next := by
  cases action with
  | request headerBuffer httpBody io =>
      obtain ⟨⟨admitted, outcome⟩, ran, rfl⟩ := Option.map_eq_some_iff.mp stepped
      have received := handelClient_admitted registered.toListed ran
      have inWork : ∀ task ∈ admitted.tasks, TaskFits admitted.registry task := by
        rw [received.tasks]
        intro task member
        exact (registered.inWork task member).mono received.kept.registry
      have removals : ∀ slot ∈ admitted.removals, slot < admitted.registry.length := by
        rw [received.removals]
        intro slot member
        exact Nat.lt_of_lt_of_le (registered.removals slot member)
          received.kept.registry.length_le
      cases outcome with
      | error response => exact ⟨⟨received.listed, inWork, removals⟩, received.kept⟩
      | ok task =>
          have steady : Steady admitted { admitted with tasks := admitted.tasks ++ [task] } :=
            Steady.of_same rfl rfl
          refine ⟨⟨received.listed.of_steady steady, ?_, removals⟩,
            received.kept.trans steady.keepsTables⟩
          intro other member
          rcases List.mem_append.mp member with old | new
          · exact inWork other old
          · rw [List.mem_singleton.mp new]
            exact received.fits task rfl
  | task index io =>
      simp only [serverStep] at stepped
      split at stepped
      · cases stepped
      · rename_i task found
        obtain ⟨steady, removals, later, tasks, follows⟩ := taskStep_steady stepped
        refine ⟨⟨registered.toListed.of_steady steady, ?_, ?_⟩, steady.keepsTables⟩
        · rw [tasks, steady.registry]
          intro other member
          rcases List.mem_or_eq_of_mem_set member with old | new
          · exact registered.inWork other old
          · rw [new]
            exact follows.fits (registered.inWork task (List.mem_of_getElem? found))
        · rw [removals, steady.registry]
          exact registered.removals
  | _ =>
      obtain ⟨steady, tasks, removals⟩ := workerStep_steady rfl stepped
      exact ⟨registered.of_steady steady tasks removals, steady.keepsTables⟩

/-! ### Whole runs -/

/-- Any requests and sections in any order, at any outcome of the file operations: the open
tables stay what and where they are, and what they are is in their `meta.bin`. -/
theorem server_keeps_tables (env : ServerEnv δ ν) (server : Server δ) (actions : List ServerAction)
    (registered : Registered env server) :
    GuardedRun.Throughout (serverStep env)
      (fun later => Registered env later ∧ KeepsTables server later) server actions := by
  apply GuardedRun.throughout_of_invariant
  · intro state action next sofar stepped
    obtain ⟨kept, keeps⟩ := serverStep_registered action sofar.1 stepped
    exact ⟨kept, sofar.2.trans keeps⟩
  · exact ⟨registered, KeepsTables.refl server⟩

end Sections

theorem server_keeps_tables_scheduled :
    (GuardedRun.run (serverStep insertEnv) scheduledServer deleteRequestRun).any
        (fun later => later.registry.length == 1) = true ∧
      GuardedRun.Throughout (serverStep insertEnv)
        (fun later => Registered insertEnv later ∧ KeepsTables scheduledServer later)
        scheduledServer deleteRequestRun := by
  constructor
  · decide +kernel
  · exact server_keeps_tables insertEnv scheduledServer deleteRequestRun
      (Started.registered ⟨rfl, rfl, rfl⟩)

end OriginDb
