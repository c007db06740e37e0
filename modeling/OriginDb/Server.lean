/-
The server: its open tables, its request handlers and its sync worker.

A request is read, authenticated and given its table in one step; what it does
to the table afterwards are steps of their own, one for each critical section,
so that any number of handlers and the worker interleave.  The worker's
sections may come in any order here, and no lock is modelled: that allows more
runs than the code has, which is on the safe side for what is proved.

Table names become directories by `dirOf`.  Names that a path treats alike may
share a directory; nothing is assumed of the function.
-/

import Mathlib.Logic.Function.Basic
import OriginDb.Foundation.GuardedRun
import OriginDb.IndexLifecycle
import OriginDb.Requests

namespace OriginDb

open Foundation

/-- What the server is given: the meaning of paths, cJSON, the number casts and
the floating-point operations. -/
structure ServerEnv (δ ν : Type) where
  dirOf : CString → δ
  cJSONParse : CString → Option (Json ν)
  casts : NumberCasts ν
  floats : FloatOps

/-- What a handler still has to do; a number is the slot of its table. -/
inductive Task where
  | search (slot : Nat) (req : SearchReq)
  | insert (slot : Nat) (req : InsertReq)
  | appendPending (req : DeleteReq)
  | markDirty (dbName : CString)
  | train (slot : Nat) (req : TrainReq)
  | save (slot : Nat) (k : UInt64) (clusters : List Cluster)
  | done
deriving DecidableEq

/-- `removals` are the tables that the worker has compacted and whose index it
has still to remove. -/
structure Server (δ : Type) where
  disk : δ → TableDir
  authCache : List AuthEntry
  openTables : List OpenTable
  appendLocked : Bool
  tasks : List Task
  removals : List Nat

/-- Outcomes of the file operations, and the clock and `rand`, in one section. -/
structure SectionIO where
  write : WriteIO
  opens : Bool
  timestamp : UInt64
  save : SaveIO
  rand : Nat → Nat

/-- Outcome of the file operations and allocations of one `db_open`; where one
fails, the `touch` of `storage_init` may have come before. -/
inductive OpenIO where
  | ok
  | failed (touched : Bool)
deriving DecidableEq

inductive ServerAction where
  | request (headerBuffer httpBody : CString) (io : OpenIO)
  | task (index : Nat) (io : SectionIO)
  | reloadAuth (authKeys : Option (List UInt8))
  | merge (slot : Nat)
  | refresh (slot : Nat)
  | autoDelete (slot : Nat) (io : ExecuteIO) (now : UInt64)
  | removeIndex (slot : Nat) (removed : Bool)

section Steps

variable {δ ν : Type} [DecidableEq δ] (env : ServerEnv δ ν)

def Server.setDir (server : Server δ) (place : δ) (dir : TableDir) : Server δ :=
  { server with disk := Function.update server.disk place dir }

def Server.setTable (server : Server δ) (slot : Nat) (table : OpenTable) : Server δ :=
  { server with openTables := server.openTables.set slot table }

def Server.setTask (server : Server δ) (index : Nat) (task : Task) : Server δ :=
  { server with tasks := server.tasks.set index task }

/-- `MAX_OPEN_TABLES`. -/
def maxOpenTables : Nat := 32

/-- `db_open` with its failures. -/
def dbOpenWith (io : OpenIO) (fuel : Nat) (name : CString) (dir : TableDir) :
    Option (TableDir × Option FlatDb) :=
  match io with
  | .ok => dbOpen fuel name dir
  | .failed touched =>
      if touched && validateDbName name then
        some ({ dir with dataDb := some (dir.dataDb.getD []) }, none)
      else some (dir, none)

/-- `get_or_open_table`: the slot, or NULL. -/
def getOrOpenTable (io : OpenIO) (server : Server δ) (dbName : CString) :
    Option (Server δ × Option Nat) :=
  match server.openTables.findIdx? (fun table => table.name == dbName) with
  | some slot => some (server, some slot)
  | none =>
      if maxOpenTables ≤ server.openTables.length then some (server, none)
      else
        let place := env.dirOf dbName
        let dir := server.disk place
        match dbOpenWith io ((dir.dataDb.getD []).length + 1) dbName dir with
        | none => none
        | some (dir, none) => some (server.setDir place dir, none)
        | some (dir, some db) =>
            let opened := server.setDir place dir
            some ({ opened with openTables := opened.openTables ++ [newSlot dbName db] },
              some server.openTables.length)

/-- The common head of the handlers: a parsed request, its key, its table. -/
def checkRequest {req : Type} (server : Server δ) (headerBuffer : CString) (parsed : Option req)
    (dbName : req → CString) (unauthorized : String)
    (next : Server δ → req → Option (Server δ × Except Response Task)) :
    Option (Server δ × Except Response Task) :=
  match parsed with
  | none => some (server, .error (.error .invalidParameter "Malformed JSON payload."))
  | some req =>
      if authenticateRequest server.authCache headerBuffer (dbName req) then next server req
      else some (server, .error (.error .unauthorizedAccess unauthorized))

def onTable (io : OpenIO) (server : Server δ) (dbName : CString) (notFound : String)
    (task : Nat → Task) : Option (Server δ × Except Response Task) :=
  (getOrOpenTable env io server dbName).map fun (server, slot) =>
    match slot with
    | none => (server, .error (.error .wrongRequest notFound))
    | some slot => (server, .ok (task slot))

/-- `handel_client` up to its first section on the table: an error, or what the
handler has to do next. -/
def handelClient (io : OpenIO) (server : Server δ) (headerBuffer httpBody : CString) :
    Option (Server δ × Except Response Task) :=
  let json := env.cJSONParse httpBody
  match routeOf headerBuffer with
  | .search =>
      checkRequest server headerBuffer (json.bind (parseSearchRequest env.casts)) SearchReq.dbName
        "Invalid or missing API key for this table." fun server req =>
          onTable env io server req.dbName "Database not found" fun slot => .search slot req
  | .insert =>
      checkRequest server headerBuffer (json.bind (parseInsertRequest env.casts)) InsertReq.dbName
        "Invalid or missing API key for this table." fun server req =>
          onTable env io server req.dbName "Database table not found." fun slot => .insert slot req
  | .deleteRequest =>
      checkRequest server headerBuffer (json.bind (parseDeleteRequest env.casts)) DeleteReq.dbName
        "Invalid API key." fun server req => some (server, .ok (.appendPending req))
  | .train =>
      checkRequest server headerBuffer (json.bind (parseTrainRequest env.casts)) TrainReq.dbName
        "Invalid or missing API key for this table." fun server req =>
          onTable env io server req.dbName "Database table not found." fun slot => .train slot req
  | .invalid => some (server, .error (.error .wrongRequest "Invalid API route."))

/-- `MAX_TOP_K`. -/
def maxTopK : UInt32 := 10000

/-- The checks of `/search` under the table's lock. -/
def refusesSearch (db : FlatDb) (req : SearchReq) : Bool :=
  db.dimension != UInt64.ofNat req.queryVector.length ||
    (req.topK == 0 || maxTopK < req.topK) ||
    (req.useAnn && (req.nprobe == 0 || maxTopK < req.nprobe))

def refusesTrain (db : FlatDb) (req : TrainReq) : Bool :=
  req.k == 0 || db.records.length == 0 || decide (db.records.length < req.k.toNat)

/-- `mark_table_pending_dirty`. -/
def markTablePendingDirty (dbName : CString) (tables : List OpenTable) : List OpenTable :=
  match tables.findIdx? (fun table => table.name == dbName) with
  | none => tables
  | some slot => tables.modify slot fun table => { table with pendingDeleteDirty := true }

/-- A section of a handler on the table in its slot. -/
def onSlot (server : Server δ) (slot : Nat)
    (critical : OpenTable → δ → TableDir → Option (Server δ)) : Option (Server δ) :=
  match server.openTables[slot]? with
  | none => none
  | some table =>
      critical table (env.dirOf table.name) (server.disk (env.dirOf table.name))

/-- The next section of the handler at `index`. -/
def taskStep (server : Server δ) (index : Nat) (io : SectionIO) : Task → Option (Server δ)
  | .search slot req =>
      onSlot env server slot fun table _ dir =>
        if refusesSearch table.db req || !req.useAnn then some (server.setTask index .done)
        else
          (loadIndexOnDemand dir.ivfIndex table).map fun loaded =>
            (server.setTable slot loaded).setTask index .done
  | .insert slot req =>
      onSlot env server slot fun table place dir =>
        (insertLocked io.write (dir.dataDb.getD []) table req).map fun (_, file, written) =>
          ((server.setDir place { dir with dataDb := some file }).setTable slot written).setTask
            index .done
  | .appendPending req =>
      let place := env.dirOf req.dbName
      let dir := server.disk place
      (appendPendingDelete io.opens req.id io.timestamp
        { appendLocked := server.appendLocked, pendingBin := dir.pendingBin }).map
          fun (_, queue) =>
            { (server.setDir place { dir with pendingBin := queue.pendingBin }).setTask index
                (.markDirty req.dbName) with
              appendLocked := queue.appendLocked }
  | .markDirty dbName =>
      some
        { server.setTask index .done with
          openTables := markTablePendingDirty dbName server.openTables }
  | .train slot req =>
      onSlot env server slot fun table _ dir =>
        if refusesTrain table.db req then some (server.setTask index .done)
        else
          (kmeansBuild env.floats (dir.dataDb.getD []) table.db.storage table.db.dimension
            table.db.calculateDistance io.rand table.db.records req.k req.maxIterations).map
              fun clusters => server.setTask index (.save slot req.k clusters)
  | .save slot k clusters =>
      onSlot env server slot fun table place dir =>
        (saveIvfIndex io.save clusters k table.db.dimension dir.ivfIndex).map
          fun (status, file) =>
            ((server.setDir place { dir with ivfIndex := file }).setTable slot
              (if status = 0 then installIndex clusters k table else table)).setTask index .done
  | .done => none

def serverStep (server : Server δ) : ServerAction → Option (Server δ)
  | .request headerBuffer httpBody io =>
      (handelClient env io server headerBuffer httpBody).map fun (server, outcome) =>
        match outcome with
        | .error _ => server
        | .ok task => { server with tasks := server.tasks ++ [task] }
  | .task index io =>
      match server.tasks[index]? with
      | none => none
      | some task => taskStep env server index io task
  | .reloadAuth authKeys =>
      some { server with authCache := loadAuthCache authKeys server.authCache }
  | .merge slot =>
      onSlot env server slot fun table _ dir =>
        (mergeQueue (dir.dataDb.getD []) table).map (server.setTable slot)
  | .refresh slot =>
      onSlot env server slot fun table _ dir =>
        some (server.setTable slot (refreshPending dir.pendingBin table))
  | .autoDelete slot io now =>
      onSlot env server slot fun table place dir =>
        (autoDelete io now dir table).map fun (compacted, dir, table) =>
          { (server.setDir place dir).setTable slot table with
            removals :=
              if 0 < compacted then slot :: server.removals else server.removals }
  | .removeIndex slot removed =>
      if slot ∈ server.removals then
        onSlot env server slot fun table place dir =>
          some
            { (server.setDir place
                { dir with ivfIndex := if removed then none else dir.ivfIndex }).setTable slot
                (clearCachedIndex table) with
              removals := server.removals.erase slot }
      else none

end Steps

/-! ### What every section leaves alone -/

/-- One directory before and after: the data file has only grown at its end,
and the schedule is the same. -/
structure DirGrows (before after : TableDir) : Prop where
  data : ∀ file, before.dataDb = some file → ∃ grown, after.dataDb = some grown ∧ file <+: grown
  schedule : after.autoDeleteSchedule = before.autoDeleteSchedule

/-- Every directory has only grown, and no record of an open table has changed. -/
structure OnlyGrows {δ : Type} (before after : Server δ) : Prop where
  disk : ∀ place, DirGrows (before.disk place) (after.disk place)
  tables : ∀ (slot : Nat) (table : OpenTable), before.openTables[slot]? = some table →
    ∃ later : OpenTable, after.openTables[slot]? = some later ∧
      table.db.records <+: later.db.records

theorem DirGrows.of_same {before after : TableDir} (dataEq : after.dataDb = before.dataDb)
    (scheduleEq : after.autoDeleteSchedule = before.autoDeleteSchedule) :
    DirGrows before after := by
  constructor
  · intro file found
    exact ⟨file, dataEq.trans found, List.prefix_refl _⟩
  · exact scheduleEq

theorem DirGrows.refl (dir : TableDir) : DirGrows dir dir := DirGrows.of_same rfl rfl

theorem DirGrows.trans {first second third : TableDir} (before : DirGrows first second)
    (after : DirGrows second third) : DirGrows first third := by
  constructor
  · intro file found
    obtain ⟨middle, foundMiddle, grown⟩ := before.data file found
    obtain ⟨last, foundLast, grownLast⟩ := after.data middle foundMiddle
    exact ⟨last, foundLast, grown.trans grownLast⟩
  · exact after.schedule.trans before.schedule

/-- A section that writes the data file, or creates it. -/
theorem DirGrows.of_data {before after : TableDir} {file : List UInt8}
    (dataEq : after.dataDb = some file) (grown : before.dataDb.getD [] <+: file)
    (scheduleEq : after.autoDeleteSchedule = before.autoDeleteSchedule) :
    DirGrows before after := by
  constructor
  · intro old found
    rw [found] at grown
    exact ⟨file, dataEq, grown⟩
  · exact scheduleEq

/-- A record stands at an offset of the data file, its deletion flag with it. -/
def TableDir.HoldsRecord {dimension : UInt64} (dir : TableDir) (offset : Nat)
    (stored : StoredRecord dimension) : Prop :=
  ∃ file, dir.dataDb = some file ∧ stored.encode <+: file.drop offset

theorem DirGrows.holdsRecord {before after : TableDir} {dimension : UInt64} {offset : Nat}
    {stored : StoredRecord dimension} (grows : DirGrows before after)
    (held : before.HoldsRecord offset stored) : after.HoldsRecord offset stored := by
  rcases held with ⟨file, found, stands⟩
  obtain ⟨grown, foundGrown, isPrefix⟩ := grows.data file found
  exact ⟨grown, foundGrown, stands.trans (isPrefix.drop offset)⟩

section Growth

variable {δ ν : Type}

theorem OnlyGrows.refl (server : Server δ) : OnlyGrows server server :=
  ⟨fun _ => DirGrows.refl _, fun _ table found => ⟨table, found, List.prefix_refl _⟩⟩

theorem OnlyGrows.trans {first second third : Server δ} (before : OnlyGrows first second)
    (after : OnlyGrows second third) : OnlyGrows first third := by
  constructor
  · intro place
    exact (before.disk place).trans (after.disk place)
  · intro slot table found
    obtain ⟨middle, foundMiddle, grown⟩ := before.tables slot table found
    obtain ⟨later, foundLater, grownLater⟩ := after.tables slot middle foundMiddle
    exact ⟨later, foundLater, grown.trans grownLater⟩

/-- What the requests leave: every `data.db` begins with what it was, every
record in it and in the open tables is as it was, and so is every schedule. -/
structure NothingDeleted (before after : Server δ) : Prop where
  grows : OnlyGrows before after
  records : ∀ (place : δ) (dimension : UInt64) (stored : StoredRecord dimension) (offset : Nat),
    (before.disk place).HoldsRecord offset stored → (after.disk place).HoldsRecord offset stored

theorem OnlyGrows.nothingDeleted {before after : Server δ} (grows : OnlyGrows before after) :
    NothingDeleted before after := by
  constructor
  · exact grows
  · intro place dimension stored offset held
    exact (grows.disk place).holdsRecord held

theorem dirGrows_update [DecidableEq δ] {disk : δ → TableDir} {place : δ} {dir : TableDir}
    (grows : DirGrows (disk place) dir) (other : δ) :
    DirGrows (disk other) (Function.update disk place dir other) := by
  by_cases same : other = place
  · rw [same, Function.update_self]
    exact grows
  · rw [Function.update_of_ne same]
    exact DirGrows.refl _

/-- A section that touches one table. -/
theorem onlyGrows_of_table {before after : Server δ} {slot : Nat} {table next : OpenTable}
    (found : before.openTables[slot]? = some table)
    (disk : ∀ place, DirGrows (before.disk place) (after.disk place))
    (tablesEq : after.openTables = before.openTables.set slot next)
    (recordsGrow : table.db.records <+: next.db.records) : OnlyGrows before after := by
  constructor
  · exact disk
  · intro other old foundOld
    rw [tablesEq]
    by_cases same : slot = other
    · rw [← same, found] at foundOld
      cases foundOld
      obtain ⟨inside, -⟩ := List.getElem?_eq_some_iff.mp found
      rw [← same, List.getElem?_set_self inside]
      exact ⟨next, rfl, recordsGrow⟩
    · rw [List.getElem?_set_ne same]
      exact ⟨old, foundOld, List.prefix_refl _⟩

/-- A section that changes neither a directory nor a record. -/
theorem onlyGrows_of_same {before after : Server δ} (diskEq : after.disk = before.disk)
    (tablesEq : after.openTables = before.openTables) : OnlyGrows before after := by
  constructor
  · intro place
    rw [diskEq]
    exact DirGrows.refl _
  · intro slot table found
    rw [tablesEq]
    exact ⟨table, found, List.prefix_refl _⟩

theorem checkRequest_grows {req : Type} {server next : Server δ} {headerBuffer : CString}
    {parsed : Option req} {dbName : req → CString} {unauthorized : String}
    {continue_ : Server δ → req → Option (Server δ × Except Response Task)}
    {outcome : Except Response Task}
    (continues : ∀ req next outcome, continue_ server req = some (next, outcome) →
      OnlyGrows server next)
    (ran : checkRequest server headerBuffer parsed dbName unauthorized continue_ =
      some (next, outcome)) : OnlyGrows server next := by
  unfold checkRequest at ran
  split at ran
  · cases ran
    exact OnlyGrows.refl _
  · split at ran
    · exact continues _ next outcome ran
    · cases ran
      exact OnlyGrows.refl _

/-- A section on a slot runs on the table that is there. -/
theorem onSlot_eq_some {env : ServerEnv δ ν} {server next : Server δ} {slot : Nat}
    {critical : OpenTable → δ → TableDir → Option (Server δ)}
    (ran : onSlot env server slot critical = some next) :
    ∃ table, server.openTables[slot]? = some table ∧
      critical table (env.dirOf table.name) (server.disk (env.dirOf table.name)) = some next := by
  unfold onSlot at ran
  split at ran
  · cases ran
  · rename_i table found
    exact ⟨table, found, ran⟩

end Growth

/-! ### The single writers -/

theorem storageWriteRecord_grows {io : WriteIO} {data file : List UInt8}
    {storage storage' : Storage} {record : Record} {dimension : UInt64} {code : Int}
    (wrote : storageWriteRecord io data storage record dimension = some (code, file, storage')) :
    data <+: file := by
  unfold storageWriteRecord at wrote
  split at wrote
  · cases wrote
    exact List.prefix_refl _
  · split at wrote
    · cases wrote
    · cases io with
      | ok =>
          cases wrote
          exact List.prefix_append _ _
      | failed appended =>
          cases wrote
          exact List.prefix_append _ _

theorem insertLocked_grows {io : WriteIO} {data file : List UInt8} {table next : OpenTable}
    {req : InsertReq} {response : Response}
    (inserted : insertLocked io data table req = some (response, file, next)) :
    data <+: file ∧ next.db.records = table.db.records := by
  unfold insertLocked at inserted
  split at inserted
  · cases inserted
    exact ⟨List.prefix_refl _, rfl⟩
  · dsimp only at inserted
    split at inserted
    · cases inserted
    · rename_i code written storage wrote
      have grown := storageWriteRecord_grows wrote
      split at inserted
      · cases inserted
        exact ⟨grown, rfl⟩
      · cases inserted
        exact ⟨grown, rfl⟩

theorem mergeQueue_grows {data : List UInt8} {table next : OpenTable}
    (merged : mergeQueue data table = some next) : table.db.records <+: next.db.records := by
  unfold mergeQueue at merged
  split at merged
  · cases merged
    exact List.prefix_refl _
  · split at merged
    · cases merged
    · rename_i grown grew
      split at merged
      · cases merged
        rw [← (growForMerge_kept grew).1]
        exact List.prefix_append _ _
      · cases merged

theorem dbInit_grows {fuel : Nat} {name : CString} {dimension initialCapacity : UInt64}
    {metric : UInt32} {dir dir' : TableDir} {db : Option FlatDb}
    (opened : dbInit fuel name dimension initialCapacity metric dir = some (dir', db)) :
    DirGrows dir dir' := by
  unfold dbInit at opened
  split at opened
  · obtain ⟨loaded, -, shape⟩ := Option.map_eq_some_iff.mp opened
    cases shape
    exact DirGrows.of_data rfl (List.prefix_refl _) rfl
  · cases opened
    exact DirGrows.refl _

theorem dbOpen_grows {fuel : Nat} {name : CString} {dir dir' : TableDir} {db : Option FlatDb}
    (opened : dbOpen fuel name dir = some (dir', db)) : DirGrows dir dir' := by
  unfold dbOpen at opened
  split at opened
  · split at opened
    · cases opened
      exact DirGrows.refl _
    · split at opened
      · cases opened
        exact DirGrows.refl _
      · exact dbInit_grows opened
  · cases opened
    exact DirGrows.refl _

theorem dbOpenWith_grows {io : OpenIO} {fuel : Nat} {name : CString} {dir dir' : TableDir}
    {db : Option FlatDb} (opened : dbOpenWith io fuel name dir = some (dir', db)) :
    DirGrows dir dir' := by
  cases io with
  | ok => exact dbOpen_grows opened
  | failed touched =>
      simp only [dbOpenWith] at opened
      split at opened
      · cases opened
        exact DirGrows.of_data rfl (List.prefix_refl _) rfl
      · cases opened
        exact DirGrows.refl _

/-- A pass that finds no schedule that is due: there is none, or its time is later. -/
def NotDue (now : UInt64) (dir : TableDir) : Prop :=
  dir.autoDeleteSchedule = none ∨ now < getAutoDeleteSchedule dir.autoDeleteSchedule

instance (now : UInt64) (dir : TableDir) : Decidable (NotDue now dir) := by
  unfold NotDue
  infer_instance

theorem autoDelete_of_notDue {io : ExecuteIO} {now : UInt64} {dir : TableDir} {table : OpenTable}
    (notDue : NotDue now dir) : autoDelete io now dir table = some (0, dir, table) := by
  unfold autoDelete checkAndRunAutoDelete
  rcases notDue with absent | later
  · have unset : getAutoDeleteSchedule dir.autoDeleteSchedule = 0 := by
      rw [absent]
      rfl
    dsimp only
    rw [if_pos unset]
    rfl
  · dsimp only
    rw [if_pos later, ite_self]
    rfl

/-! ### Steps only let files grow -/

section Safety

variable {δ ν : Type} [DecidableEq δ] {env : ServerEnv δ ν}

theorem getOrOpenTable_grows {io : OpenIO} {server next : Server δ} {dbName : CString}
    {slot : Option Nat} (opened : getOrOpenTable env io server dbName = some (next, slot)) :
    OnlyGrows server next := by
  unfold getOrOpenTable at opened
  split at opened
  · cases opened
    exact OnlyGrows.refl _
  · split at opened
    · cases opened
      exact OnlyGrows.refl _
    · dsimp only at opened
      split at opened
      · cases opened
      · rename_i dir found
        cases opened
        exact ⟨dirGrows_update (dbOpenWith_grows found),
          fun _ table found => ⟨table, found, List.prefix_refl _⟩⟩
      · rename_i dir db found
        cases opened
        constructor
        · exact dirGrows_update (dbOpenWith_grows found)
        · intro other table foundTable
          obtain ⟨inside, -⟩ := List.getElem?_eq_some_iff.mp foundTable
          refine ⟨table, ?_, List.prefix_refl _⟩
          exact (List.getElem?_append_left inside).trans foundTable

theorem onTable_grows {io : OpenIO} {server next : Server δ} {dbName : CString}
    {notFound : String} {task : Nat → Task} {outcome : Except Response Task}
    (ran : onTable env io server dbName notFound task = some (next, outcome)) :
    OnlyGrows server next := by
  obtain ⟨⟨opened, slot⟩, openedEq, shape⟩ := Option.map_eq_some_iff.mp ran
  have grows := getOrOpenTable_grows openedEq
  cases slot with
  | none =>
      cases shape
      exact grows
  | some slot =>
      cases shape
      exact grows

theorem handelClient_grows {io : OpenIO} {server next : Server δ}
    {headerBuffer httpBody : CString} {outcome : Except Response Task}
    (ran : handelClient env io server headerBuffer httpBody = some (next, outcome)) :
    OnlyGrows server next := by
  unfold handelClient at ran
  dsimp only at ran
  split at ran
  · apply checkRequest_grows _ ran
    intro req after result
    exact onTable_grows
  · apply checkRequest_grows _ ran
    intro req after result
    exact onTable_grows
  · apply checkRequest_grows _ ran
    intro req after result answered
    cases answered
    exact OnlyGrows.refl _
  · apply checkRequest_grows _ ran
    intro req after result
    exact onTable_grows
  · cases ran
    exact OnlyGrows.refl _

theorem taskStep_grows {server next : Server δ} {index : Nat} {io : SectionIO} {task : Task}
    (ran : taskStep env server index io task = some next) : OnlyGrows server next := by
  cases task with
  | search slot req =>
      simp only [taskStep] at ran
      obtain ⟨table, found, ran⟩ := onSlot_eq_some ran
      split at ran
      · cases ran
        exact onlyGrows_of_same rfl rfl
      · obtain ⟨loaded, loadedEq, rfl⟩ := Option.map_eq_some_iff.mp ran
        have recordsGrow : table.db.records <+: loaded.db.records := by
          rw [(loadIndexOnDemand_db loadedEq).1]
        exact onlyGrows_of_table found (fun _ => DirGrows.refl _) rfl recordsGrow
  | insert slot req =>
      simp only [taskStep] at ran
      obtain ⟨table, found, ran⟩ := onSlot_eq_some ran
      obtain ⟨⟨response, file, written⟩, inserted, rfl⟩ := Option.map_eq_some_iff.mp ran
      obtain ⟨grown, sameRecords⟩ := insertLocked_grows inserted
      have recordsGrow : table.db.records <+: written.db.records := by rw [sameRecords]
      apply onlyGrows_of_table found _ rfl recordsGrow
      exact dirGrows_update (DirGrows.of_data rfl grown rfl)
  | appendPending req =>
      obtain ⟨⟨code, queue⟩, -, rfl⟩ := Option.map_eq_some_iff.mp ran
      constructor
      · apply dirGrows_update
        exact DirGrows.of_same rfl rfl
      · intro slot table found
        exact ⟨table, found, List.prefix_refl _⟩
  | markDirty dbName =>
      cases ran
      constructor
      · intro place
        exact DirGrows.refl _
      · intro slot table found
        change ∃ later, (markTablePendingDirty dbName server.openTables)[slot]? = some later ∧ _
        unfold markTablePendingDirty
        split
        · exact ⟨table, found, List.prefix_refl _⟩
        · rename_i marked _
          rw [List.getElem?_modify, found]
          refine ⟨_, rfl, ?_⟩
          dsimp only
          split
          · exact List.prefix_refl _
          · exact List.prefix_refl _
  | train slot req =>
      simp only [taskStep] at ran
      obtain ⟨table, found, ran⟩ := onSlot_eq_some ran
      split at ran
      · cases ran
        exact onlyGrows_of_same rfl rfl
      · obtain ⟨clusters, -, rfl⟩ := Option.map_eq_some_iff.mp ran
        exact onlyGrows_of_same rfl rfl
  | save slot k clusters =>
      simp only [taskStep] at ran
      obtain ⟨table, found, ran⟩ := onSlot_eq_some ran
      obtain ⟨⟨status, file⟩, -, rfl⟩ := Option.map_eq_some_iff.mp ran
      have recordsGrow : table.db.records <+:
          (if status = 0 then installIndex clusters k table else table).db.records := by
        split
        · exact List.prefix_refl _
        · exact List.prefix_refl _
      apply onlyGrows_of_table found _ rfl recordsGrow
      exact dirGrows_update (DirGrows.of_same rfl rfl)
  | done => cases ran

/-- What a run of passes that are not due asks of a step. -/
def PassNotDue (env : ServerEnv δ ν) (server : Server δ) : ServerAction → Prop
  | .autoDelete slot _ now =>
      ∀ table ∈ server.openTables[slot]?, NotDue now (server.disk (env.dirOf table.name))
  | _ => True

instance (env : ServerEnv δ ν) (server : Server δ) (action : ServerAction) :
    Decidable (PassNotDue env server action) := by
  cases action with
  | autoDelete slot io now => exact inferInstanceAs (Decidable (∀ _ ∈ _, _))
  | _ => exact isTrue trivial

theorem serverStep_grows (server : Server δ) (action : ServerAction) (next : Server δ)
    (notDue : PassNotDue env server action) (stepped : serverStep env server action = some next) :
    OnlyGrows server next := by
  cases action with
  | request headerBuffer httpBody io =>
      obtain ⟨⟨admitted, outcome⟩, ran, rfl⟩ := Option.map_eq_some_iff.mp stepped
      have grows := handelClient_grows ran
      cases outcome with
      | error response => exact grows
      | ok task => exact grows.trans (onlyGrows_of_same rfl rfl)
  | task index io =>
      simp only [serverStep] at stepped
      split at stepped
      · cases stepped
      · exact taskStep_grows stepped
  | reloadAuth authKeys =>
      cases stepped
      exact onlyGrows_of_same rfl rfl
  | merge slot =>
      simp only [serverStep] at stepped
      obtain ⟨table, found, ran⟩ := onSlot_eq_some stepped
      obtain ⟨merged, mergedEq, rfl⟩ := Option.map_eq_some_iff.mp ran
      exact onlyGrows_of_table found (fun _ => DirGrows.refl _) rfl (mergeQueue_grows mergedEq)
  | refresh slot =>
      simp only [serverStep] at stepped
      obtain ⟨table, found, ran⟩ := onSlot_eq_some stepped
      cases ran
      have recordsGrow : table.db.records <+:
          (refreshPending (server.disk (env.dirOf table.name)).pendingBin table).db.records := by
        unfold refreshPending
        split
        · exact List.prefix_refl _
        · exact List.prefix_refl _
      exact onlyGrows_of_table found (fun _ => DirGrows.refl _) rfl recordsGrow
  | autoDelete slot io now =>
      simp only [serverStep] at stepped
      obtain ⟨table, found, ran⟩ := onSlot_eq_some stepped
      rw [autoDelete_of_notDue (notDue table found)] at ran
      cases ran
      exact onlyGrows_of_table found (dirGrows_update (DirGrows.refl _)) rfl
        (List.prefix_refl _)
  | removeIndex slot removed =>
      simp only [serverStep] at stepped
      split at stepped
      · obtain ⟨table, found, ran⟩ := onSlot_eq_some stepped
        cases ran
        exact onlyGrows_of_table found (dirGrows_update (DirGrows.of_same rfl rfl)) rfl
          (List.prefix_refl _)
      · cases stepped

/-! ### Whole runs -/

/-- Requests on any routes, with any headers and bodies, their sections in any
order between those of the worker: as long as no schedule is due, nothing is deleted. -/
theorem network_never_deletes (env : ServerEnv δ ν) (server : Server δ)
    (actions : List ServerAction)
    (notDue : GuardedRun.Admits (serverStep env) (PassNotDue env) server actions) :
    GuardedRun.Throughout (serverStep env) (NothingDeleted server) server actions := by
  have stepKeeps : ∀ (state : Server δ) (action : ServerAction) (next : Server δ),
      OnlyGrows server state → PassNotDue env state action →
      serverStep env state action = some next → OnlyGrows server next := by
    intro state action next sofar passes stepped
    exact sofar.trans (serverStep_grows state action next passes stepped)
  have gives : ∀ state : Server δ, OnlyGrows server state → NothingDeleted server state := by
    intro state
    exact OnlyGrows.nothingDeleted
  exact GuardedRun.throughout_of_step stepKeeps gives (OnlyGrows.refl server) notDue

end Safety

/-! ### A run -/

def insertBody : Json UInt64 :=
  .object
    [(⟨asciiBytes "db_name", by decide +kernel⟩, .string moviesName),
      (⟨asciiBytes "id", by decide +kernel⟩, .number 9 9),
      (⟨asciiBytes "vector", by decide +kernel⟩, .array [.number 1 1065353216])]

/-- Numbers are the bits of their floats, and every body is the same insert. -/
def insertEnv : ServerEnv CString UInt64 where
  dirOf := id
  cJSONParse := fun _ => some insertBody
  casts :=
    { toUint32 := UInt64.toUInt32
      toUint64 := id
      toFloat := UInt64.toUInt32 }
  floats := oneRecordOps

def headerOf (route : String) : List UInt8 :=
  asciiBytes ("POST " ++ route ++ " HTTP/1.1 Authorization: Bearer k")

def insertHeader : CString := ⟨headerOf "/insert", by decide +kernel⟩

def deleteHeader : CString := ⟨headerOf "/delete-request", by decide +kernel⟩

/-- A stored table whose schedule lies in the future. -/
def scheduledServer : Server CString where
  disk := fun _ => { sampleDir with autoDeleteSchedule := some (setAutoDeleteSchedule 9) }
  authCache := [⟨moviesName.bytes, asciiBytes "k", by decide, by decide +kernel⟩]
  openTables := []
  appendLocked := false
  tasks := []
  removals := []

def sectionOk (timestamp : UInt64) : SectionIO where
  write := .ok
  opens := true
  timestamp := timestamp
  save := .ok
  rand := fun _ => 0

/-- An insert and a delete request, with a pass of the worker after each. -/
def deleteRequestRun : List ServerAction :=
  [.request insertHeader insertHeader .ok, .task 0 (sectionOk 3), .merge 0,
    .autoDelete 0 .ok 4, .request deleteHeader insertHeader .ok, .task 1 (sectionOk 5),
    .task 1 (sectionOk 6), .merge 0, .refresh 0, .autoDelete 0 .ok 7]

theorem delete_request_deletes_nothing :
    (GuardedRun.run (serverStep insertEnv) scheduledServer deleteRequestRun).isSome = true ∧
      GuardedRun.Throughout (serverStep insertEnv) (NothingDeleted scheduledServer)
        scheduledServer deleteRequestRun := by
  constructor
  · decide +kernel
  · exact network_never_deletes insertEnv scheduledServer deleteRequestRun (by decide +kernel)

end OriginDb
