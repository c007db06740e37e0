/-
What a step of the server can do.

A request is refused, queued for deletion, or looks for its table; a section of
a handler is followed by one of a few others.  The lemmas here say this once,
with the name and the key of the request, and what is proved about runs is
proved by going through their cases.
-/

import OriginDb.Server

namespace OriginDb

open Foundation

/-- The table that a request names, if it is read. -/
def requestedName {δ ν : Type} (env : ServerEnv δ ν) (headerBuffer httpBody : CString) :
    Option CString :=
  let json := env.cJSONParse httpBody
  match routeOf headerBuffer with
  | .search => (json.bind (parseSearchRequest env.casts)).map SearchReq.dbName
  | .insert => (json.bind (parseInsertRequest env.casts)).map InsertReq.dbName
  | .deleteRequest => (json.bind (parseDeleteRequest env.casts)).map DeleteReq.dbName
  | .train => (json.bind (parseTrainRequest env.casts)).map TrainReq.dbName
  | .invalid => none

/-- A handler's next section is on a slot, for a request that names its table. -/
inductive TaskOn (slot : Nat) : CString → Task → Prop where
  | search (req : SearchReq) : TaskOn slot req.dbName (.search slot req)
  | insert (req : InsertReq) : TaskOn slot req.dbName (.insert slot req)
  | train (req : TrainReq) : TaskOn slot req.dbName (.train slot req)

/-- What a handler may have to do after one of its sections. -/
inductive Task.FollowedBy : Task → Task → Prop where
  | finished (task : Task) : task.FollowedBy .done
  | queued (req : DeleteReq) : FollowedBy (.appendPending req) (.markDirty req.dbName)
  | trained (slot : Nat) (req : TrainReq) (clusters : List Cluster) :
      FollowedBy (.train slot req) (.save slot req.k clusters)

/-- The steps of the sync worker. -/
def ServerAction.ofWorker : ServerAction → Bool
  | .request _ _ _ | .task _ _ => false
  | _ => true

/-! ### Opening a table -/

/-- `db_open` only creates the data file. -/
theorem dbOpen_dir {fuel : Nat} {name : CString} {dir dir' : TableDir} {db : Option FlatDb}
    (opened : dbOpen fuel name dir = some (dir', db)) :
    dir'.metaBin = dir.metaBin ∧ dir'.dataDb.getD [] = dir.dataDb.getD [] := by
  unfold dbOpen at opened
  split at opened
  · rename_i valid
    cases stored : dir.metaBin with
    | none =>
        rw [stored] at opened
        cases opened
        exact ⟨stored, rfl⟩
    | some file =>
        rw [stored] at opened
        dsimp only at opened
        split at opened
        · cases opened
          exact ⟨stored, rfl⟩
        · unfold dbInit at opened
          rw [if_pos valid] at opened
          obtain ⟨loaded, -, shape⟩ := Option.map_eq_some_iff.mp opened
          cases shape
          dsimp only
          rw [stored]
          exact ⟨rfl, rfl⟩
  · cases opened
    exact ⟨rfl, rfl⟩

theorem dbOpen_empty {fuel : Nat} {name : CString} {dir dir' : TableDir} {db : FlatDb}
    (opened : dbOpen fuel name dir = some (dir', some db)) : db.records = [] := by
  unfold dbOpen at opened
  split at opened
  · rename_i valid
    split at opened
    · cases opened
    · split at opened
      · cases opened
      · cases fuel with
        | zero =>
            unfold dbInit at opened
            rw [if_pos valid] at opened
            cases opened
        | succ fuel =>
            rename_i file _ _
            obtain ⟨loaded, openedEq, noRecords, -⟩ := dbInit_eq (u64At file 0) fuel name 10
              (u32At file 8) dir valid
            rw [openedEq] at opened
            cases opened
            exact noRecords
  · cases opened

theorem dbOpenWith_dir {io : OpenIO} {fuel : Nat} {name : CString} {dir dir' : TableDir}
    {db : Option FlatDb} (opened : dbOpenWith io fuel name dir = some (dir', db)) :
    dir'.metaBin = dir.metaBin ∧ dir'.dataDb.getD [] = dir.dataDb.getD [] := by
  cases io with
  | ok => exact dbOpen_dir opened
  | failed touched =>
      simp only [dbOpenWith] at opened
      split at opened
      · cases opened
        exact ⟨rfl, rfl⟩
      · cases opened
        exact ⟨rfl, rfl⟩

section Steps

variable {δ ν : Type} [DecidableEq δ] {env : ServerEnv δ ν} {server next : Server δ}

/-- The server with one more open table. -/
def Server.withTable (server : Server δ) (place : δ) (dir : TableDir) (table : OpenTable) :
    Server δ :=
  { server.setDir place dir with openTables := server.openTables ++ [table] }

/-- What `get_or_open_table` can do. -/
inductive Opening (env : ServerEnv δ ν) (server : Server δ) (dbName : CString) :
    Server δ → Option Nat → Prop where
  | found (slot : Nat) (table : OpenTable) (atSlot : server.openTables[slot]? = some table)
      (named : table.name = dbName) : Opening env server dbName server (some slot)
  | refused : Opening env server dbName server none
  | failed (dir : TableDir)
      (metaBin : dir.metaBin = (server.disk (env.dirOf dbName)).metaBin)
      (data : dir.dataDb.getD [] = (server.disk (env.dirOf dbName)).dataDb.getD []) :
      Opening env server dbName (server.setDir (env.dirOf dbName) dir) none
  | opened (fuel : Nat) (dir : TableDir) (db : FlatDb)
      (new : ∀ table ∈ server.openTables, table.name ≠ dbName)
      (room : server.openTables.length < maxOpenTables)
      (opens : dbOpen fuel dbName (server.disk (env.dirOf dbName)) = some (dir, some db)) :
      Opening env server dbName
        (server.withTable (env.dirOf dbName) dir (newSlot dbName db))
        (some server.openTables.length)

theorem getOrOpenTable_cases {io : OpenIO} {dbName : CString} {slot : Option Nat}
    (ran : getOrOpenTable env io server dbName = some (next, slot)) :
    Opening env server dbName next slot := by
  unfold getOrOpenTable at ran
  split at ran
  · rename_i found foundAt
    cases ran
    obtain ⟨inside, named, -⟩ := List.findIdx?_eq_some_iff_getElem.mp foundAt
    exact .found found _ (List.getElem?_eq_getElem inside) (beq_iff_eq.mp named)
  · rename_i absent
    split at ran
    · cases ran
      exact .refused
    · rename_i room
      dsimp only at ran
      split at ran
      · cases ran
      · rename_i dir failed
        cases ran
        obtain ⟨metaBin, data⟩ := dbOpenWith_dir failed
        exact .failed dir metaBin data
      · rename_i dir db opens
        cases ran
        have new : ∀ table ∈ server.openTables, table.name ≠ dbName := by
          intro table member
          exact ne_of_beq_false (List.findIdx?_eq_none_iff.mp absent table member)
        cases io with
        | ok => exact .opened _ dir db new (Nat.lt_of_not_le room) opens
        | failed touched =>
            simp only [dbOpenWith] at opens
            split at opens
            · cases opens
            · cases opens

/-! ### Reading a request -/

/-- What `handel_client` can do up to its first section. -/
inductive Handled (env : ServerEnv δ ν) (server : Server δ) (headerBuffer httpBody : CString) :
    Server δ → Except Response Task → Prop where
  | refused (response : Response) :
      Handled env server headerBuffer httpBody server (.error response)
  | queued (req : DeleteReq)
      (named : requestedName env headerBuffer httpBody = some req.dbName)
      (accepted : authenticateRequest server.authCache headerBuffer req.dbName = true) :
      Handled env server headerBuffer httpBody server (.ok (.appendPending req))
  | notFound (name : CString) (response : Response)
      (named : requestedName env headerBuffer httpBody = some name)
      (accepted : authenticateRequest server.authCache headerBuffer name = true)
      {after : Server δ} (opening : Opening env server name after none) :
      Handled env server headerBuffer httpBody after (.error response)
  | found (name : CString) (slot : Nat) (task : Task)
      (named : requestedName env headerBuffer httpBody = some name)
      (accepted : authenticateRequest server.authCache headerBuffer name = true)
      {after : Server δ} (opening : Opening env server name after (some slot))
      (isTask : TaskOn slot name task) :
      Handled env server headerBuffer httpBody after (.ok task)

theorem checkRequest_handled {req : Type} {headerBuffer httpBody : CString} {parsed : Option req}
    {dbName : req → CString} {unauthorized : String}
    {continue_ : Server δ → req → Option (Server δ × Except Response Task)}
    {outcome : Except Response Task}
    (continues : ∀ req, parsed = some req →
      authenticateRequest server.authCache headerBuffer (dbName req) = true →
      continue_ server req = some (next, outcome) →
      Handled env server headerBuffer httpBody next outcome)
    (ran : checkRequest server headerBuffer parsed dbName unauthorized continue_ =
      some (next, outcome)) : Handled env server headerBuffer httpBody next outcome := by
  unfold checkRequest at ran
  split at ran
  · cases ran
    exact .refused _
  · rename_i req
    split at ran
    · rename_i accepted
      exact continues req rfl accepted ran
    · cases ran
      exact .refused _

theorem onTable_handled {io : OpenIO} {headerBuffer httpBody dbName : CString}
    {notFound : String} {task : Nat → Task} {outcome : Except Response Task}
    (named : requestedName env headerBuffer httpBody = some dbName)
    (accepted : authenticateRequest server.authCache headerBuffer dbName = true)
    (isTask : ∀ slot, TaskOn slot dbName (task slot))
    (ran : onTable env io server dbName notFound task = some (next, outcome)) :
    Handled env server headerBuffer httpBody next outcome := by
  obtain ⟨⟨opened, slot⟩, openedEq, shape⟩ := Option.map_eq_some_iff.mp ran
  have opening := getOrOpenTable_cases openedEq
  cases slot with
  | none =>
      cases shape
      exact .notFound dbName _ named accepted opening
  | some slot =>
      cases shape
      exact .found dbName slot _ named accepted opening (isTask slot)

theorem handelClient_cases {io : OpenIO} {headerBuffer httpBody : CString}
    {outcome : Except Response Task}
    (ran : handelClient env io server headerBuffer httpBody = some (next, outcome)) :
    Handled env server headerBuffer httpBody next outcome := by
  unfold handelClient at ran
  dsimp only at ran
  cases route : routeOf headerBuffer with
  | search =>
      rw [route] at ran
      apply checkRequest_handled _ ran
      intro req parsed accepted
      have named : requestedName env headerBuffer httpBody = some req.dbName := by
        simp only [requestedName, route, parsed, Option.map_some]
      exact onTable_handled named accepted fun _ => .search req
  | insert =>
      rw [route] at ran
      apply checkRequest_handled _ ran
      intro req parsed accepted
      have named : requestedName env headerBuffer httpBody = some req.dbName := by
        simp only [requestedName, route, parsed, Option.map_some]
      exact onTable_handled named accepted fun _ => .insert req
  | deleteRequest =>
      rw [route] at ran
      apply checkRequest_handled _ ran
      intro req parsed accepted answered
      have named : requestedName env headerBuffer httpBody = some req.dbName := by
        simp only [requestedName, route, parsed, Option.map_some]
      cases answered
      exact .queued req named accepted
  | train =>
      rw [route] at ran
      apply checkRequest_handled _ ran
      intro req parsed accepted
      have named : requestedName env headerBuffer httpBody = some req.dbName := by
        simp only [requestedName, route, parsed, Option.map_some]
      exact onTable_handled named accepted fun _ => .train req
  | invalid =>
      rw [route] at ran
      cases ran
      exact .refused _

end Steps

end OriginDb
