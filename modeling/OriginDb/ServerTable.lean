/-
One open table of the server and the critical sections that touch it.

An `/insert` handler appends to the data file and to the insert queue under the
table's write lock; the sync worker merges the queue into the record array,
reloads the pending list and runs the scheduled deletes, each under a lock of
its own.  Every definition here is the body of one such critical section.
-/

import OriginDb.Kmeans

namespace OriginDb

/-- `pending_insert_t`. -/
structure PendingInsert where
  id : UInt64
  vector : VectorRef
  metadata : Option CString
  byteOffset : UInt64
deriving DecidableEq

/-- `open_table_t`.  The queue's array doubles as it fills. -/
structure OpenTable where
  name : CString
  db : FlatDb
  pendingDeleteDirty : Bool
  insertQueue : List PendingInsert
  ivfIndex : Option (List Cluster)
  ivfK : UInt64
  indexLoaded : Bool
deriving DecidableEq

/-- `insert_req_t`; `dimension` is the length of the vector, which the size
limit of a request body keeps far below the range of an `int`. -/
structure InsertReq where
  dbName : CString
  id : UInt32
  vector : List UInt32
  bounded : vector.length < 2 ^ 31
  metadata : Option CString
deriving DecidableEq

def InsertReq.dimension (req : InsertReq) : UInt64 := UInt64.ofNat req.vector.length

/-- `Client_error`. -/
inductive ClientError where
  | invalidParameter
  | unauthorizedAccess
  | wrongRequest
  | internalError
deriving DecidableEq

/-- What a handler answers: success, or an error code with its details. -/
inductive Response where
  | success (message : String)
  | error (code : ClientError) (details : String)
deriving DecidableEq

/-! ### The `/insert` handler under the table's write lock -/

/-- The entry that the handler queues and the worker later stores. -/
def PendingInsert.toRecord (entry : PendingInsert) : Record where
  id := entry.id
  vector := entry.vector
  metadata := entry.metadata
  isDeleted := false
  byteOffset := entry.byteOffset
  isMmap := false

def insertLocked (io : WriteIO) (data : List UInt8) (table : OpenTable) (req : InsertReq) :
    Option (Response × List UInt8 × OpenTable) :=
  if table.db.dimension ≠ req.dimension then
    some (.error .invalidParameter "Vector dimension does not match table configuration.",
      data, table)
  else
    let (offset, sought) := storageCurrentOffset data table.db.storage
    let entry : PendingInsert :=
      { id := req.id.toUInt64
        vector := .heap req.vector
        metadata := req.metadata
        byteOffset := offset }
    match storageWriteRecord io data sought entry.toRecord table.db.dimension with
    | none => none
    | some (code, file, storage) =>
        let written := { table with db := { table.db with storage := storage } }
        if code < 0 then
          some (.error .internalError "Failed to write record to disk.", file, written)
        else
          some (.success "Vector inserted successfully.", file,
            { written with insertQueue := table.insertQueue ++ [entry] })

/-! ### The worker's steps -/

/-- `while (new_cap < needed) new_cap *= 2`.  After 64 doublings the capacity has
become 0 and the loop does not end. -/
def growCapacity (needed : UInt64) : Nat → UInt64 → Option UInt64
  | 0, _ => none
  | fuel + 1, capacity =>
      if capacity < needed then growCapacity needed fuel (capacity * 2) else some capacity

/-- The growth of the record array before `n` records are merged. -/
def growForMerge (db : FlatDb) (n : UInt64) : Option FlatDb :=
  let needed := UInt64.ofNat db.records.length + n
  if db.capacity < needed then
    (growCapacity needed 65 db.capacity).map fun capacity =>
      { db with
        capacity := capacity
        recordsBytes := sizeofRecord * capacity }
  else some db

/-- The table once the queue has been copied behind the records of `grown`. -/
def mergedTable (data : List UInt8) (table : OpenTable) (grown : FlatDb) : OpenTable :=
  { table with
    db :=
      { grown with
        records := grown.records ++ table.insertQueue.map PendingInsert.toRecord
        storage := (storageRemap data grown.storage).2 }
    insertQueue := [] }

/-- The merge of the insert queue.  `none` is a store outside the record array,
or a growth loop that does not end. -/
def mergeQueue (data : List UInt8) (table : OpenTable) : Option OpenTable :=
  if table.insertQueue = [] then some table
  else
    match growForMerge table.db (UInt64.ofNat table.insertQueue.length) with
    | none => none
    | some grown =>
        if hasRoom grown.recordsBytes (grown.records.length + table.insertQueue.length) then
          some (mergedTable data table grown)
        else none

/-- The reload of the pending list, when a request has marked it dirty. -/
def refreshPending (pendingBin : Option (List UInt8)) (table : OpenTable) : OpenTable :=
  if table.pendingDeleteDirty then
    let (fresh, newCount) := loadPendingDeletes pendingBin
    { table with
      db :=
        { table.db with
          pendingDeletes := fresh
          pendingCount := newCount }
      pendingDeleteDirty := false }
  else table

/-- `check_and_run_auto_delete` on the open table. -/
def autoDelete (io : ExecuteIO) (now : UInt64) (dir : TableDir) (table : OpenTable) :
    Option (Int × TableDir × OpenTable) :=
  (checkAndRunAutoDelete io now dir table.db).map fun (compacted, after, db) =>
    (compacted, after, { table with db := db })

def clearCachedIndex (table : OpenTable) : OpenTable :=
  { table with
    ivfIndex := none
    ivfK := 0
    indexLoaded := false }

/-- The slot `get_or_open_table` fills for a table that has just been opened. -/
def newSlot (name : CString) (db : FlatDb) : OpenTable where
  name := name
  db := db
  pendingDeleteDirty := false
  insertQueue := []
  ivfIndex := none
  ivfK := 0
  indexLoaded := false

end OriginDb
