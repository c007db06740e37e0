/-
Inserts whose writes may fail.

A failed `storage_write_record` leaves a prefix of the record at the end of the
data file, and nothing takes it away again: the next record is appended behind
it.  A scan reads exactly the acknowledged inserts as long as nothing has been
appended behind such a torn record.
-/

import OriginDb.Foundation.GuardedRun
import OriginDb.ServerTable
import OriginDb.TableRefinement

namespace OriginDb

open Foundation

variable {dimension : UInt64}

/-- One insert, through the library call or through the server's handler, with
the outcome of its writes. -/
inductive InsertAttempt (dimension : UInt64) where
  | library (io : WriteIO) (id : UInt32)
      (vector : { values : List UInt32 // values.length = dimension.toNat })
      (metadata : Option CString)
  | server (io : WriteIO) (req : InsertReq)

def Response.isSuccess : Response → Bool
  | .success _ => true
  | .error _ _ => false

/-- The table, the entries made in memory for the acknowledged inserts, and the
number of bytes that failed writes have left in the file. -/
structure InsertRun where
  data : List UInt8
  table : OpenTable
  acknowledged : List Record
  tornBytes : Nat

def attemptStep (state : InsertRun) : InsertAttempt dimension → Option InsertRun
  | .library io id vector metadata =>
      (dbInsert io state.data state.table.db id vector.val metadata).map fun (code, file, db) =>
        if code = 0 then
          { state with
            data := file
            table := { state.table with db := db }
            acknowledged := state.acknowledged ++ db.records.getLast?.toList }
        else
          { state with
            data := file
            table := { state.table with db := db }
            tornBytes := state.tornBytes + (file.length - state.data.length) }
  | .server io req =>
      (insertLocked io state.data state.table req).map fun (response, file, table) =>
        if response.isSuccess then
          { state with
            data := file
            table := table
            acknowledged := state.acknowledged ++
              (table.insertQueue.getLast?.map PendingInsert.toRecord).toList }
        else
          { state with
            data := file
            table := table
            tornBytes := state.tornBytes + (file.length - state.data.length) }

/-- A scan yields exactly the acknowledged inserts, in order, at the offsets
recorded in memory, where they all are. -/
structure ScansAcknowledged (dimension : UInt64) (state : InsertRun) : Prop where
  inMemory : state.acknowledged.Perm
    (state.table.db.records ++ state.table.insertQueue.map PendingInsert.toRecord)
  onDisk : ∃ stored : List (StoredRecord dimension),
    List.Forall₂ (fun record stored =>
        record.contents state.data state.table.db.storage dimension = some stored)
      state.acknowledged stored ∧
    ScanFinds state.data stored (state.acknowledged.map Record.byteOffset)

/-- A write that can be made without harm: it succeeds on a file without torn
bytes, or fails there before its last byte, or leaves no byte at all. -/
def WriteSafe (state : InsertRun) (io : WriteIO) (stored : StoredRecord dimension) : Prop :=
  match io with
  | .ok => state.tornBytes = 0 ∧ (state.data ++ stored.encode).length < 2 ^ 63
  | .failed appended =>
      appended = 0 ∨
        (state.tornBytes = 0 ∧ appended < stored.encode.length ∧
          (state.data ++ stored.encode).length < 2 ^ 63)

/-- The record that the server's handler writes for a request of the table's
dimension. -/
def requestedRecord (req : InsertReq) (lengthEq : req.vector.length = dimension.toNat) :
    StoredRecord dimension :=
  insertedRecord req.id.toUInt64 req.vector lengthEq req.metadata

def AttemptSafe (state : InsertRun) : InsertAttempt dimension → Prop
  | .library io id vector metadata =>
      RoomForInsert state.table.db ∧
        WriteSafe state io
          (insertedRecord id.toUInt64 vector.val (vector_length_of_subtype vector) metadata)
  | .server io req =>
      ∀ lengthEq : req.vector.length = dimension.toNat,
        WriteSafe state io (requestedRecord req lengthEq)

instance (state : InsertRun) (io : WriteIO) (stored : StoredRecord dimension) :
    Decidable (WriteSafe state io stored) :=
  match io with
  | .ok => inferInstanceAs (Decidable (_ ∧ _))
  | .failed _ => inferInstanceAs (Decidable (_ ∨ _))

instance (state : InsertRun) (attempt : InsertAttempt dimension) :
    Decidable (AttemptSafe state attempt) :=
  match attempt with
  | .library _ _ _ _ => inferInstanceAs (Decidable (_ = _ ∧ _))
  | .server _ req =>
      inferInstanceAs (Decidable (∀ lengthEq : req.vector.length = dimension.toNat,
        WriteSafe state _ (requestedRecord req lengthEq)))

/-! ### The invariant -/

/-- What a failed write may have left behind the whole records. -/
def TornTail (stored : List (StoredRecord dimension)) (tail : List UInt8) : Prop :=
  tail = [] ∨ ∃ torn : StoredRecord dimension, ∃ kept, kept < torn.encode.length ∧
    tail = torn.encode.take kept ∧
    ((recordCodec dimension).encodeAll stored ++ torn.encode).length < 2 ^ 63

structure InsertInvariant (dimension : UInt64) (state : InsertRun) : Prop where
  dimensionEq : state.table.db.dimension = dimension
  stream : state.table.db.storage.fp ≠ none
  small : state.data.length < 2 ^ 63
  inMemory : state.acknowledged.Perm
    (state.table.db.records ++ state.table.insertQueue.map PendingInsert.toRecord)
  onDisk : ∃ (stored : List (StoredRecord dimension)) (tail : List UInt8),
    state.data = (recordCodec dimension).encodeAll stored ++ tail ∧
    state.tornBytes = tail.length ∧ TornTail stored tail ∧
    (recordCodec dimension).Tracks (Holds state.table.db.storage) 0 stored state.acknowledged

theorem scan_of_tornTail {stored : List (StoredRecord dimension)} {tail : List UInt8}
    (torn : TornTail stored tail)
    (small : ((recordCodec dimension).encodeAll stored ++ tail).length < 2 ^ 63) (fuel : Nat)
    (enough : stored.length < fuel) :
    (recordCodec dimension).scan ((recordCodec dimension).encodeAll stored ++ tail) fuel 0 =
      some ((recordCodec dimension).entries 0 stored) := by
  rcases torn with rfl | ⟨record, kept, cut, rfl, whole⟩
  · rw [List.append_nil] at small ⊢
    exact (recordCodec dimension).scan_encodeAll stored fuel small enough
  · exact (recordCodec dimension).scan_torn stored record kept fuel cut whole enough

theorem InsertInvariant.scansAcknowledged {state : InsertRun}
    (invariant : InsertInvariant dimension state) : ScansAcknowledged dimension state := by
  rcases invariant.onDisk with ⟨stored, tail, dataEq, -, torn, tracks⟩
  have small := invariant.small
  refine ⟨invariant.inMemory, stored, ?_, ?_⟩
  · have found := contents_of_tracks [] tail stored rfl tracks
    rw [List.nil_append, ← dataEq] at found
    exact found
  · apply scanFinds_of_scan dataEq small _ (tracks.imp fun _ _ _ holds => holds.1)
    intro fuel enough
    rw [dataEq] at small ⊢
    exact scan_of_tornTail torn small fuel enough

/-! ### One attempt -/

/-- A table in memory after a write: only the stream has moved. -/
structure SameHandle (before after : FlatDb) : Prop where
  dimensionEq : after.dimension = before.dimension
  stream : after.storage.fp ≠ none
  mapping : after.storage.mmapData = before.storage.mmapData
  size : after.storage.fileSize = before.storage.fileSize

theorem InsertInvariant.append {state : InsertRun} (invariant : InsertInvariant dimension state)
    (stored : StoredRecord dimension) (table : OpenTable) (noTorn : state.tornBytes = 0)
    (small : (state.data ++ stored.encode).length < 2 ^ 63)
    (same : SameHandle state.table.db table.db)
    (inMemory : (state.acknowledged ++ [stored.onHeap state.data.length]).Perm
      (table.db.records ++ table.insertQueue.map PendingInsert.toRecord)) :
    InsertInvariant dimension
      { state with
        data := state.data ++ stored.encode
        table := table
        acknowledged := state.acknowledged ++ [stored.onHeap state.data.length] } := by
  rcases invariant.onDisk with ⟨earlier, tail, dataEq, tornEq, -, tracks⟩
  have noTail : tail = [] := List.eq_nil_of_length_eq_zero (tornEq.symm.trans noTorn)
  rw [noTail, List.append_nil] at dataEq
  refine ⟨same.dimensionEq.trans invariant.dimensionEq, same.stream, small, inMemory,
    earlier ++ [stored], [], ?_, noTorn, Or.inl rfl, ?_⟩
  · rw [FramedLog.Codec.encodeAll_append, ← dataEq, List.append_nil]
    simp only [FramedLog.Codec.encodeAll_cons, FramedLog.Codec.encodeAll_nil, List.append_nil]
    rfl
  · have before := tracks_of_same_mapping table.db.storage same.mapping same.size tracks
    refine (FramedLog.Codec.tracks_append_iff before.length_eq).mpr ⟨before, ?_, trivial⟩
    rw [Nat.zero_add, ← dataEq]
    exact stored.holds_onHeap _ _ (by rw [List.length_append] at small; omega)

theorem InsertInvariant.failed {state : InsertRun} (invariant : InsertInvariant dimension state)
    (stored : StoredRecord dimension) (appended : Nat) (table : OpenTable)
    (safe : WriteSafe state (.failed appended) stored)
    (same : SameHandle state.table.db table.db)
    (sameRecords : table.db.records = state.table.db.records)
    (sameQueue : table.insertQueue = state.table.insertQueue) :
    InsertInvariant dimension
      { state with
        data := state.data ++ stored.encode.take appended
        table := table
        tornBytes := state.tornBytes +
          ((state.data ++ stored.encode.take appended).length - state.data.length) } := by
  rcases invariant.onDisk with ⟨earlier, tail, dataEq, tornEq, torn, tracks⟩
  have added : (state.data ++ stored.encode.take appended).length - state.data.length =
      (stored.encode.take appended).length := by
    rw [List.length_append, Nat.add_sub_cancel_left]
  have inMemory := invariant.inMemory
  rw [← sameRecords, ← sameQueue] at inMemory
  have tracksNext := tracks_of_same_mapping table.db.storage same.mapping same.size tracks
  rcases safe with rfl | ⟨noTorn, cut, whole⟩
  · have smallNext : (state.data ++ stored.encode.take 0).length < 2 ^ 63 := by
      rw [List.take_zero, List.append_nil]
      exact invariant.small
    refine ⟨same.dimensionEq.trans invariant.dimensionEq, same.stream, smallNext, inMemory,
      earlier, tail, ?_, ?_, torn, tracksNext⟩
    · rw [List.take_zero, List.append_nil]
      exact dataEq
    · rw [added, List.take_zero, List.length_nil, Nat.add_zero]
      exact tornEq
  · have noTail : tail = [] := List.eq_nil_of_length_eq_zero (tornEq.symm.trans noTorn)
    rw [noTail, List.append_nil] at dataEq
    have smallNext : (state.data ++ stored.encode.take appended).length < 2 ^ 63 := by
      simp only [List.length_append, List.length_take] at whole ⊢
      omega
    refine ⟨same.dimensionEq.trans invariant.dimensionEq, same.stream, smallNext, inMemory,
      earlier, stored.encode.take appended, ?_, ?_, Or.inr ⟨stored, appended, cut, rfl, ?_⟩,
      tracksNext⟩
    · rw [← dataEq]
    · rw [added, noTorn, Nat.zero_add]
    · rw [← dataEq]
      exact whole

/-- The queue entry for a request whose record was written at `offset`. -/
def InsertReq.pending (req : InsertReq) (offset : Nat) : PendingInsert where
  id := req.id.toUInt64
  vector := .heap req.vector
  metadata := req.metadata
  byteOffset := UInt64.ofNat offset

/-- The open table after a handler has left `file` as the data file and `queued`
at the end of the insert queue. -/
def OpenTable.wrote (table : OpenTable) (file : List UInt8) (queued : List PendingInsert) :
    OpenTable :=
  { table with
    db := { table.db with storage := { table.db.storage with fp := some file.length } }
    insertQueue := table.insertQueue ++ queued }

theorem OpenTable.wrote_sameHandle (table : OpenTable) (file : List UInt8)
    (queued : List PendingInsert) : SameHandle table.db (table.wrote file queued).db := by
  refine ⟨rfl, ?_, rfl, rfl⟩
  intro closed
  cases closed

theorem requestedRecord_onHeap (req : InsertReq)
    (lengthEq : req.vector.length = dimension.toNat) (offset : Nat) :
    (requestedRecord req lengthEq).onHeap offset = (req.pending offset).toRecord := rfl

theorem insertLocked_eq (io : WriteIO) (data : List UInt8) (table : OpenTable) (req : InsertReq)
    (stream : table.db.storage.fp ≠ none) (dimensionEq : table.db.dimension = dimension)
    (lengthEq : req.vector.length = dimension.toNat) :
    let stored := requestedRecord req lengthEq
    insertLocked io data table req =
      match io with
      | .ok => some (.success "Vector inserted successfully.", data ++ stored.encode,
          table.wrote (data ++ stored.encode) [req.pending data.length])
      | .failed appended => some (.error .internalError "Failed to write record to disk.",
          data ++ stored.encode.take appended,
          table.wrote (data ++ stored.encode.take appended) []) := by
  intro stored
  subst dimensionEq
  obtain ⟨position, streamEq⟩ := Option.ne_none_iff_exists'.mp stream
  have sameDimension : ¬table.db.dimension ≠ req.dimension := by
    rw [not_not, InsertReq.dimension, lengthEq, UInt64.ofNat_toNat]
  have offsetEq : storageCurrentOffset data table.db.storage =
      (UInt64.ofNat data.length, { table.db.storage with fp := some data.length }) := by
    simp only [storageCurrentOffset, streamEq]
  have written := storageWriteRecord_onHeap io data
    { table.db.storage with fp := some data.length } stored data.length data.length rfl
  rw [requestedRecord_onHeap] at written
  have unchanged : ∀ file : List UInt8,
      { table with
        db := { table.db with storage := { table.db.storage with fp := some file.length } } } =
        table.wrote file [] := by
    intro file
    simp only [OpenTable.wrote, List.append_nil]
  unfold insertLocked
  rw [if_neg sameDimension, offsetEq]
  dsimp only [InsertReq.pending] at written ⊢
  rw [written]
  cases io with
  | ok => rfl
  | failed appended =>
      simp only [← unchanged]
      rfl

/-- The server refuses a vector of another length without touching the table. -/
theorem insertLocked_refused (io : WriteIO) (data : List UInt8) (table : OpenTable)
    (req : InsertReq) (dimensionEq : table.db.dimension = dimension)
    (mismatch : req.vector.length ≠ dimension.toNat) :
    insertLocked io data table req =
      some (.error .invalidParameter "Vector dimension does not match table configuration.",
        data, table) := by
  have different : table.db.dimension ≠ req.dimension := by
    intro same
    apply mismatch
    rw [← dimensionEq, same, InsertReq.dimension, UInt64.toNat_ofNat']
    have bounded := req.bounded
    omega
  simp only [insertLocked, if_pos different]

private theorem perm_append_middle {α : Type} {all first second : List α} (item : α)
    (perm : all.Perm (first ++ second)) :
    (all ++ [item]).Perm (first ++ [item] ++ second) := by
  apply (perm.append_right [item]).trans
  rw [List.append_assoc, List.append_assoc]
  exact List.Perm.append_left first List.perm_append_comm

theorem attemptStep_library (state : InsertRun) (io : WriteIO) (id : UInt32)
    (vector : { values : List UInt32 // values.length = dimension.toNat })
    (metadata : Option CString) (invariant : InsertInvariant dimension state)
    (safe : AttemptSafe state (.library io id vector metadata)) :
    ∃ next, attemptStep state (.library io id vector metadata) = some next ∧
      InsertInvariant dimension next := by
  rcases safe with ⟨room, writeSafe⟩
  let stored := insertedRecord id.toUInt64 vector.val vector.property metadata
  have called := dbInsert_eq io state.data state.table.db id vector.val vector.property
    metadata invariant.dimensionEq invariant.stream room
  have same : ∀ file added, SameHandle state.table.db (appendedTable state.table.db file added) :=
    fun file added => ⟨growForInsert_dimension _, nofun, rfl, rfl⟩
  cases io with
  | ok =>
      rcases writeSafe with ⟨noTorn, small⟩
      let table := { state.table with
        db := appendedTable state.table.db (state.data ++ stored.encode)
          [stored.onHeap state.data.length] }
      have kept := invariant.append stored table noTorn small (same _ _)
        (perm_append_middle _ invariant.inMemory)
      have last : table.db.records.getLast?.toList = [stored.onHeap state.data.length] := by
        simp only [table, appendedTable, List.getLast?_append, List.getLast?_singleton,
          Option.some_or, Option.toList_some]
      rw [← last] at kept
      refine ⟨_, ?_, kept⟩
      simp only [attemptStep, called, Option.map_some]
      rfl
  | failed appended =>
      let table := { state.table with
        db := appendedTable state.table.db (state.data ++ stored.encode.take appended) [] }
      have kept := invariant.failed stored appended table writeSafe (same _ _)
        (List.append_nil _) rfl
      refine ⟨_, ?_, kept⟩
      simp only [attemptStep, called, Option.map_some]
      rfl

theorem attemptStep_server (state : InsertRun) (io : WriteIO) (req : InsertReq)
    (invariant : InsertInvariant dimension state)
    (safe : AttemptSafe state (.server io req : InsertAttempt dimension)) :
    ∃ next, attemptStep state (.server io req : InsertAttempt dimension) = some next ∧
      InsertInvariant dimension next := by
  by_cases lengthEq : req.vector.length = dimension.toNat
  · have writeSafe := safe lengthEq
    let stored := requestedRecord req lengthEq
    have called := insertLocked_eq io state.data state.table req invariant.stream
      invariant.dimensionEq lengthEq
    cases io with
    | ok =>
        rcases writeSafe with ⟨noTorn, small⟩
        let table := state.table.wrote (state.data ++ stored.encode)
          [req.pending state.data.length]
        have inMemory : (state.acknowledged ++ [stored.onHeap state.data.length]).Perm
            (table.db.records ++ table.insertQueue.map PendingInsert.toRecord) := by
          simp only [table, OpenTable.wrote, List.map_append, List.map_cons, List.map_nil]
          rw [← List.append_assoc]
          exact invariant.inMemory.append_right _
        have kept := invariant.append stored table noTorn small
          (state.table.wrote_sameHandle _ _) inMemory
        have last : (table.insertQueue.getLast?.map PendingInsert.toRecord).toList =
            [stored.onHeap state.data.length] := by
          simp only [table, OpenTable.wrote, List.getLast?_append, List.getLast?_singleton,
            Option.some_or, Option.map_some, Option.toList_some]
          rfl
        rw [← last] at kept
        refine ⟨_, ?_, kept⟩
        simp only [attemptStep, called, Option.map_some]
        rfl
    | failed appended =>
        have kept := invariant.failed stored appended
          (state.table.wrote (state.data ++ stored.encode.take appended) []) writeSafe
          (state.table.wrote_sameHandle _ _) rfl (List.append_nil _)
        refine ⟨_, ?_, kept⟩
        simp only [attemptStep, called, Option.map_some]
        rfl
  · have called := insertLocked_refused io state.data state.table req invariant.dimensionEq
      lengthEq
    refine ⟨state, ?_, invariant⟩
    simp only [attemptStep, called, Option.map_some, Response.isSuccess, Nat.sub_self]
    rfl

theorem attemptStep_invariant (state : InsertRun) (attempt : InsertAttempt dimension)
    (invariant : InsertInvariant dimension state) (safe : AttemptSafe state attempt) :
    ∃ next, attemptStep state attempt = some next ∧ InsertInvariant dimension next := by
  cases attempt with
  | library io id vector metadata =>
      exact attemptStep_library state io id vector metadata invariant safe
  | server io req => exact attemptStep_server state io req invariant safe

/-! ### Whole runs -/

/-- A table with an empty insert queue, before the first attempt. -/
def startRun (data : List UInt8) (table : OpenTable) : InsertRun where
  data := data
  table := table
  acknowledged := table.db.records
  tornBytes := 0

theorem startRun_invariant {data : List UInt8} {table : OpenTable}
    {stored : List (StoredRecord dimension)} (agrees : Agrees data table.db stored stored)
    (emptyQueue : table.insertQueue = []) : InsertInvariant dimension (startRun data table) := by
  refine ⟨agrees.dimensionEq, agrees.stream, agrees.small, ?_, stored, [], ?_, rfl, Or.inl rfl,
    agrees.tracks⟩
  · simp only [startRun, emptyQueue, List.map_nil, List.append_nil]
    exact List.Perm.refl _
  · rw [List.append_nil]
    exact agrees.file

theorem inserts_scan_acknowledged {data : List UInt8} {table : OpenTable}
    {stored : List (StoredRecord dimension)} (agrees : Agrees data table.db stored stored)
    (emptyQueue : table.insertQueue = []) (attempts : List (InsertAttempt dimension))
    (safe : GuardedRun.Admits attemptStep AttemptSafe (startRun data table) attempts) :
    GuardedRun.AllStates attemptStep (ScansAcknowledged dimension) (startRun data table)
      attempts :=
  GuardedRun.allStates_of_step
    (fun state attempt invariant attemptSafe =>
      attemptStep_invariant state attempt invariant attemptSafe)
    (fun _ invariant => invariant.scansAcknowledged)
    (startRun_invariant agrees emptyQueue) safe

/-! ### A torn insert into an empty table -/

def moviesSlot : OpenTable := newSlot moviesName moviesTable

theorem moviesSlot_agrees :
    Agrees [] moviesSlot.db ([] : List (StoredRecord 1)) [] where
  dimensionEq := rfl
  stream := by decide
  file := rfl
  small := by decide
  unflagged := rfl
  tracks := trivial

/-- Insert the vector (1.0) under the given id. -/
def attemptOne (io : WriteIO) (id : UInt32) : InsertAttempt 1 :=
  .library io id ⟨[1065353216], sampleVector_length⟩ none

def requestOne (id : UInt32) : InsertReq where
  dbName := moviesName
  id := id
  vector := [1065353216]
  bounded := by decide
  metadata := none

theorem inserts_scan_with_torn_tail :
    GuardedRun.AllStates attemptStep (ScansAcknowledged 1) (startRun [] moviesSlot)
      [attemptOne .ok 7, .server .ok (requestOne 9), attemptOne (.failed 8) 3] :=
  inserts_scan_acknowledged moviesSlot_agrees rfl _ (by decide +kernel)

/-- Eight bytes of a failed insert, and the next record is not found. -/
theorem insert_after_torn_insert_lost :
    ¬GuardedRun.AllStates attemptStep (ScansAcknowledged 1) (startRun [] moviesSlot)
      [attemptOne (.failed 8) 7, attemptOne .ok 9] := by
  intro always
  rcases always.run_eq_some with ⟨final, ran, scans⟩
  rcases scans.onDisk with ⟨stored, contents, scanned⟩
  have computed : (GuardedRun.run attemptStep (startRun [] moviesSlot)
      [attemptOne (.failed 8) 7, attemptOne .ok 9]).map (fun state =>
        (state.acknowledged.map Record.byteOffset,
          (loadAll state.data 1 2 (Storage.openAt state.data 0)).map fun loaded =>
            loaded.1.map Record.byteOffset)) = some ([8], some [0]) := by
    decide +kernel
  rw [ran, Option.map_some] at computed
  obtain ⟨offsets, found⟩ := Prod.mk.inj (Option.some.inj computed)
  have one : stored.length = 1 := by
    rw [← contents.length_eq, ← List.length_map (f := Record.byteOffset), offsets]
    rfl
  obtain ⟨loaded, code, handle, loadedEq, -, offsetsEq, -⟩ := scanned 2 (by omega)
  rw [loadedEq, Option.map_some] at found
  rw [offsets] at offsetsEq
  exact absurd (offsetsEq.symm.trans (Option.some.inj found)) (by decide)

end OriginDb
