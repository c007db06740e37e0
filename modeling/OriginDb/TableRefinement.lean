/-
Whole runs of one open table.

`db_insert`, `db_delete` and `db_compact` are compared with three operations on
an abstract list of records.  Compaction points every record it keeps either at
the new mapping or at nothing: a record that was inserted, and so has its vector
on the heap, comes out of it with a null pointer.  The table refines the list
along every run that compacts only when there is no such record left.
-/

import OriginDb.FlatSearch
import OriginDb.Foundation.GuardedRun
import OriginDb.Reopen

namespace OriginDb

open Foundation

variable {dimension : UInt64}

inductive TableCall (dimension : UInt64) where
  | insert (id : UInt32) (vector : { values : List UInt32 // values.length = dimension.toNat })
      (metadata : Option CString)
  | delete (id : UInt64)
  | compact

/-- The record an insert call asks for. -/
def requested (id : UInt32) (vector : { values : List UInt32 // values.length = dimension.toNat })
    (metadata : Option CString) : StoredRecord dimension :=
  insertedRecord id.toUInt64 vector.val (vector_length_of_subtype vector) metadata

/-- What the calls do to the abstract list. -/
def listStep (stored : List (StoredRecord dimension)) :
    TableCall dimension → List (StoredRecord dimension)
  | .insert id vector metadata => stored ++ [requested id vector metadata]
  | .delete id => markFirst id stored
  | .compact => liveOf stored

/-- A table with its data file, and the list it stands for. -/
structure TableRun (dimension : UInt64) where
  data : List UInt8
  db : FlatDb
  stored : List (StoredRecord dimension)

/-- One call with all input and output succeeding. -/
def tableStep (state : TableRun dimension) (call : TableCall dimension) :
    Option (TableRun dimension) :=
  let stored := listStep state.stored call
  match call with
  | .insert id vector metadata =>
      (dbInsert .ok state.data state.db id vector.val metadata).map fun (_, data, db) =>
        { data := data, db := db, stored := stored }
  | .delete id =>
      let (_, data, db) := dbDelete .ok state.data state.db id
      some { data := data, db := db, stored := stored }
  | .compact =>
      (dbCompact .ok state.data state.db).map fun (_, data, db) =>
        { data := data, db := db, stored := stored }

/-- The array and the file both hold the abstract list: id, full vector,
metadata and flag of every entry, each at its byte offset. -/
structure RefinesList (state : TableRun dimension) : Prop where
  inMemory : List.Forall₂ (fun record stored =>
    record.contents state.data state.db.storage dimension = some stored)
      state.db.records state.stored
  onDisk : ScanFinds state.data state.stored (state.db.records.map Record.byteOffset)

/-- A compaction leaves the answer to every query as it was. -/
def CompactionKeepsSearches (state : TableRun dimension) (call : TableCall dimension)
    (next : TableRun dimension) : Prop :=
  call = .compact → SameSearches state.data state.db next.data next.db

/-- The call does not run into the defect: an insert finds room in the record
array and in the file, a compaction finds no live record with a vector. -/
def CallSafe (state : TableRun dimension) : TableCall dimension → Prop
  | .insert id vector metadata =>
      RoomForInsert state.db ∧
        (state.data ++ (requested id vector metadata).encode).length < 2 ^ 63
  | .delete _ => True
  | .compact => (∀ record ∈ state.db.records, record.isDeleted = true) ∨ dimension = 0

instance (state : TableRun dimension) (call : TableCall dimension) :
    Decidable (CallSafe state call) :=
  match call with
  | .insert _ _ _ => inferInstanceAs (Decidable (_ = _ ∧ _ < _))
  | .delete _ => inferInstanceAs (Decidable True)
  | .compact => inferInstanceAs (Decidable (_ ∨ _))

theorem liveOf_liveOf (stored : List (StoredRecord dimension)) :
    liveOf (liveOf stored) = liveOf stored := by
  simp only [liveOf, List.filter_filter, Bool.and_self]

/-- Compacting an agreeing table whose live records keep their vectors. -/
theorem Agrees.compact {data : List UInt8} {db : FlatDb}
    {mem disk : List (StoredRecord dimension)} (agrees : Agrees data db mem disk)
    (survives : ∀ record ∈ db.records, record.isDeleted = false →
      record.isMmap = true ∨ dimension.toNat = 0) :
    ∃ next, dbCompact .ok data db =
        some (0, (recordCodec dimension).encodeAll (liveOf mem), next) ∧
      Agrees ((recordCodec dimension).encodeAll (liveOf mem)) next (liveOf mem) (liveOf mem) ∧
      SameSearches data db ((recordCodec dimension).encodeAll (liveOf mem)) next := by
  have small := agrees.liveSmall
  obtain ⟨kept, compacted, -, holds⟩ := dbCompact_eq agrees.dimensionEq agrees.copyable small
  have agreesNext : Agrees ((recordCodec dimension).encodeAll (liveOf mem))
      (compactedTable db _ kept) (liveOf mem) (liveOf mem) :=
    { dimensionEq := agrees.dimensionEq
      stream := compactedTable_stream _ _ _
      file := rfl
      small := small
      unflagged := rfl
      tracks := holds survives }
  refine ⟨_, compacted, agreesNext, ?_⟩
  exact sameSearches_of_live agrees.dimensionEq rfl rfl rfl rfl agrees.copyable
    agreesNext.copyable (liveOf_liveOf mem)

/-- One safe call keeps the agreement of the array, the file and the list. -/
theorem tableStep_agrees (state : TableRun dimension) (call : TableCall dimension)
    (agrees : Agrees state.data state.db state.stored state.stored)
    (safe : CallSafe state call) :
    ∃ next, tableStep state call = some next ∧
      Agrees next.data next.db next.stored next.stored ∧
      CompactionKeepsSearches state call next := by
  cases call with
  | insert id vector metadata =>
      rcases safe with ⟨room, small⟩
      have called := dbInsert_eq .ok state.data state.db id vector.val vector.property metadata
        agrees.dimensionEq agrees.stream room
      refine ⟨{ data := _, db := _, stored := state.stored ++ [requested id vector metadata] },
        ?_, agrees.insert (requested id vector metadata) small, ?_⟩
      · simp only [tableStep, called, Option.map_some, listStep]
        rfl
      · intro impossible
        cases impossible
  | delete id =>
      obtain ⟨code, file, next, disk, called, agreesNext, -, -, diskEq⟩ := agrees.delete .ok id
      rw [diskEq rfl rfl, deleteMem, if_neg (by decide)] at agreesNext
      refine ⟨{ data := file, db := next, stored := markFirst id state.stored }, ?_,
        agreesNext, ?_⟩
      · simp only [tableStep, called, listStep]
      · intro impossible
        cases impossible
  | compact =>
      have survives : ∀ record ∈ state.db.records, record.isDeleted = false →
          record.isMmap = true ∨ dimension.toNat = 0 := by
        intro record member live
        rcases safe with noneLive | noVector
        · rw [noneLive record member] at live
          cases live
        · right
          rw [noVector]
          rfl
      obtain ⟨next, compacted, agreesNext, sameSearches⟩ := agrees.compact survives
      refine ⟨⟨(recordCodec dimension).encodeAll (liveOf state.stored), next,
        liveOf state.stored⟩, ?_, agreesNext, fun _ => sameSearches⟩
      simp only [tableStep, compacted, Option.map_some, listStep]

theorem Agrees.refinesList {state : TableRun dimension}
    (agrees : Agrees state.data state.db state.stored state.stored) : RefinesList state := by
  refine ⟨agrees.contents, ?_⟩
  have small := agrees.small
  rw [agrees.file] at small ⊢
  exact scanFinds_encodeAll small (agrees.tracks.imp fun _ _ _ holds => holds.1)

/-- A table that `db_init` has just made for a new directory. -/
def FreshTable (dimension : UInt64) (db : FlatDb) : Prop :=
  ∃ fuel name capacity metric dir opened, 1 ≤ capacity ∧ dir.dataDb = none ∧
    dbInit fuel name dimension capacity metric dir = some (opened, some db)

theorem FreshTable.agrees {db : FlatDb} (fresh : FreshTable dimension db) :
    Agrees [] db ([] : List (StoredRecord dimension)) [] := by
  rcases fresh with ⟨fuel, name, capacity, metric, dir, opened, -, noFile, made⟩
  have valid : validateDbName name = true := by
    cases isValid : validateDbName name with
    | true => rfl
    | false => simp [dbInit, isValid] at made
  cases fuel with
  | zero => simp [dbInit, valid, loadRecords] at made
  | succ fuel =>
      obtain ⟨db', madeEq, noRecords, dimensionEq, storageEq⟩ :=
        dbInit_eq dimension fuel name capacity metric dir valid
      rw [madeEq] at made
      obtain ⟨-, sameDb⟩ := Prod.mk.inj (Option.some.inj made)
      cases Option.some.inj sameDb
      rw [noFile] at storageEq
      refine ⟨dimensionEq, ?_, rfl, by decide, rfl, ?_⟩
      · rw [storageEq, storageInit_fp]
        intro closed
        cases closed
      · rw [noRecords]
        trivial

/-- The table stands for the abstract list after every call of the run, and no
compaction in it changes the answer to a query. -/
def RefinesListAlong (db : FlatDb) (calls : List (TableCall dimension)) : Prop :=
  GuardedRun.AllStates tableStep RefinesList ⟨[], db, []⟩ calls ∧
    GuardedRun.AllSteps tableStep CompactionKeepsSearches ⟨[], db, []⟩ calls

theorem table_refines_list {db : FlatDb} (fresh : FreshTable dimension db)
    (calls : List (TableCall dimension))
    (safe : GuardedRun.Admits tableStep CallSafe ⟨[], db, []⟩ calls) :
    RefinesListAlong db calls := by
  have stepAgrees : ∀ (state : TableRun dimension) (call : TableCall dimension),
      Agrees state.data state.db state.stored state.stored → CallSafe state call →
      ∃ next, tableStep state call = some next ∧
        Agrees next.data next.db next.stored next.stored := by
    intro state call agrees callSafe
    obtain ⟨next, stepped, agreesNext, -⟩ := tableStep_agrees state call agrees callSafe
    exact ⟨next, stepped, agreesNext⟩
  constructor
  · exact GuardedRun.allStates_of_step stepAgrees
      (fun state agrees => Agrees.refinesList agrees) fresh.agrees safe
  · exact GuardedRun.allSteps_of_step
      (fun state call agrees callSafe => tableStep_agrees state call agrees callSafe)
      fresh.agrees safe

/-! ### A fresh table of dimension 1 -/

def moviesTable : FlatDb where
  dimension := 1
  capacity := 4
  records := []
  recordsBytes := 192
  calculateDistance := .euclidean
  storage := storageInit []
  pendingDeletes := none
  pendingCount := 0

theorem moviesTable_fresh : FreshTable 1 moviesTable :=
  ⟨1, moviesName, 4, 1, emptyDir, _, by decide, rfl, rfl⟩

def insertSeven : TableCall 1 := .insert 7 ⟨[1065353216], sampleVector_length⟩ none

/-- A run that deletes what it has inserted before it compacts. -/
theorem table_refines_list_delete_compact :
    RefinesListAlong moviesTable [insertSeven, .delete 7, .compact, insertSeven] :=
  table_refines_list moviesTable_fresh _ (by decide +kernel)

/-- Whether every record of the array can be read through its pointer. -/
def allReadable (state : TableRun dimension) : Bool :=
  state.db.records.all fun record =>
    (record.contents state.data state.db.storage dimension).isSome

theorem RefinesList.readable {state : TableRun dimension} (refines : RefinesList state) :
    allReadable state = true := by
  have found := refines.inMemory
  rw [allReadable]
  generalize state.db.records = records at found ⊢
  generalize state.stored = stored at found
  induction found with
  | nil => rfl
  | cons head _ ih => rw [List.all_cons, head, ih, Option.isSome_some, Bool.and_self]

/-- An insert followed by a compaction leaves a record without its vector. -/
theorem compaction_loses_inserted_vector :
    FreshTable 1 moviesTable ∧ ¬RefinesListAlong moviesTable [insertSeven, .compact] := by
  refine ⟨moviesTable_fresh, ?_⟩
  intro refined
  rcases refined with ⟨always, -⟩
  rcases always.run_eq_some with ⟨final, ran, refines⟩
  have unreadable : (GuardedRun.run tableStep ⟨[], moviesTable, []⟩
      [insertSeven, .compact]).map allReadable = some false := by decide +kernel
  rw [ran, Option.map_some, refines.readable] at unreadable
  exact absurd unreadable (by decide)

end OriginDb
