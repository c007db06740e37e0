/-
What was inserted is found.

An acknowledged insert waits in the queue until the worker merges it, and from
then on it is in the record array, where every search looks.  So a search with
room for all records lists each acknowledged record that is merged, neither
executed nor queued for deletion, and near enough to be listed at all: as often
as it was inserted, and with the id, the metadata and the vector that were sent.
-/

import OriginDb.ResultList
import OriginDb.SearchCandidates
import OriginDb.ServerInserts

namespace OriginDb

open Foundation

variable {dimension : UInt64}

section Table

variable {ρ : Type} (distances : Distances ρ)

/-- A record that a search of the table can list, if it is in the array. -/
def Listable (db : FlatDb) (query : List UInt32) (stored : StoredRecord dimension) : Bool :=
  !isPendingDelete stored.id db.pendingDeletes db.pendingCount &&
    distances.near (stored.asResult distances db.calculateDistance query)

/-- The acknowledged records that are not executed are merged or wait in the queue, and the
merged ones that can be listed are in the results, each as often as it was acknowledged. -/
def FindsMerged (state : SyncRun dimension) (query : List UInt32)
    (found : List (SearchResult ρ)) : Prop :=
  ∃ merged waiting, unexecuted state.executed state.acknowledged = merged ++ waiting ∧
    List.Forall₂ (fun entry stored => entry.id = stored.id ∧ entry.metadata = stored.metadata)
      (state.table.insertQueue.filter fun entry => !state.executed.contains entry.id) waiting ∧
    ((merged.filter (Listable distances state.table.db query)).map
      (StoredRecord.asResult distances state.table.db.calculateDistance query)).Subperm found

variable {distances}

/-- The live records on disk that a search sees are among its candidates, with what is on disk. -/
theorem candidates_of_carries {executed : List UInt64} {data : List UInt8} {storage : Storage}
    {metric : MetricType} {query : List UInt32} {pending : Option (List UInt64)}
    {pendingCount : Nat} {disk : List (StoredRecord dimension)} {records : List Record}
    {candidates : List (SearchResult ρ)}
    (carried : List.Forall₂ (fun record stored => Carries executed stored record ∧
      stored.encode <+: data.drop record.byteOffset.toNat) records disk)
    (offered : flatCandidates distances data storage dimension metric query pending pendingCount
      records = some candidates) :
    List.Sublist
      (((unexecuted executed (liveOf disk)).filter fun stored =>
        !isPendingDelete stored.id pending pendingCount).map
          (StoredRecord.asResult distances metric query)) candidates := by
  induction carried generalizing candidates with
  | nil => exact List.nil_sublist _
  | @cons record stored records disk head _ ih =>
      rcases head with ⟨carries, frame⟩
      rw [flatCandidates] at offered
      rw [unexecuted_cons, List.filter_append, List.map_append]
      by_cases isExecuted : stored.id ∈ executed
      · rw [unexecuted_of_executed isExecuted, List.filter_nil, List.map_nil, List.nil_append]
        split at offered
        · exact ih offered
        · split at offered
          · cases offered
          · obtain ⟨others, offeredRest, rfl⟩ := Option.map_eq_some_iff.mp offered
            exact (ih offeredRest).cons _
      · have flagEq := carries.flag isExecuted
        rw [flagEq, carries.id] at offered
        cases deleted : stored.isDeleted with
        | true =>
            have none : unexecuted executed (liveOf [stored]) = [] := by
              have dead : liveOf [stored] = [] := by
                rw [liveOf, List.filter_cons_of_neg (by rw [deleted]; decide), List.filter_nil]
              rw [dead]
              rfl
            rw [deleted, Bool.true_or, if_pos rfl] at offered
            rw [none]
            exact ih offered
        | false =>
            have one : unexecuted executed (liveOf [stored]) = [stored] := by
              rw [liveOf, List.filter_cons_of_pos (by rw [deleted]; rfl), List.filter_nil,
                unexecuted, List.filter_cons_of_pos (by simpa using isExecuted), List.filter_nil]
            rw [deleted, Bool.false_or] at offered
            rw [one]
            cases hidden : isPendingDelete stored.id pending pendingCount with
            | true =>
                rw [hidden, if_pos rfl] at offered
                rw [List.filter_cons_of_neg (by rw [hidden]; decide), List.filter_nil]
                exact ih offered
            | false =>
                rw [hidden, if_neg Bool.false_ne_true] at offered
                rw [List.filter_cons_of_pos (by rw [hidden]; rfl), List.filter_nil]
                cases readable : readVector data storage dimension record.vector with
                | none =>
                    rw [readable] at offered
                    cases offered
                | some vector =>
                    rw [readable] at offered
                    obtain ⟨others, offeredRest, rfl⟩ := Option.map_eq_some_iff.mp offered
                    have followed := readVector_of_carries carries frame
                      (Option.isSome_iff_exists.mpr ⟨vector, readable⟩)
                    cases Option.some.inj (readable.symm.trans followed)
                    rw [carries.metadata]
                    exact (ih offeredRest).cons_cons _

/-- A search with room for every record finds what is merged. -/
theorem SyncInvariant.finds_merged {state : SyncRun dimension} (invariant : SyncInvariant state)
    {query : List UInt32} {topK : UInt64} {found : List (SearchResult ρ)} (positive : topK ≠ 0)
    (small : topK.toNat ≤ 2 ^ 31) (room : state.table.db.records.length ≤ topK.toNat)
    (searched : flatSearch distances state.data state.table.db query topK = some (0, found)) :
    FindsMerged distances state query found := by
  obtain ⟨disk, laid, sameRecords⟩ := invariant.onDisk
  obtain ⟨candidates, listed, left, offered, foundEq, listing⟩ :=
    flatSearch_lists_all positive small room searched
  have carried := laid.forall₂
  have inArray : state.entries.take state.table.db.records.length = state.table.db.records :=
    List.take_left
  have inQueue : state.entries.drop state.table.db.records.length =
      state.table.insertQueue.map PendingInsert.toRecord := List.drop_left
  have merged := List.forall₂_take state.table.db.records.length carried
  have waiting := List.forall₂_drop state.table.db.records.length carried
  rw [inArray] at merged
  rw [inQueue] at waiting
  refine ⟨unexecuted state.executed (liveOf (disk.take state.table.db.records.length)),
    unexecuted state.executed (liveOf (disk.drop state.table.db.records.length)), ?_, ?_, ?_⟩
  · rw [← unexecuted_append, ← liveOf_append, List.take_append_drop, sameRecords]
  · have agree : ∀ (entry : PendingInsert) (stored : StoredRecord dimension),
        (Carries state.executed stored entry.toRecord ∧
          stored.encode <+: state.data.drop entry.toRecord.byteOffset.toNat) →
        ((!state.executed.contains entry.id) = true ↔
          (!stored.isDeleted && !state.executed.contains stored.id) = true) := by
      rintro entry stored ⟨carries, -⟩
      have idEq : entry.id = stored.id := carries.id
      rw [idEq]
      by_cases isExecuted : stored.id ∈ state.executed
      · simp [isExecuted]
      · have live : false = stored.isDeleted := carries.flag isExecuted
        rw [← live]
        exact Iff.rfl
    have filtered := List.rel_filter agree (List.forall₂_map_left_iff.mp waiting)
    rw [unexecuted, liveOf, List.filter_filter, List.filter_congr fun _ _ => Bool.and_comm _ _]
    exact filtered.imp fun entry stored holds => ⟨holds.1.id, holds.1.metadata⟩
  · rw [invariant.dimensionEq] at offered
    have inCandidates := candidates_of_carries merged offered
    have nearOnes := inCandidates.filter distances.near
    rw [List.filter_map, List.filter_filter] at nearOnes
    have sameFilter : (unexecuted state.executed
        (liveOf (disk.take state.table.db.records.length))).filter
          (Listable distances state.table.db query) =
        (unexecuted state.executed
          (liveOf (disk.take state.table.db.records.length))).filter fun stored =>
            (distances.near ∘ StoredRecord.asResult distances state.table.db.calculateDistance
              query) stored &&
            !isPendingDelete stored.id state.table.db.pendingDeletes
              state.table.db.pendingCount := by
      apply List.filter_congr
      intro stored _
      exact Bool.and_comm _ _
    rw [sameFilter, foundEq]
    have inListed := nearOnes.subperm.trans listing.symm.subperm
    exact inListed.trans (List.sublist_append_left ..).subperm

end Table

/-! ### In the server -/

section Server

variable {δ ν : Type} [DecidableEq δ] (env : ServerEnv δ ν) (texts : NumberTexts) (slot : Nat)

/-- Whatever exhaustive search of the table the server answers now, with room for its records:
the printed results have the merged records in them. -/
def AnswersMerged (state : Followed δ dimension) : Prop :=
  ∀ table, state.server.openTables[slot]? = some table → table.db.dimension = dimension →
    ∀ (io : AnswerIO) (req : SearchReq) (found : List (SearchResult UInt32)),
      req.useAnn = false → table.db.records.length ≤ req.topK.toNat →
        taskAnswer env texts state.server io (.search slot req) = some (.results found) →
          FindsMerged env.floats.toDistances (state.view env table) req.queryVector found

variable {env texts slot}

omit [DecidableEq δ] in
theorem searched_of_answered {server : Server δ} {io : AnswerIO} {req : SearchReq}
    {table : OpenTable} {found : List (SearchResult UInt32)}
    (open_ : server.openTables[slot]? = some table) (exhaustive : req.useAnn = false)
    (answered : taskAnswer env texts server io (.search slot req) = some (.results found)) :
    searchRefusal table.db req = none ∧
      flatSearch env.floats.toDistances
        ((server.disk (env.dirOf table.name)).dataDb.getD []) table.db req.queryVector
        (UInt64.ofNat req.topK.toNat) = some (0, found) := by
  unfold taskAnswer at answered
  dsimp only at answered
  rw [open_] at answered
  unfold searchAnswer at answered
  dsimp only at answered
  cases refused : searchRefusal table.db req with
  | some response =>
      rw [refused] at answered
      cases answered
  | none =>
      rw [refused] at answered
      dsimp only at answered
      refine ⟨rfl, ?_⟩
      split at answered
      · obtain ⟨outcome, searched, answerEq⟩ := Option.map_eq_some_iff.mp answered
        unfold searchFound at searched
        dsimp only at searched
        rw [exhaustive, if_neg Bool.false_ne_true] at searched
        obtain ⟨result, ran, rfl⟩ := Option.map_eq_some_iff.mp searched
        dsimp only at answerEq
        split at answerEq
        · cases answerEq
          have positive := (topK_of_accepted refused).1
          unfold flatSearch at ran ⊢
          rw [if_neg positive] at ran ⊢
          obtain ⟨results, loop, rfl⟩ := Option.map_eq_some_iff.mp ran
          rw [loop]
          rfl
        · cases answerEq
      · cases answered

end Server

end OriginDb
