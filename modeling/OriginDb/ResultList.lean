/-
The list that a search answers with.

`flat_search` marks the slots that it leaves empty with id 0, and
`serialize_search_results` leaves out the results with that id.  But 0 is an id that
`/insert` accepts, and a record with it that is near enough takes a slot and is left
out as well.
-/

import OriginDb.ExactSearch
import OriginDb.Responses

namespace OriginDb

open Foundation

/-- The results that become elements of the JSON array, in its order. -/
def serializedResults (results : List (SearchResult UInt32)) : List (SearchResult UInt32) :=
  results.filter fun result => result.id != 0

def arrayText (texts : NumberTexts) (elements : List (SearchResult UInt32)) : List UInt8 :=
  asciiBytes "[" ++ List.intercalate (asciiBytes ",") (elements.map (itemText texts)) ++
    asciiBytes "]"

theorem serializeSearchResults_eq (texts : NumberTexts) {results : List (SearchResult UInt32)}
    (some : results ≠ []) :
    serializeSearchResults texts true results =
      Option.some (arrayText texts (serializedResults results)) := by
  have prints : ¬(results = [] ∨ true = false) := by
    rintro (empty | impossible)
    · exact some empty
    · cases impossible
  rw [serializeSearchResults, if_neg prints]
  rfl

section Listing

variable (distances : Distances UInt32) (data : List UInt8) (db : FlatDb) (query : List UInt32)

/-- The records of a table that are neither deleted nor queued for deletion. -/
def searchedRecords : List (StoredRecord db.dimension) :=
  (db.records.map (Record.followed data db.storage db.dimension)).filter fun record =>
    !record.isDeleted && !(db.pendingDeletes.getD []).contains record.id

def distanceTo (record : StoredRecord db.dimension) : UInt32 :=
  distances.calculate db.calculateDistance db.dimension record.vector query

/-- The array that is printed lists as many results as there are, in order, each the
result at its place in the output of the search. -/
def ListsEveryResult (topK : UInt64) : Prop :=
  ∃ results, flatSearch distances data db query topK = some (0, results) ∧
    (∀ texts, serializeSearchResults texts true results =
      some (arrayText texts (serializedResults results))) ∧
    (serializedResults results).length = min topK.toNat (searchedRecords data db).length ∧
    ((serializedResults results).Pairwise fun first second =>
      distances.less second.calculatedDistance first.calculatedDistance = false) ∧
    ∀ index, index < (serializedResults results).length →
      (serializedResults results)[index]? = results[index]?

/-- A searched record with id 0 has `top_k` searched records before it: nearer ones, or
ones as near that stand earlier in the table. -/
def ZeroBeyond (topK : UInt64) : Prop :=
  ∀ front record back, searchedRecords data db = front ++ record :: back → record.id = 0 →
    topK.toNat ≤
      (front.countP fun other =>
        !distances.less (distanceTo distances db query record)
          (distanceTo distances db query other)) +
      back.countP fun other =>
        distances.less (distanceTo distances db query other) (distanceTo distances db query record)

end Listing

variable {α : Type} [LinearOrder α] {distances : Distances UInt32} {value : UInt32 → α}
  {data : List UInt8} {db : FlatDb} {query : List UInt32} {topK : UInt64}

/-- The searched records, as the results that they give. -/
theorem rankedResults_of_below
    (below : ∀ record ∈ searchedRecords data db,
      distances.less (distanceTo distances db query record) distances.fltMax = true) :
    rankedResults distances db.calculateDistance query (db.pendingDeletes.getD [])
        (db.records.map (Record.followed data db.storage db.dimension)) =
      (searchedRecords data db).map
        (StoredRecord.asResult distances db.calculateDistance query) := by
  unfold rankedResults
  congr 1
  rw [searchedRecords, List.filter_congr]
  intro record member
  by_cases searched : (!record.isDeleted && !(db.pendingDeletes.getD []).contains record.id) = true
  · have near := below record (List.mem_filter.mpr ⟨member, searched⟩)
    unfold distanceTo at near
    rw [searched, near, Bool.and_true]
  · rw [Bool.eq_false_iff.mpr searched, Bool.false_and]

theorem serializedResults_top (ranked : List (SearchResult UInt32)) (k : Nat) :
    serializedResults (topResults distances value k ranked) =
      serializedResults ((TopK.stableSort (SearchResult.key value) ranked).take k) := by
  have emptySlots : serializedResults
      (List.replicate (k - ranked.length) (SearchResult.empty distances)) = [] := by
    rw [serializedResults, List.filter_eq_nil_iff]
    intro result member
    rw [List.eq_of_mem_replicate member]
    exact fun listed => Bool.false_ne_true listed
  rw [topResults, serializedResults, List.filter_append]
  unfold serializedResults at emptySlots
  rw [emptySlots, List.append_nil]
  rfl

/-- The records before a searched record, counted with the comparison of the search. -/
theorem rank_results
    (compares : Compares distances
      (Compared distances db.calculateDistance query (searchedRecords data db)) value)
    {front back : List (StoredRecord db.dimension)} {record : StoredRecord db.dimension}
    (split : searchedRecords data db = front ++ record :: back) :
    TopK.rank (SearchResult.key value)
        (front.map (StoredRecord.asResult distances db.calculateDistance query))
        (record.asResult distances db.calculateDistance query)
        (back.map (StoredRecord.asResult distances db.calculateDistance query)) =
      (front.countP fun other =>
        !distances.less (distanceTo distances db query record)
          (distanceTo distances db query other)) +
      back.countP fun other =>
        distances.less (distanceTo distances db query other)
          (distanceTo distances db query record) := by
  have compared : ∀ other ∈ searchedRecords data db, Compared distances db.calculateDistance query
      (searchedRecords data db) (distanceTo distances db query other) :=
    fun other member => Or.inr ⟨other, member, rfl⟩
  have recordCompared := compared record
    (split ▸ List.mem_append_right front (List.mem_cons_self ..))
  have frontEq : front.countP ((fun other : SearchResult UInt32 => decide
        (SearchResult.key value other ≤
          SearchResult.key value (record.asResult distances db.calculateDistance query))) ∘
      StoredRecord.asResult distances db.calculateDistance query) =
      front.countP fun other => !distances.less (distanceTo distances db query record)
        (distanceTo distances db query other) := by
    apply List.countP_congr
    intro other member
    have otherCompared := compared other (split ▸ List.mem_append_left _ member)
    rw [Function.comp_apply, decide_eq_true_iff, Bool.not_eq_true', ← Bool.not_eq_true,
      compares _ _ recordCompared otherCompared, not_lt]
    rfl
  have backEq : back.countP ((fun other : SearchResult UInt32 => decide
        (SearchResult.key value other <
          SearchResult.key value (record.asResult distances db.calculateDistance query))) ∘
      StoredRecord.asResult distances db.calculateDistance query) =
      back.countP fun other => distances.less (distanceTo distances db query other)
        (distanceTo distances db query record) := by
    apply List.countP_congr
    intro other member
    have otherCompared := compared other
      (split ▸ List.mem_append_right front (List.mem_cons_of_mem record member))
    rw [Function.comp_apply, decide_eq_true_iff, compares _ _ otherCompared recordCompared]
    rfl
  rw [TopK.rank, List.countP_map, List.countP_map, frontEq, backEq]

/-- No result in the array has id 0 exactly when the records with that id are beyond it. -/
theorem zeroBeyond_iff
    (compares : Compares distances
      (Compared distances db.calculateDistance query (searchedRecords data db)) value) :
    ZeroBeyond distances data db query topK ↔
      ∀ result ∈ (TopK.stableSort (SearchResult.key value) ((searchedRecords data db).map
        (StoredRecord.asResult distances db.calculateDistance query))).take topK.toNat,
        result.id ≠ 0 := by
  have place := TopK.exists_mem_take_stableSort_iff (SearchResult.key value)
    (fun result => result.id = 0) ((searchedRecords data db).map
      (StoredRecord.asResult distances db.calculateDistance query)) topK.toNat
  constructor
  · intro beyond result member isZero
    obtain ⟨front, item, back, split, itemZero, near⟩ := place.mp ⟨result, member, isZero⟩
    obtain ⟨front, rest, recordsSplit, rfl, restEq⟩ := List.map_eq_append_iff.mp split
    obtain ⟨record, back, rfl, rfl, rfl⟩ := List.map_eq_cons_iff.mp restEq
    rw [rank_results compares recordsSplit] at near
    exact absurd near (Nat.not_lt.mpr (beyond front record back recordsSplit itemZero))
  · intro nonzero front record back split isZero
    by_contra near
    rw [← rank_results compares split] at near
    have mapped : (searchedRecords data db).map
        (StoredRecord.asResult distances db.calculateDistance query) =
        front.map (StoredRecord.asResult distances db.calculateDistance query) ++
          record.asResult distances db.calculateDistance query ::
            back.map (StoredRecord.asResult distances db.calculateDistance query) := by
      rw [split, List.map_append, List.map_cons]
    obtain ⟨result, member, resultZero⟩ :=
      place.mpr ⟨_, _, _, mapped, isZero, Nat.lt_of_not_le near⟩
    exact nonzero result member resultZero

/-- The searched records are among the live ones. -/
theorem searched_compares
    (compares : Compares distances
      (Compared distances db.calculateDistance query
        (liveOf (db.records.map (Record.followed data db.storage db.dimension)))) value) :
    Compares distances
      (Compared distances db.calculateDistance query (searchedRecords data db)) value := by
  have narrower : ∀ distance, Compared distances db.calculateDistance query
      (searchedRecords data db) distance →
        Compared distances db.calculateDistance query
          (liveOf (db.records.map (Record.followed data db.storage db.dimension))) distance := by
    intro distance compared
    rcases compared with isMax | ⟨record, member, distanceEq⟩
    · exact Or.inl isMax
    · obtain ⟨inStored, kept⟩ := List.mem_filter.mp member
      have live := (Bool.and_eq_true_iff.mp kept).1
      exact Or.inr ⟨record, List.mem_filter.mpr ⟨inStored, live⟩, distanceEq⟩
  exact fun first second firstOccurs secondOccurs =>
    compares first second (narrower first firstOccurs) (narrower second secondOccurs)

/-- What the search hands to the serializer. -/
theorem flatSearch_searched (positive : topK ≠ 0) (atMost : topK.toNat ≤ 10000)
    (listed : QueueListed db.pendingDeletes db.pendingCount)
    (readable : SearchReadable data db.storage db.dimension (db.pendingDeletes.getD []) db.records)
    (compares : Compares distances
      (Compared distances db.calculateDistance query
        (liveOf (db.records.map (Record.followed data db.storage db.dimension)))) value)
    (below : ∀ record ∈ searchedRecords data db,
      distances.less (distanceTo distances db query record) distances.fltMax = true) :
    flatSearch distances data db query topK =
      some (0, topResults distances value topK.toNat ((searchedRecords data db).map
        (StoredRecord.asResult distances db.calculateDistance query))) := by
  have occursAll : ∀ record ∈
      liveOf (db.records.map (Record.followed data db.storage db.dimension)),
      Compared distances db.calculateDistance query
        (liveOf (db.records.map (Record.followed data db.storage db.dimension)))
        (distances.calculate db.calculateDistance db.dimension record.vector query) :=
    fun record member => Or.inr ⟨record, member, rfl⟩
  rw [flatSearch, if_neg positive, flatSearchLoop_followed listed readable,
    searchStored_exact compares (Or.inl rfl) listed positive (by omega) occursAll,
    Option.map_some, rankedResults_of_below below]

theorem taken_ordered
    (compares : Compares distances
      (Compared distances db.calculateDistance query (searchedRecords data db)) value)
    (count : Nat) :
    ((TopK.stableSort (SearchResult.key value) ((searchedRecords data db).map
        (StoredRecord.asResult distances db.calculateDistance query))).take count).Pairwise
      fun first second =>
        distances.less second.calculatedDistance first.calculatedDistance = false := by
  have occurs : ∀ result ∈ (TopK.stableSort (SearchResult.key value)
      ((searchedRecords data db).map
        (StoredRecord.asResult distances db.calculateDistance query))).take count,
      Compared distances db.calculateDistance query (searchedRecords data db)
        result.calculatedDistance := by
    intro result member
    obtain ⟨record, recordMember, rfl⟩ := List.mem_map.mp
      ((TopK.stableSort_perm _ _).mem_iff.mp (List.mem_of_mem_take member))
    exact Or.inr ⟨record, recordMember, rfl⟩
  have sortedTake := (TopK.stableSort_sorted (SearchResult.key value)
    ((searchedRecords data db).map
      (StoredRecord.asResult distances db.calculateDistance query))).sublist
        (List.take_sublist count _)
  apply sortedTake.imp_of_mem
  intro first second firstMember secondMember noFarther
  rw [← Bool.not_eq_true, compares _ _ (occurs second secondMember) (occurs first firstMember),
    not_lt]
  exact noFarther

theorem topResults_length (distances : Distances UInt32) (value : UInt32 → α) (k : Nat)
    (ranked : List (SearchResult UInt32)) : (topResults distances value k ranked).length =
      min k ranked.length + (k - ranked.length) := by
  rw [topResults, List.length_append, List.length_replicate, List.length_take,
    TopK.stableSort_length]

/-- The response lists every result exactly when the records with id 0 are beyond the
array. -/
theorem response_lists_every_result_iff (atLeastOne : 1 ≤ topK.toNat) (atMost : topK.toNat ≤ 10000)
    (listed : QueueListed db.pendingDeletes db.pendingCount)
    (readable : SearchReadable data db.storage db.dimension (db.pendingDeletes.getD []) db.records)
    (compares : Compares distances
      (Compared distances db.calculateDistance query
        (liveOf (db.records.map (Record.followed data db.storage db.dimension)))) value)
    (below : ∀ record ∈ searchedRecords data db,
      distances.less (distanceTo distances db query record) distances.fltMax = true) :
    ListsEveryResult distances data db query topK ↔ ZeroBeyond distances data db query topK := by
  have positive : topK ≠ 0 := by
    rintro rfl
    exact absurd atLeastOne (by decide)
  have searched := flatSearch_searched positive atMost listed readable compares below
  have searchedCompares := searched_compares compares
  rw [zeroBeyond_iff searchedCompares]
  have ordered := taken_ordered searchedCompares topK.toNat
  generalize resultsEq : (searchedRecords data db).map
    (StoredRecord.asResult distances db.calculateDistance query) = results at searched ordered ⊢
  have takenLength : ((TopK.stableSort (SearchResult.key value) results).take
      topK.toNat).length = min topK.toNat (searchedRecords data db).length := by
    rw [List.length_take, TopK.stableSort_length, ← resultsEq, List.length_map]
  have listedEq : serializedResults (topResults distances value topK.toNat results) =
      serializedResults ((TopK.stableSort (SearchResult.key value) results).take topK.toNat) :=
    serializedResults_top results topK.toNat
  constructor
  · rintro ⟨found, searchedToo, -, lengthEq, -, -⟩ result member
    have foundEq : topResults distances value topK.toNat results = found :=
      congrArg Prod.snd (Option.some.inj (searched.symm.trans searchedToo))
    rw [← foundEq, listedEq, ← takenLength] at lengthEq
    have all := List.length_filter_eq_length_iff.mp lengthEq result member
    exact bne_iff_ne.mp all
  · intro nonzero
    have isListed : serializedResults (topResults distances value topK.toNat results) =
        (TopK.stableSort (SearchResult.key value) results).take topK.toNat := by
      rw [listedEq, serializedResults, List.filter_eq_self]
      exact fun result member => bne_iff_ne.mpr (nonzero result member)
    have filled : topResults distances value topK.toNat results ≠ [] := by
      intro empty
      have lengths := topResults_length distances value topK.toNat results
      rw [empty, List.length_nil] at lengths
      omega
    apply Exists.intro (topResults distances value topK.toNat results)
    rw [isListed]
    have inPlace : ∀ index,
        index < ((TopK.stableSort (SearchResult.key value) results).take topK.toNat).length →
          ((TopK.stableSort (SearchResult.key value) results).take topK.toNat)[index]? =
            (topResults distances value topK.toNat results)[index]? := by
      intro index inside
      exact (List.getElem?_append_left inside).symm
    have printed : ∀ texts, serializeSearchResults texts true
        (topResults distances value topK.toNat results) = some (arrayText texts
          ((TopK.stableSort (SearchResult.key value) results).take topK.toNat)) := by
      intro texts
      rw [serializeSearchResults_eq texts filled, isListed]
    exact ⟨searched, printed, takenLength, ordered, inPlace⟩

/-- Two records with ids 7 and 8, and three slots. -/
theorem response_lists_every_result_of_pair :
    ListsEveryResult gapOps.toDistances pairFile pairTable [1065353217] 3 := by
  have nonzero : ∀ record ∈ searchedRecords pairFile pairTable, record.id ≠ 0 := by decide +kernel
  have beyond : ZeroBeyond gapOps.toDistances pairFile pairTable [1065353217] 3 := by
    intro front record back split isZero
    exact absurd isZero
      (nonzero record (split ▸ List.mem_append_right front (List.mem_cons_self ..)))
  exact (response_lists_every_result_iff (by decide) (by decide) ⟨List.Pairwise.nil, rfl⟩
    (fun record member _ _ => pairTable_mirrors.readable record member) (gapOps_compares _)
    (by decide +kernel)).mpr beyond

def noRecords : FlatDb :=
  { pairTable with
    records := []
    storage := storageInit [] }

/-- A table that one insert under id 0 has filled. -/
def zeroTable : FlatDb :=
  ((dbInsert .ok [] noRecords 0 [1065353217] none).map fun inserted => inserted.2.2).getD noRecords

/-- The record with id 0 is found and left out. -/
theorem record_zero_left_out :
    ¬∀ (distances : Distances UInt32) (value : UInt32 → Nat) (data : List UInt8) (db : FlatDb)
      (query : List UInt32) (topK : UInt64), 1 ≤ topK.toNat → topK.toNat ≤ 10000 →
        QueueListed db.pendingDeletes db.pendingCount →
        SearchReadable data db.storage db.dimension (db.pendingDeletes.getD []) db.records →
        Compares distances (Compared distances db.calculateDistance query
          (liveOf (db.records.map (Record.followed data db.storage db.dimension)))) value →
        (∀ record ∈ searchedRecords data db,
          distances.less (distanceTo distances db query record) distances.fltMax = true) →
        ListsEveryResult distances data db query topK := by
  intro claimed
  have readable : SearchReadable [] zeroTable.storage zeroTable.dimension [] zeroTable.records := by
    have all : ∀ record ∈ zeroTable.records,
        (readVector [] zeroTable.storage zeroTable.dimension record.vector).isSome = true := by
      decide +kernel
    exact fun record member _ _ => all record member
  obtain ⟨results, searched, -, lengthEq, -, -⟩ := claimed gapOps.toDistances UInt32.toNat []
    zeroTable [1065353217] 3 (by decide) (by decide) ⟨List.Pairwise.nil, rfl⟩ readable
    (gapOps_compares _) (by decide +kernel)
  have leftOut : (flatSearch gapOps.toDistances [] zeroTable [1065353217] 3).map
      (fun found => (serializedResults found.2).length) = some 0 := by decide +kernel
  have one : min (3 : UInt64).toNat (searchedRecords [] zeroTable).length = 1 := by decide +kernel
  rw [searched, Option.map_some, lengthEq, one] at leftOut
  exact absurd (Option.some.inj leftOut) Nat.one_ne_zero

end OriginDb
