/-
What a search returns: the first results of a stable sort.

A search ranks the records that are neither deleted nor queued and lie closer
than `FLT_MAX`.  Its result array is the beginning of these records sorted by
their distances, equal distances in the order of the search, and behind them
the slots that were never filled.
-/

import OriginDb.Foundation.StableSelection
import OriginDb.SearchAgreement

namespace OriginDb

open Foundation

variable {dimension : UInt64}

/-! ### Ranked results -/

section Ranking

variable {δ : Type} (distances : Distances δ)

/-- The results of the records that a search ranks, in the order of the records. -/
def rankedResults (metric : MetricType) (query : List UInt32) (queued : List UInt64)
    (stored : List (StoredRecord dimension)) : List (SearchResult δ) :=
  (stored.filter fun record =>
    !record.isDeleted && !queued.contains record.id &&
      distances.less (distances.calculate metric dimension record.vector query)
        distances.fltMax).map (StoredRecord.asResult distances metric query)

/-- The first `topK` results of the stable sort by distance; slots that are left
have id 0, distance `FLT_MAX` and no metadata. -/
def topResults {α : Type} [LinearOrder α] (value : δ → α) (topK : Nat)
    (ranked : List (SearchResult δ)) : List (SearchResult δ) :=
  (TopK.stableSort (SearchResult.key value) ranked).take topK ++
    List.replicate (topK - ranked.length) (SearchResult.empty distances)

/-- The distances that a search of these records compares. -/
def Compared (metric : MetricType) (query : List UInt32)
    (stored : List (StoredRecord dimension)) (dis : δ) : Prop :=
  dis = distances.fltMax ∨
    ∃ record ∈ stored, dis = distances.calculate metric dimension record.vector query

/-- The list of queued ids that a table keeps for its searches: sorted, and as
long as it says. -/
structure QueueListed (pending : Option (List UInt64)) (pendingCount : Nat) : Prop where
  sorted : (pending.getD []).Pairwise (· ≤ ·)
  counted : pendingCount = (pending.getD []).length

theorem QueueListed.isPendingDelete_eq {pending : Option (List UInt64)} {pendingCount : Nat}
    (listed : QueueListed pending pendingCount) (id : UInt64) :
    isPendingDelete id pending pendingCount = (pending.getD []).contains id := by
  rw [Bool.eq_iff_iff, isPendingDelete_iff listed.sorted listed.counted, List.contains_iff_mem]

variable {distances} {α : Type} [LinearOrder α] {value : δ → α} {occurs : δ → Prop}
  {metric : MetricType} {query : List UInt32} {topK : UInt64} {pending : Option (List UInt64)}
  {pendingCount : Nat}

/-- The candidates below `FLT_MAX` are the ranked results of the live records. -/
theorem candidates_below (compares : Compares distances occurs value)
    (occursMax : occurs distances.fltMax) (listed : QueueListed pending pendingCount)
    {stored : List (StoredRecord dimension)}
    (occursAll : ∀ record ∈ liveOf stored,
      occurs (distances.calculate metric dimension record.vector query)) :
    (searchCandidates distances metric query pending pendingCount (liveOf stored)).filter
        (fun result => SearchResult.key value result <
          SearchResult.key value (SearchResult.empty distances)) =
      rankedResults distances metric query (pending.getD []) stored := by
  have closer : ∀ record ∈ liveOf stored,
      decide (SearchResult.key value (record.asResult distances metric query) <
          SearchResult.key value (SearchResult.empty distances)) =
        distances.less (distances.calculate metric dimension record.vector query)
          distances.fltMax := by
    intro record member
    have occursHere : occurs (record.asResult distances metric query).calculatedDistance :=
      occursAll record member
    exact (compares.less_eq occursHere occursMax).symm
  unfold searchCandidates rankedResults liveOf
  unfold liveOf at closer
  rw [List.filter_map, List.filter_filter, List.filter_filter]
  refine congrArg (List.map _) (List.filter_congr ?_)
  intro record member
  rw [Function.comp_apply, listed.isPendingDelete_eq]
  cases flag : record.isDeleted with
  | true => rw [Bool.not_true, Bool.and_false, Bool.false_and, Bool.false_and]
  | false =>
      have isLive : record ∈ stored.filter fun other => !other.isDeleted :=
        List.mem_filter.mpr ⟨member, by rw [flag]; rfl⟩
      rw [closer record isLive, Bool.not_false, Bool.and_true, Bool.true_and, Bool.and_comm]

/-- The array of a search over record values is the top of the ranked results. -/
theorem searchStored_exact (compares : Compares distances occurs value)
    (occursMax : occurs distances.fltMax) (listed : QueueListed pending pendingCount)
    (positive : topK ≠ 0) (small : topK.toNat ≤ 2 ^ 31) {stored : List (StoredRecord dimension)}
    (occursAll : ∀ record ∈ liveOf stored,
      occurs (distances.calculate metric dimension record.vector query)) :
    searchStored distances metric query topK pending pendingCount (liveOf stored)
        (List.replicate topK.toNat (SearchResult.empty distances)) =
      some (topResults distances value topK.toNat
        (rankedResults distances metric query (pending.getD []) stored)) := by
  have occurring : ∀ result ∈ List.replicate topK.toNat (SearchResult.empty distances),
      occurs result.calculatedDistance := by
    intro result member
    rw [List.eq_of_mem_replicate member]
    exact occursMax
  rw [searchStored_eq compares positive small occursAll List.length_replicate
    (emptyResults_sorted topK.toNat) occurring, TopK.offerAll_replicate,
    candidates_below compares occursMax listed occursAll, TopK.stableSort_length]
  rfl

end Ranking

/-! ### Exhaustive search -/

section Flat

variable (data : List UInt8) (storage : Storage)

/-- A record of the array with the vector that its pointer leads to. -/
def Record.followed (dimension : UInt64) (record : Record) : StoredRecord dimension :=
  let vector := (readVector data storage dimension record.vector).getD
    ⟨List.replicate dimension.toNat 0, List.length_replicate⟩
  { id := record.id
    vector := vector.val
    vector_length := vector.property
    metadata := record.metadata
    isDeleted := record.isDeleted }

/-- The vector pointers that an exhaustive search follows can be followed. -/
def SearchReadable (dimension : UInt64) (queued : List UInt64) (records : List Record) : Prop :=
  ∀ record ∈ records, record.isDeleted = false → record.id ∉ queued →
    (readVector data storage dimension record.vector).isSome = true

variable {data storage} {δ : Type} {distances : Distances δ} {metric : MetricType}
  {query : List UInt32} {pending : Option (List UInt64)} {pendingCount : Nat}

theorem flatSearchLoop_followed (listed : QueueListed pending pendingCount)
    {records : List Record}
    (readable : SearchReadable data storage dimension (pending.getD []) records)
    (topK : UInt64) (results : List (SearchResult δ)) :
    flatSearchLoop distances data storage dimension metric query topK pending pendingCount
        records results =
      searchStored distances metric query topK pending pendingCount
        (liveOf (records.map (Record.followed data storage dimension))) results := by
  induction records generalizing results with
  | nil => rfl
  | cons record rest ih =>
      have restReadable : SearchReadable data storage dimension (pending.getD []) rest :=
        fun other member => readable other (List.mem_cons_of_mem record member)
      rw [List.map_cons]
      cases flag : record.isDeleted with
      | true =>
          have skipped : ∀ others,
              liveOf (record.followed data storage dimension :: others) = liveOf others :=
            fun others => List.filter_cons_of_neg (by simp [Record.followed, flag])
          rw [skipped, flatSearchLoop, flag, Bool.true_or, if_pos rfl, ih restReadable]
      | false =>
          have kept : ∀ others, liveOf (record.followed data storage dimension :: others) =
              record.followed data storage dimension :: liveOf others :=
            fun others => List.filter_cons_of_pos (by simp [Record.followed, flag])
          rw [kept, flatSearchLoop, searchStored, flag, Bool.false_or]
          change (if isPendingDelete record.id pending pendingCount = true then _ else _) =
            if isPendingDelete record.id pending pendingCount = true then _ else _
          by_cases queued : isPendingDelete record.id pending pendingCount = true
          · rw [if_pos queued, if_pos queued, ih restReadable]
          · have notQueued : record.id ∉ pending.getD [] := by
              rw [← isPendingDelete_iff listed.sorted listed.counted]
              exact queued
            obtain ⟨vector, vectorEq⟩ := Option.isSome_iff_exists.mp
              (readable record (List.mem_cons_self ..) flag notQueued)
            have sameVector : (record.followed data storage dimension).vector = vector.val := by
              simp only [Record.followed, vectorEq, Option.getD_some]
            rw [if_neg queued, if_neg queued, vectorEq, sameVector]
            dsimp only
            split
            · rename_i refused
              rw [Record.followed, refused]
            · rename_i next offered
              rw [Record.followed, offered, ih restReadable]

/-- `flat_search` returns the true top `top_k`. -/
theorem flat_search_exact {α : Type} [LinearOrder α] (distances : Distances δ) (value : δ → α)
    {data : List UInt8} {db : FlatDb} (query : List UInt32) {topK : UInt64}
    (atLeastOne : 1 ≤ topK.toNat) (atMost : topK.toNat ≤ 10000)
    (listed : QueueListed db.pendingDeletes db.pendingCount)
    (readable : SearchReadable data db.storage db.dimension (db.pendingDeletes.getD []) db.records)
    (compares : Compares distances
      (Compared distances db.calculateDistance query
        (liveOf (db.records.map (Record.followed data db.storage db.dimension)))) value) :
    flatSearch distances data db query topK =
      some (0, topResults distances value topK.toNat
        (rankedResults distances db.calculateDistance query (db.pendingDeletes.getD [])
          (db.records.map (Record.followed data db.storage db.dimension)))) := by
  have positive : topK ≠ 0 := by
    rintro rfl
    exact absurd atLeastOne (by decide)
  let live := liveOf (db.records.map (Record.followed data db.storage db.dimension))
  have occursAll : ∀ record ∈ live, Compared distances db.calculateDistance query live
      (distances.calculate db.calculateDistance db.dimension record.vector query) :=
    fun record member => Or.inr ⟨record, member, rfl⟩
  rw [flatSearch, if_neg positive, flatSearchLoop_followed listed readable,
    searchStored_exact compares (Or.inl rfl) listed positive (by omega) occursAll,
    Option.map_some]

/-- Two records, one of them queued, and three slots. -/
theorem flat_search_exact_on_pair :
    flatSearch gapOps.toDistances pairFile (withPending pairTable (some [8]) 1) [1065353217] 3 =
      some (0, topResults gapOps.toDistances UInt32.toNat 3
        (rankedResults gapOps.toDistances .cosine [1065353217] [8]
          (pairTable.records.map (Record.followed pairFile pairTable.storage 1)))) :=
  flat_search_exact gapOps.toDistances UInt32.toNat [1065353217] (by decide) (by decide)
    ⟨List.pairwise_singleton _ _, rfl⟩
    (fun record member _ _ => pairTable_mirrors.readable record member) (gapOps_compares _)

end Flat

end OriginDb
