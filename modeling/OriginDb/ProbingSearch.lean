/-
The probing search is exact on the clusters it probes.

While `nprobe` does not exceed the number of clusters and every centroid is
closer than 1e30, the table of candidates is the beginning of the clusters sorted
by their distances.  The search then ranks the records behind the offsets of
these clusters, and a wider search sees the same records and more.
-/

import OriginDb.ExactSearch

namespace OriginDb

open Foundation

/-! ### The table of clusters -/

section Clusters

variable (ops : FloatOps)

/-- The `while` loop passes only clusters that are farther away. -/
theorem shiftClusters_passed (dis : UInt32) {start : Nat} {best : List ClusterDist}
    (inside : start < best.length) {target : Nat} {moved : List ClusterDist}
    (ran : shiftClusters ops dis start best = (target, moved)) {position : Nat}
    (above : target ≤ position) (below : position < start) {cluster : ClusterDist}
    (found : best[position]? = some cluster) : ops.less dis cluster.dis = true := by
  induction start generalizing best with
  | zero => omega
  | succ index ih =>
      have atIndex : best[index]? = some best[index] := List.getElem?_eq_getElem (by omega)
      rw [shiftClusters, atIndex] at ran
      dsimp only at ran
      by_cases closer : ops.less dis best[index].dis = true
      · rw [if_pos closer] at ran
        by_cases last : position = index
        · subst last
          cases Option.some.inj (atIndex.symm.trans found)
          exact closer
        · refine ih ?_ ran (by omega) ?_
          · rw [List.length_set]
            omega
          · rw [List.getElem?_set_ne (by omega)]
            exact found
      · rw [if_neg closer] at ran
        cases ran
        omega

variable {ops} {α : Type} [LinearOrder α] {occurs : UInt32 → Prop} {value : UInt32 → α}

def ClusterDist.key (value : UInt32 → α) (chosen : ClusterDist) : α := value chosen.dis

/-- One cluster is placed among the kept ones, of which the last is dropped. -/
theorem offerCluster_eq (compares : Compares ops.toDistances occurs value)
    {best : List ClusterDist} (nonempty : best ≠ [])
    (sorted : TopK.Sorted (ClusterDist.key value) best)
    (occurring : ∀ chosen ∈ best, occurs chosen.dis) (candidate : ClusterDist)
    (occursHere : occurs candidate.dis) :
    offerCluster ops candidate.clusterIdx candidate.dis best =
      some (TopK.offer (ClusterDist.key value) best.length candidate best) := by
  have closer : ∀ chosen ∈ best, ops.less candidate.dis chosen.dis = true ↔
      ClusterDist.key value candidate < ClusterDist.key value chosen :=
    fun chosen member => compares _ _ occursHere (occurring chosen member)
  have lengthPos := List.length_pos_iff.mpr nonempty
  have lastInside : best.length - 1 < best.length := by omega
  have lastEq : best.getLast? = some best[best.length - 1] := by
    rw [List.getLast?_eq_getElem?, List.getElem?_eq_getElem lastInside]
  by_cases enters : ops.less candidate.dis best[best.length - 1].dis = true
  · obtain ⟨target, moved, ran⟩ : ∃ target moved,
        shiftClusters ops candidate.dis (best.length - 1) best = (target, moved) := ⟨_, _, rfl⟩
    obtain ⟨low, sameLength, shifted, stopped⟩ :=
      shiftClusters_spec ops candidate.dis lastInside ran
    have placed : TopK.place (ClusterDist.key value) candidate best =
        best.take target ++ candidate :: best.drop target := by
      apply TopK.place_at _ sorted
      · intro before other targetEq found
        rw [← closer other (List.mem_of_getElem? found)]
        exact stopped before other targetEq found
      · omega
      · intro other found
        rw [← closer other (List.mem_of_getElem? found)]
        rcases Nat.eq_or_lt_of_le low with last | earlier
        · rw [last, List.getElem?_eq_getElem lastInside] at found
          cases Option.some.inj found
          exact enters
        · exact shiftClusters_passed ops candidate.dis lastInside ran (Nat.le_refl _) earlier found
    have inserted := TopK.set_eq_insert (by omega : best.length = best.length - 1 + 1) sameLength
      low shifted candidate
    rw [offerCluster_of_closer ops candidate.clusterIdx lastEq enters ran]
    rw [inserted, TopK.offer, placed, Nat.sub_add_cancel lengthPos]
  · have notCloser := enters
    rw [closer _ (List.getElem_mem lastInside)] at notCloser
    rw [offerCluster, lastEq]
    dsimp only
    rw [if_neg enters, TopK.offer_of_last _ sorted rfl lastEq notCloser]

variable (ops) (dimension : UInt64) (metric : MetricType) (query : List UInt32)

def centroidDistance (cluster : Cluster) : UInt32 :=
  ops.calculate metric dimension cluster.centroidVector query

/-- What the loop over the clusters offers: an index and the distance there. -/
def indexedDistance (entry : Cluster × Nat) : ClusterDist where
  dis := centroidDistance ops dimension metric query entry.1
  clusterIdx := entry.2

variable {ops dimension metric query}

theorem nearestClusters_eq (compares : Compares ops.toDistances occurs value)
    {clusters : List Cluster}
    (occursAll : ∀ cluster ∈ clusters, occurs (centroidDistance ops dimension metric query cluster))
    (index : Nat) {best : List ClusterDist} (nonempty : best ≠ [])
    (sorted : TopK.Sorted (ClusterDist.key value) best)
    (occurring : ∀ chosen ∈ best, occurs chosen.dis) :
    nearestClusters ops dimension metric query clusters index best =
      some (TopK.offerAll (ClusterDist.key value) best.length
        ((clusters.zipIdx index).map (indexedDistance ops dimension metric query)) best) := by
  induction clusters generalizing index best with
  | nil => rfl
  | cons cluster rest ih =>
      let candidate := indexedDistance ops dimension metric query (cluster, index)
      have occursHere : occurs candidate.dis := occursAll cluster (List.mem_cons_self ..)
      have offered := offerCluster_eq compares nonempty sorted occurring candidate occursHere
      have lengthEq := TopK.offer_length (ClusterDist.key value) candidate (rfl : best.length = _)
      have stillNonempty :
          TopK.offer (ClusterDist.key value) best.length candidate best ≠ [] := by
        rw [← List.length_pos_iff, lengthEq]
        exact List.length_pos_iff.mpr nonempty
      have occurringNext : ∀ chosen ∈
          TopK.offer (ClusterDist.key value) best.length candidate best, occurs chosen.dis := by
        intro chosen member
        rcases TopK.mem_of_mem_offer _ member with rfl | earlier
        · exact occursHere
        · exact occurring chosen earlier
      have later := ih (fun other member => occursAll other (List.mem_cons_of_mem cluster member))
        (index + 1) stillNonempty (TopK.offer_sorted _ _ _ sorted) occurringNext
      rw [lengthEq] at later
      have offeredHere : offerCluster ops index
          (ops.calculate metric dimension cluster.centroidVector query) best = _ := offered
      rw [nearestClusters, offeredHere]
      exact later

variable (ops dimension metric query) (value)

/-- The clusters by the distance of their centroids, equal distances by index. -/
def clustersByDistance (clusters : List Cluster) : List Cluster :=
  TopK.stableSort (fun cluster => value (centroidDistance ops dimension metric query cluster))
    clusters

/-- The offsets of the `nprobe` nearest clusters, the nearest first. -/
def probedOffsets (clusters : List Cluster) (nprobe : Nat) : List UInt64 :=
  ((clustersByDistance ops value dimension metric query clusters).take nprobe).flatMap
    Cluster.byteOffsets

variable {ops dimension metric query value}

theorem offsetsOf_zipIdx {clusters : List Cluster} {entry : Cluster × Nat}
    (member : entry ∈ clusters.zipIdx) :
    entry.2 < clusters.length ∧ offsetsOf clusters entry.2 = entry.1.byteOffsets := by
  have found := List.mem_zipIdx_iff_getElem?.mp member
  refine ⟨(List.getElem?_eq_some_iff.mp found).1, ?_⟩
  rw [offsetsOf, found, Option.map_some, Option.getD_some]

/-- The table after the loop, when every centroid is closer than the sentinel. -/
theorem nearestClusters_close {clusters : List Cluster} {nprobe : Nat} (atLeastOne : 1 ≤ nprobe)
    (atMost : nprobe ≤ clusters.length) (compares : Compares ops.toDistances occurs value)
    (occursHuge : occurs ops.huge)
    (occursAll : ∀ cluster ∈ clusters, occurs (centroidDistance ops dimension metric query cluster))
    (close : AllClose ops dimension metric query clusters) :
    let indexed := indexedDistance ops dimension metric query
    nearestClusters ops dimension metric query clusters 0
        (List.replicate nprobe (unchosen ops)) =
      some (((TopK.stableSort (ClusterDist.key value ∘ indexed) clusters.zipIdx).take
        nprobe).map indexed) := by
  intro indexed
  let key := ClusterDist.key value
  have nonempty : List.replicate nprobe (unchosen ops) ≠ [] := by
    rw [Ne, List.replicate_eq_nil_iff]
    omega
  have sorted : TopK.Sorted key (List.replicate nprobe (unchosen ops)) :=
    List.pairwise_replicate.mpr (Or.inr (le_refl _))
  have occurring : ∀ chosen ∈ List.replicate nprobe (unchosen ops), occurs chosen.dis := by
    intro chosen member
    rw [List.eq_of_mem_replicate member]
    exact occursHuge
  have allBelow : (clusters.zipIdx.map indexed).filter
      (fun chosen => key chosen < key (unchosen ops)) = clusters.zipIdx.map indexed := by
    rw [List.filter_eq_self]
    intro chosen member
    obtain ⟨entry, entryMember, rfl⟩ := List.mem_map.mp member
    have isCluster : entry.1 ∈ clusters :=
      List.mem_of_getElem? (List.mem_zipIdx_iff_getElem?.mp entryMember)
    rw [decide_eq_true_iff]
    exact (compares _ _ (occursAll entry.1 isCluster) occursHuge).mp (close entry.1 isCluster)
  have best := nearestClusters_eq compares occursAll 0 nonempty sorted occurring
  rw [List.length_replicate, TopK.offerAll_replicate, allBelow, TopK.stableSort_length,
    List.length_map, List.length_zipIdx, Nat.sub_eq_zero_of_le atMost, List.replicate_zero,
    List.append_nil, ← TopK.stableSort_map, ← List.map_take] at best
  exact best

/-- `ivf_search` fetches the offsets of the nearest clusters in order. -/
theorem ivfSearch_eq {clusters : List Cluster} {nprobe k : UInt64}
    (full : clusters.length = k.toNat)
    (counted : ∀ cluster ∈ clusters, cluster.count.toNat = cluster.byteOffsets.length)
    (atLeastOne : 1 ≤ nprobe.toNat) (atMost : nprobe.toNat ≤ k.toNat)
    (compares : Compares ops.toDistances occurs value) (occursHuge : occurs ops.huge)
    (occursAll : ∀ cluster ∈ clusters, occurs (centroidDistance ops dimension metric query cluster))
    (close : AllClose ops dimension metric query clusters) :
    ivfSearch ops clusters query nprobe k dimension metric =
      some (probedOffsets ops value dimension metric query clusters nprobe.toNat) := by
  let indexed := indexedDistance ops dimension metric query
  let entries := TopK.stableSort (ClusterDist.key value ∘ indexed) clusters.zipIdx
  have best : nearestClusters ops dimension metric query clusters 0 _ =
      some ((entries.take nprobe.toNat).map indexed) :=
    nearestClusters_close atLeastOne (by omega) compares occursHuge occursAll close
  have placed : ∀ entry ∈ entries.take nprobe.toNat, entry ∈ clusters.zipIdx := fun entry member =>
    (TopK.stableSort_perm _ _).mem_iff.mp (List.mem_of_mem_take member)
  have inside : ∀ chosen ∈ (entries.take nprobe.toNat).map indexed,
      chosen.clusterIdx < clusters.length := by
    intro chosen member
    obtain ⟨entry, entryMember, rfl⟩ := List.mem_map.mp member
    exact (offsetsOf_zipIdx (placed entry entryMember)).1
  have byDistance : entries.map Prod.fst =
      clustersByDistance ops value dimension metric query clusters := by
    have mapped := TopK.stableSort_map
      (fun cluster => value (centroidDistance ops dimension metric query cluster))
      (Prod.fst : Cluster × Nat → Cluster) clusters.zipIdx
    rw [List.zipIdx_map_fst] at mapped
    exact mapped
  have offsetsEq : ((entries.take nprobe.toNat).map indexed).map
      (fun chosen => offsetsOf clusters chosen.clusterIdx) =
        ((clustersByDistance ops value dimension metric query clusters).take nprobe.toNat).map
          Cluster.byteOffsets := by
    rw [← byDistance, ← List.map_take, List.map_map, List.map_map]
    exact List.map_congr_left fun entry member => (offsetsOf_zipIdx (placed entry member)).2
  have allClusters : clusters.take k.toNat = clusters := by
    rw [← full, List.take_length]
  unfold unchosen at best
  rw [ivfSearch, if_neg (by omega), allClusters, best]
  dsimp only
  rw [mapM_clusterIds counted inside, offsetsEq, Option.map_some, ← List.flatMap_def]
  rfl

end Clusters

/-! ### The results -/

section Results

variable {dimension : UInt64}

/-- A record starts at an offset of the file, and the mapping shows all of it. -/
structure RecordAt (data : List UInt8) (storage : Storage) (byteOffset : UInt64)
    (stored : StoredRecord dimension) : Prop where
  frame : stored.encode <+: data.drop byteOffset.toNat
  canonical : stored.canon = stored
  covered : byteOffset.toNat + stored.encode.length ≤ storage.fileSize.toNat

/-- The file is mapped, up to the size the handle remembers. -/
structure FileMapped (data : List UInt8) (storage : Storage) : Prop where
  mapped : storage.mmapData ≠ none
  inFile : storage.fileSize.toNat ≤ data.length
  small : data.length < 2 ^ 63

theorem RecordAt.fetchStored {data : List UInt8} {storage : Storage} {byteOffset : UInt64}
    {stored : StoredRecord dimension} (located : RecordAt data storage byteOffset stored)
    (fileMapped : FileMapped data storage) :
    OriginDb.fetchStored data storage dimension byteOffset = some stored := by
  have mappedSmall : storage.fileSize.toNat < 2 ^ 63 :=
    Nat.lt_of_le_of_lt fileMapped.inFile fileMapped.small
  have fetched := fetchStored_of_frame located.frame fileMapped.mapped located.covered mappedSmall
    fileMapped.small
  rw [located.canonical] at fetched
  exact fetched

variable {ops : FloatOps} {α : Type} [LinearOrder α] {value : UInt32 → α} {data : List UInt8}
  {db : FlatDb} {query : List UInt32} {topK nprobe k : UInt64} {clusters : List Cluster}
  {recordAt : UInt64 → StoredRecord db.dimension} {fetched : List UInt64}

/-- The search ranks the records behind the fetched offsets. -/
theorem dbAnnSearch_of_fetched
    (probed : ivfSearch ops clusters query nprobe k db.dimension db.calculateDistance =
      some fetched)
    (fileMapped : FileMapped data db.storage)
    (located : ∀ offset ∈ fetched, RecordAt data db.storage offset (recordAt offset))
    (positive : topK ≠ 0) (small : topK.toNat ≤ 2 ^ 31)
    (listed : QueueListed db.pendingDeletes db.pendingCount)
    (compares : Compares ops.toDistances
      (Compared ops.toDistances db.calculateDistance query (fetched.map recordAt)) value) :
    dbAnnSearch ops data db query topK nprobe clusters k =
      some (0, topResults ops.toDistances value topK.toNat
        (rankedResults ops.toDistances db.calculateDistance query (db.pendingDeletes.getD [])
          (fetched.map recordAt))) := by
  have fetches : ∀ offset ∈ fetched,
      fetchStored data db.storage db.dimension offset = some (recordAt offset) :=
    fun offset member => (located offset member).fetchStored fileMapped
  have found : ∀ offset ∈ fetched,
      (fetchStored data db.storage db.dimension offset).isSome = true := by
    intro offset member
    rw [fetches offset member]
    rfl
  have storedEq : fetched.filterMap (fetchStored data db.storage db.dimension) =
      fetched.map recordAt :=
    calc fetched.filterMap (fetchStored data db.storage db.dimension)
        = fetched.filterMap (fun offset => some (recordAt offset)) := List.filterMap_congr fetches
      _ = fetched.map recordAt := congrFun List.filterMap_eq_map' _
  have occursAll : ∀ record ∈ liveOf (fetched.map recordAt),
      Compared ops.toDistances db.calculateDistance query (fetched.map recordAt)
        (ops.calculate db.calculateDistance db.dimension record.vector query) :=
    fun record member => Or.inr ⟨record, List.mem_of_mem_filter member, rfl⟩
  rw [dbAnnSearch, probed]
  dsimp only
  rw [annSearchLoop_eq ops db.calculateDistance query topK db.pendingDeletes db.pendingCount found,
    storedEq, searchStored_exact compares (Or.inl rfl) listed positive small occursAll,
    Option.map_some]

/-! ### Wider searches -/

theorem rankedResults_append {δ : Type} (distances : Distances δ) (metric : MetricType)
    (query : List UInt32) (queued : List UInt64) (first second : List (StoredRecord dimension)) :
    rankedResults distances metric query queued (first ++ second) =
      rankedResults distances metric query queued first ++
        rankedResults distances metric query queued second := by
  unfold rankedResults
  rw [List.filter_append, List.map_append]

/-- More ranked results leave no slot with a larger distance. -/
theorem topResults_noFarther {δ : Type} {distances : Distances δ} {value : δ → α} {topK : Nat}
    {first second : List (SearchResult δ)}
    (below : ∀ result ∈ first ++ second,
      SearchResult.key value result < SearchResult.key value (SearchResult.empty distances)) :
    TopK.NoFarther (SearchResult.key value) (topResults distances value topK (first ++ second))
      (topResults distances value topK first) := by
  have offeredEq : ∀ ranked : List (SearchResult δ), (∀ result ∈ ranked,
      SearchResult.key value result < SearchResult.key value (SearchResult.empty distances)) →
      topResults distances value topK ranked =
        TopK.offerAll (SearchResult.key value) topK ranked
          (List.replicate topK (SearchResult.empty distances)) := by
    intro ranked rankedBelow
    have unfiltered : ranked.filter (fun result => SearchResult.key value result <
        SearchResult.key value (SearchResult.empty distances)) = ranked :=
      List.filter_eq_self.mpr fun result member => decide_eq_true (rankedBelow result member)
    rw [TopK.offerAll_replicate, unfiltered, TopK.stableSort_length]
    rfl
  have sortedFirst : TopK.Sorted (SearchResult.key value)
      (TopK.offerAll (SearchResult.key value) topK first
        (List.replicate topK (SearchResult.empty distances))) := by
    rw [TopK.offerAll_eq _ first List.length_replicate]
    exact (TopK.placeAll_sorted _ first (emptyResults_sorted topK)).sublist
      (List.take_sublist topK _)
  have fullFirst : (TopK.offerAll (SearchResult.key value) topK first
      (List.replicate topK (SearchResult.empty distances))).length = topK := by
    rw [TopK.offerAll_eq _ first List.length_replicate, List.length_take,
      (TopK.placeAll_perm _ first _).length_eq, List.length_append, List.length_replicate]
    omega
  rw [offeredEq _ below, offeredEq first fun result member =>
    below result (List.mem_append_left second member), TopK.offerAll_append]
  exact TopK.offerAll_noFarther second sortedFirst fullFirst

theorem rankedResults_below {δ : Type} {distances : Distances δ} {value : δ → α}
    {metric : MetricType} (queued : List UInt64) {stored : List (StoredRecord dimension)}
    (compares : Compares distances (Compared distances metric query stored) value) :
    ∀ result ∈ rankedResults distances metric query queued stored,
      SearchResult.key value result < SearchResult.key value (SearchResult.empty distances) := by
  intro result member
  obtain ⟨record, kept, rfl⟩ := List.mem_map.mp member
  obtain ⟨isStored, passes⟩ := List.mem_filter.mp kept
  rw [Bool.and_eq_true] at passes
  exact (compares _ _ (Or.inr ⟨record, isStored, rfl⟩) (Or.inl rfl)).mp passes.2

/-- A search of more records leaves no slot with a larger distance. -/
theorem searchMore_noFarther {δ : Type} {distances : Distances δ} {value : δ → α}
    {metric : MetricType} (queued : List UInt64) {topK : Nat}
    {stored more : List (StoredRecord dimension)}
    (compares : Compares distances (Compared distances metric query (stored ++ more)) value) :
    TopK.NoFarther (SearchResult.key value)
      (topResults distances value topK
        (rankedResults distances metric query queued (stored ++ more)))
      (topResults distances value topK (rankedResults distances metric query queued stored)) := by
  have below := rankedResults_below queued compares
  rw [rankedResults_append] at below ⊢
  exact topResults_noFarther below

theorem Compares.of_fewer {δ : Type} {distances : Distances δ} {value : δ → α}
    {metric : MetricType} {more stored : List (StoredRecord dimension)}
    (fewer : ∀ record ∈ stored, record ∈ more)
    (compares : Compares distances (Compared distances metric query more) value) :
    Compares distances (Compared distances metric query stored) value := by
  have occursMore : ∀ dis, Compared distances metric query stored dis →
      Compared distances metric query more dis := by
    intro dis compared
    rcases compared with isMax | ⟨record, member, isDistance⟩
    · exact Or.inl isMax
    · exact Or.inr ⟨record, fewer record member, isDistance⟩
  intro first second firstOccurs secondOccurs
  exact compares first second (occursMore first firstOccurs) (occursMore second secondOccurs)

theorem mem_of_mem_probedOffsets {metric : MetricType} {nprobe : Nat} {offset : UInt64}
    (member : offset ∈ probedOffsets ops value dimension metric query clusters nprobe) :
    ∃ cluster ∈ clusters, offset ∈ cluster.byteOffsets := by
  obtain ⟨cluster, chosen, inCluster⟩ := List.mem_flatMap.mp member
  exact ⟨cluster, (TopK.stableSort_perm _ clusters).mem_iff.mp (List.mem_of_mem_take chosen),
    inCluster⟩

/-- The clusters that only a wider search probes come behind the others. -/
theorem probedOffsets_prefix {metric : MetricType} {narrow wide : Nat} (le : narrow ≤ wide) :
    probedOffsets ops value dimension metric query clusters narrow <+:
      probedOffsets ops value dimension metric query clusters wide := by
  let byDistance := clustersByDistance ops value dimension metric query clusters
  have isPart : byDistance.take narrow <+: byDistance.take wide := List.take_prefix_take_left le
  obtain ⟨extra, takeEq⟩ := isPart
  refine ⟨extra.flatMap Cluster.byteOffsets, ?_⟩
  exact List.flatMap_append.symm.trans (congrArg (List.flatMap Cluster.byteOffsets) takeEq)

/-- Up to one probe per cluster, the probing search is exact on the clusters it
probes, and a wider search answers with no larger distances. -/
theorem ann_search_exact (ops : FloatOps) (value : UInt32 → α) (query : List UInt32)
    (full : clusters.length = k.toNat)
    (counted : ∀ cluster ∈ clusters, cluster.count.toNat = cluster.byteOffsets.length)
    (recordAt : UInt64 → StoredRecord db.dimension) (fileMapped : FileMapped data db.storage)
    (located : ∀ cluster ∈ clusters, ∀ offset ∈ cluster.byteOffsets,
      RecordAt data db.storage offset (recordAt offset))
    (listed : QueueListed db.pendingDeletes db.pendingCount)
    (atLeastOne : 1 ≤ nprobe.toNat) (atMost : nprobe.toNat ≤ k.toNat)
    (atLeastOneResult : 1 ≤ topK.toNat) (atMostResults : topK.toNat ≤ 10000)
    (close : AllClose ops db.dimension db.calculateDistance query clusters)
    (comparesCentroids : Compares ops.toDistances
      (fun dis => dis = ops.huge ∨ ∃ cluster ∈ clusters,
        dis = centroidDistance ops db.dimension db.calculateDistance query cluster) value)
    (comparesRecords : Compares ops.toDistances
      (Compared ops.toDistances db.calculateDistance query
        ((clusters.flatMap Cluster.byteOffsets).map recordAt)) value) :
    let probed := fun count =>
      probedOffsets ops value db.dimension db.calculateDistance query clusters count
    let results := fun count => topResults ops.toDistances value topK.toNat
      (rankedResults ops.toDistances db.calculateDistance query (db.pendingDeletes.getD [])
        ((probed count).map recordAt))
    ivfSearch ops clusters query nprobe k db.dimension db.calculateDistance =
        some (probed nprobe.toNat) ∧
      dbAnnSearch ops data db query topK nprobe clusters k = some (0, results nprobe.toNat) ∧
      ∀ wider : UInt64, nprobe ≤ wider → wider.toNat ≤ k.toNat →
        dbAnnSearch ops data db query topK wider clusters k = some (0, results wider.toNat) ∧
          List.Forall₂ (fun next old =>
            value next.calculatedDistance ≤ value old.calculatedDistance)
            (results wider.toNat) (results nprobe.toNat) := by
  intro probed results
  have positive : topK ≠ 0 := by
    rintro rfl
    exact absurd atLeastOneResult (by decide)
  have fetchedAt : ∀ count : UInt64, 1 ≤ count.toNat → count.toNat ≤ k.toNat →
      ivfSearch ops clusters query count k db.dimension db.calculateDistance =
        some (probed count.toNat) := fun count low high =>
    ivfSearch_eq full counted low high comparesCentroids (Or.inl rfl)
      (fun cluster member => Or.inr ⟨cluster, member, rfl⟩) close
  have comparesAt : ∀ count, Compares ops.toDistances
      (Compared ops.toDistances db.calculateDistance query ((probed count).map recordAt))
      value := by
    intro count
    refine comparesRecords.of_fewer ?_
    intro record member
    obtain ⟨offset, isProbed, rfl⟩ := List.mem_map.mp member
    obtain ⟨cluster, isCluster, inCluster⟩ := mem_of_mem_probedOffsets isProbed
    exact List.mem_map_of_mem (List.mem_flatMap.mpr ⟨cluster, isCluster, inCluster⟩)
  have answersAt : ∀ count : UInt64, 1 ≤ count.toNat → count.toNat ≤ k.toNat →
      dbAnnSearch ops data db query topK count clusters k = some (0, results count.toNat) := by
    intro count low high
    refine dbAnnSearch_of_fetched (fetchedAt count low high) fileMapped ?_ positive (by omega)
      listed (comparesAt count.toNat)
    intro offset isProbed
    obtain ⟨cluster, isCluster, inCluster⟩ := mem_of_mem_probedOffsets isProbed
    exact located cluster isCluster offset inCluster
  refine ⟨fetchedAt nprobe atLeastOne atMost, answersAt nprobe atLeastOne atMost, ?_⟩
  intro wider notNarrower inRange
  rw [UInt64.le_iff_toNat_le] at notNarrower
  refine ⟨answersAt wider (by omega) inRange, ?_⟩
  obtain ⟨more, probedEq⟩ : probed nprobe.toNat <+: probed wider.toNat :=
    probedOffsets_prefix notNarrower
  have comparesWider := comparesAt wider.toNat
  have resultsEq : results wider.toNat = topResults ops.toDistances value topK.toNat
      (rankedResults ops.toDistances db.calculateDistance query (db.pendingDeletes.getD [])
        ((probed nprobe.toNat).map recordAt ++ more.map recordAt)) := by
    rw [← List.map_append, probedEq]
  rw [← probedEq, List.map_append] at comparesWider
  rw [resultsEq]
  exact searchMore_noFarther _ comparesWider

end Results

/-! ### Two clusters -/

def clusterAt (centroid : UInt32) (byteOffsets : List UInt64) : Cluster where
  centroidVector := [centroid]
  recordIndex := []
  count := UInt64.ofNat byteOffsets.length
  capacity := UInt64.ofNat byteOffsets.length
  byteOffsets := byteOffsets

def pairClusters : List Cluster :=
  [clusterAt 1073741824 [32], clusterAt 1065353216 [0]]

def pairRecordAt (byteOffset : UInt64) : StoredRecord 1 :=
  if byteOffset = 0 then sampleRecord else otherRecord

theorem pairClusters_counted : ∀ cluster ∈ pairClusters,
    cluster.count.toNat = cluster.byteOffsets.length := by
  intro cluster member
  rcases List.mem_cons.mp member with rfl | second
  · rfl
  · rw [List.mem_singleton.mp second]
    rfl

theorem pairClusters_located : ∀ cluster ∈ pairClusters, ∀ offset ∈ cluster.byteOffsets,
    RecordAt pairFile pairTable.storage offset (pairRecordAt offset) := by
  intro cluster member offset inCluster
  rcases List.mem_cons.mp member with rfl | second
  · rw [List.mem_singleton.mp inCluster]
    exact ⟨by decide, rfl, by decide⟩
  · rw [List.mem_singleton.mp second] at inCluster
    rw [List.mem_singleton.mp inCluster]
    exact ⟨by decide, rfl, by decide⟩

theorem ann_search_exact_on_pair :
    let probed := fun count =>
      probedOffsets gapOps UInt32.toNat 1 .cosine [1065353217] pairClusters count
    let results := fun count => topResults gapOps.toDistances UInt32.toNat 3
      (rankedResults gapOps.toDistances .cosine [1065353217] []
        ((probed count).map pairRecordAt))
    ivfSearch gapOps pairClusters [1065353217] 1 2 1 .cosine = some (probed 1) ∧
      dbAnnSearch gapOps pairFile pairTable [1065353217] 3 1 pairClusters 2 =
          some (0, results 1) ∧
        ∀ wider : UInt64, 1 ≤ wider → wider.toNat ≤ 2 →
          dbAnnSearch gapOps pairFile pairTable [1065353217] 3 wider pairClusters 2 =
              some (0, results wider.toNat) ∧
            List.Forall₂ (fun next old =>
              next.calculatedDistance.toNat ≤ old.calculatedDistance.toNat)
              (results wider.toNat) (results 1) := by
  have close : AllClose gapOps 1 .cosine [1065353217] pairClusters :=
    List.all_eq_true.mp (by decide)
  have listed : QueueListed pairTable.pendingDeletes pairTable.pendingCount :=
    ⟨List.Pairwise.nil, rfl⟩
  have fileMapped : FileMapped pairFile pairTable.storage := ⟨by decide, by decide, by decide⟩
  exact ann_search_exact gapOps UInt32.toNat [1065353217]
    (by decide : pairClusters.length = (2 : UInt64).toNat) pairClusters_counted pairRecordAt
    fileMapped pairClusters_located listed (by decide : 1 ≤ (1 : UInt64).toNat) (by decide)
    (by decide : 1 ≤ (3 : UInt64).toNat) (by decide) close (gapOps_compares _) (gapOps_compares _)

end OriginDb
