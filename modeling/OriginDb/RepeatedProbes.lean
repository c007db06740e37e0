/-
When a probing search meets a record twice.

The table of `ivf_search` starts with sentinels that name cluster 0, and each
cluster closer than 1e30 takes the place of one of them.  A sentinel that is left
makes the search fetch cluster 0 once more; a cluster that is no closer than 1e30
is not fetched, unless it is cluster 0.  The comparison of floats is assumed to
be transitive and nothing else, so that NaN is allowed.
-/

import OriginDb.ProbingSearch

namespace OriginDb

open Foundation

section Table

variable (ops : FloatOps)

/-- The entries of the table in front of `free` sentinels: clusters closer than
the sentinels, and all of those while a sentinel is left. -/
structure TableOf (indices : List Nat) (chosen : List ClusterDist) (free : Nat) : Prop where
  named : (chosen.map ClusterDist.clusterIdx).Subperm indices
  all : 0 < free → (chosen.map ClusterDist.clusterIdx).Perm indices
  close : ∀ entry ∈ chosen, ops.less entry.dis ops.huge = true

theorem TableOf.of_perm {indices others : List Nat} {chosen : List ClusterDist} {free : Nat}
    (table : TableOf ops indices chosen free) (same : indices.Perm others) :
    TableOf ops others chosen free where
  named := table.named.trans same.subperm
  all := fun left => (table.all left).trans same
  close := table.close

/-- An entry that is exchanged for the last one. -/
theorem TableOf.exchange {indices : List Nat} {front : List ClusterDist} {worst : ClusterDist}
    (table : TableOf ops indices (front ++ [worst]) 0) {index : Nat} {dis : UInt32}
    (close : ops.less dis ops.huge = true) {next : List ClusterDist}
    (nextPerm : next.Perm ({ dis := dis, clusterIdx := index } :: front)) :
    TableOf ops (index :: indices) next 0 where
  named := by
    have frontNamed : (front.map ClusterDist.clusterIdx).Subperm indices := by
      refine List.Subperm.trans (List.Sublist.subperm ?_) table.named
      rw [List.map_append]
      exact List.sublist_append_left _ _
    have namedEq := nextPerm.map ClusterDist.clusterIdx
    exact namedEq.subperm.trans ((List.subperm_cons index).mpr frontNamed)
  all := fun left => absurd left (Nat.lt_irrefl 0)
  close := by
    intro entry member
    rcases List.mem_cons.mp (nextPerm.mem_iff.mp member) with rfl | earlier
    · exact close
    · exact table.close entry (List.mem_append_left _ earlier)

/-- Comparisons of floats are transitive. -/
def Transitive : Prop :=
  ∀ first second third, ops.less first second = true → ops.less second third = true →
    ops.less first third = true

/-- One cluster of the loop. -/
theorem TableOf.offer (transitive : Transitive ops) {indices : List Nat}
    {chosen : List ClusterDist} {free : Nat} (table : TableOf ops indices chosen free)
    (nonempty : 1 ≤ chosen.length + free) (index : Nat) (dis : UInt32) :
    ∃ chosen' free',
      offerCluster ops index dis (chosen ++ List.replicate free (unchosen ops)) =
          some (chosen' ++ List.replicate free' (unchosen ops)) ∧
        chosen'.length + free' = chosen.length + free ∧
        TableOf ops (if ops.less dis ops.huge then index :: indices else indices)
          chosen' free' := by
  cases free with
  | succ left =>
      by_cases close : ops.less dis ops.huge = true
      · obtain ⟨next, offered, nextPerm⟩ := offerCluster_unchosen ops index close chosen left
        have lengthEq := nextPerm.length_eq
        rw [List.length_cons] at lengthEq
        have namedEq := nextPerm.map ClusterDist.clusterIdx
        have allNamed : (next.map ClusterDist.clusterIdx).Perm (index :: indices) :=
          namedEq.trans ((table.all (Nat.succ_pos left)).cons index)
        refine ⟨next, left, offered, by omega, ?_⟩
        rw [if_pos close]
        refine ⟨allNamed.subperm, fun _ => allNamed, ?_⟩
        intro entry member
        rcases List.mem_cons.mp (nextPerm.mem_iff.mp member) with rfl | earlier
        · exact close
        · exact table.close entry earlier
      · have lastEq : chosen ++ List.replicate (left + 1) (unchosen ops) =
            chosen ++ List.replicate left (unchosen ops) ++ [unchosen ops] := by
          rw [List.replicate_succ', List.append_assoc]
        refine ⟨chosen, left + 1, ?_, rfl, ?_⟩
        · rw [lastEq]
          exact offerCluster_refuses ops index close
        · rw [if_neg close]
          exact table
  | zero =>
      obtain ⟨front, worst, rfl⟩ : ∃ front worst, chosen = front ++ [worst] := by
        rcases List.eq_nil_or_concat' chosen with rfl | split
        · cases nonempty
        · exact split
      rw [List.replicate_zero, List.append_nil]
      by_cases closer : ops.less dis worst.dis = true
      · have worstClose := table.close worst (List.mem_append_right _ (List.mem_singleton_self _))
        have close := transitive _ _ _ closer worstClose
        obtain ⟨target, inside, offered, -⟩ :=
          @offerCluster_inserts ops index dis front worst closer
        let candidate : ClusterDist := { dis := dis, clusterIdx := index }
        let next := front.take target ++ candidate :: front.drop target
        have nextPerm : next.Perm (candidate :: front) := by
          have moved : next.Perm (candidate :: (front.take target ++ front.drop target)) :=
            List.perm_middle
          rw [List.take_append_drop] at moved
          exact moved
        have lengthEq := nextPerm.length_eq
        rw [List.length_cons] at lengthEq
        refine ⟨next, 0, ?_, ?_, ?_⟩
        · rw [List.replicate_zero, List.append_nil]
          exact offered
        · rw [lengthEq, List.length_append, List.length_singleton]
        · rw [if_pos close]
          exact table.exchange ops close nextPerm
      · refine ⟨front ++ [worst], 0, ?_, rfl, ?_⟩
        · rw [List.replicate_zero, List.append_nil]
          exact offerCluster_refuses ops index closer
        · split
          · exact ⟨table.named.cons_right index, fun left => absurd left (Nat.lt_irrefl 0),
              table.close⟩
          · exact table

variable (dimension : UInt64) (metric : MetricType) (query : List UInt32)

def isClose (cluster : Cluster) : Bool :=
  ops.less (centroidDistance ops dimension metric query cluster) ops.huge

/-- The indices of the clusters that are closer than the sentinels. -/
def closeIndices (clusters : List Cluster) (index : Nat) : List Nat :=
  ((clusters.zipIdx index).filter fun entry =>
    isClose ops dimension metric query entry.1).map Prod.snd

theorem closeIndices_cons (cluster : Cluster) (rest : List Cluster) (index : Nat) :
    closeIndices ops dimension metric query (cluster :: rest) index =
      (if isClose ops dimension metric query cluster then [index] else []) ++
        closeIndices ops dimension metric query rest (index + 1) := by
  unfold closeIndices
  rw [List.zipIdx_cons, List.filter_cons]
  split <;> rfl

theorem nearestClusters_table (transitive : Transitive ops) (clusters : List Cluster)
    (index : Nat) {indices : List Nat} {chosen : List ClusterDist} {free : Nat}
    (table : TableOf ops indices chosen free) (nonempty : 1 ≤ chosen.length + free) :
    ∃ chosen' free',
      nearestClusters ops dimension metric query clusters index
          (chosen ++ List.replicate free (unchosen ops)) =
        some (chosen' ++ List.replicate free' (unchosen ops)) ∧
      chosen'.length + free' = chosen.length + free ∧
      TableOf ops (closeIndices ops dimension metric query clusters index ++ indices)
        chosen' free' := by
  induction clusters generalizing index indices chosen free with
  | nil => exact ⟨chosen, free, rfl, rfl, table⟩
  | cons cluster rest ih =>
      obtain ⟨next, left, offered, sameSize, nextTable⟩ := table.offer ops transitive nonempty index
        (centroidDistance ops dimension metric query cluster)
      obtain ⟨last, lastFree, ran, lastSize, lastTable⟩ :=
        ih (index + 1) nextTable (by omega)
      refine ⟨last, lastFree, ?_, by omega, lastTable.of_perm ops ?_⟩
      · have offeredHere : offerCluster ops index
            (ops.calculate metric dimension cluster.centroidVector query)
            (chosen ++ List.replicate free (unchosen ops)) = _ := offered
        rw [nearestClusters, offeredHere]
        exact ran
      · rw [closeIndices_cons]
        unfold isClose
        split
        · rw [List.append_assoc, List.singleton_append]
          exact List.perm_middle
        · exact List.Perm.refl _

variable {dimension metric query}

theorem mem_closeIndices {clusters : List Cluster} {index : Nat} :
    index ∈ closeIndices ops dimension metric query clusters 0 ↔
      ∃ cluster, clusters[index]? = some cluster ∧
        isClose ops dimension metric query cluster = true := by
  constructor
  · intro member
    obtain ⟨entry, kept, rfl⟩ := List.mem_map.mp member
    obtain ⟨inClusters, close⟩ := List.mem_filter.mp kept
    exact ⟨entry.1, List.mem_zipIdx_iff_getElem?.mp inClusters, close⟩
  · rintro ⟨cluster, found, close⟩
    have inClusters : (cluster, index) ∈ clusters.zipIdx :=
      List.mem_zipIdx_iff_getElem?.mpr found
    exact List.mem_map.mpr ⟨_, List.mem_filter.mpr ⟨inClusters, close⟩, rfl⟩

theorem closeIndices_nodup (clusters : List Cluster) :
    (closeIndices ops dimension metric query clusters 0).Nodup := by
  have indices : (clusters.zipIdx.map Prod.snd).Nodup := by
    rw [List.zipIdx_map_snd]
    exact List.nodup_range' _
  exact (List.filter_sublist.map Prod.snd).nodup indices

theorem closeIndices_length (clusters : List Cluster) :
    (closeIndices ops dimension metric query clusters 0).length =
      clusters.countP (isClose ops dimension metric query) := by
  have counted := List.countP_map (p := isClose ops dimension metric query)
    (f := (Prod.fst : Cluster × Nat → Cluster)) (l := clusters.zipIdx)
  rw [List.zipIdx_map_fst] at counted
  rw [closeIndices, List.length_map, counted, List.countP_eq_length_filter]
  rfl

end Table

/-! ### Blocks of offsets -/

/-- Blocks that no two indices share, and that repeat nothing. -/
structure Blocks (block : Nat → List UInt64) : Prop where
  nodup : ∀ index, (block index).Nodup
  disjoint : ∀ first second, first ≠ second → (block first).Disjoint (block second)

theorem blocks_offsetsOf {clusters : List Cluster}
    (distinct : (clusters.flatMap Cluster.byteOffsets).Nodup) : Blocks (offsetsOf clusters) := by
  obtain ⟨eachNodup, apart⟩ := List.nodup_flatMap.mp distinct
  have outside : ∀ index, clusters.length ≤ index → offsetsOf clusters index = [] := by
    intro index beyond
    rw [offsetsOf, List.getElem?_eq_none beyond, Option.map_none, Option.getD_none]
  have inside : ∀ index, (bound : index < clusters.length) →
      offsetsOf clusters index = clusters[index].byteOffsets := by
    intro index bound
    rw [offsetsOf, List.getElem?_eq_getElem bound, Option.map_some, Option.getD_some]
  have ordered : ∀ first second, first < second →
      (offsetsOf clusters first).Disjoint (offsetsOf clusters second) := by
    intro first second earlier
    by_cases bound : second < clusters.length
    · rw [inside first (by omega), inside second bound]
      exact List.pairwise_iff_getElem.mp apart first second (by omega) bound earlier
    · rw [outside second (by omega)]
      exact List.disjoint_nil_right _
  refine ⟨?_, ?_⟩
  · intro index
    by_cases bound : index < clusters.length
    · rw [inside index bound]
      exact eachNodup _ (List.getElem_mem bound)
    · rw [outside index (by omega)]
      exact List.nodup_nil
  · intro first second different
    rcases Nat.lt_or_gt_of_ne different with earlier | later
    · exact ordered first second earlier
    · exact List.disjoint_symm (ordered second first later)

/-- Blocks fetched by distinct indices, and block 0 some more times. -/
theorem Blocks.nodup_iff {block : Nat → List UInt64} (blocks : Blocks block) {indices : List Nat}
    (distinct : indices.Nodup) (free : Nat) :
    ((indices ++ List.replicate free 0).flatMap block).Nodup ↔
      block 0 = [] ∨ free = 0 ∨ (free = 1 ∧ 0 ∉ indices) := by
  have overlaps : (block 0).Disjoint (block 0) → block 0 = [] := by
    intro apart
    exact List.eq_nil_iff_forall_not_mem.mpr fun offset member => apart member member
  have indicesApart : indices.Pairwise (Function.onFun List.Disjoint block) :=
    distinct.imp fun {first second} different => blocks.disjoint first second different
  rw [List.nodup_flatMap, List.pairwise_append, List.pairwise_replicate]
  constructor
  · rintro ⟨-, -, repeated, across⟩
    by_cases none : free = 0
    · exact Or.inr (Or.inl none)
    · have sentinel : 0 ∈ List.replicate free 0 := List.mem_replicate.mpr ⟨none, rfl⟩
      rcases repeated with atMostOne | apart
      · by_cases member : 0 ∈ indices
        · exact Or.inl (overlaps (across 0 member 0 sentinel))
        · exact Or.inr (Or.inr ⟨by omega, member⟩)
      · exact Or.inl (overlaps apart)
  · intro condition
    refine ⟨fun index _ => blocks.nodup index, indicesApart, ?_, ?_⟩
    · rcases condition with empty | none | ⟨one, -⟩
      · refine Or.inr ?_
        change (block 0).Disjoint (block 0)
        rw [empty]
        exact List.disjoint_nil_left _
      · exact Or.inl (by omega)
      · exact Or.inl (by omega)
    · intro first firstMember second secondMember
      obtain ⟨some, rfl⟩ := List.mem_replicate.mp secondMember
      change (block first).Disjoint (block 0)
      rcases condition with empty | none | ⟨-, absent⟩
      · rw [empty]
        exact List.disjoint_nil_right _
      · exact absurd none some
      · exact blocks.disjoint first 0 fun same => absent (same ▸ firstMember)

/-! ### The slots of a search -/

section Slots

variable (ops : FloatOps) (data : List UInt8) (storage : Storage) (dimension : UInt64)
  (metric : MetricType) (query : List UInt32)

/-- A slot of the result array, with the offset of the record that fills it. -/
inductive SlotOf : Option UInt64 → SearchResult UInt32 → Prop
  | empty : SlotOf none (SearchResult.empty ops.toDistances)
  | filled {byteOffset : UInt64} {record : Record}
      {vector : { values : List UInt32 // values.length = dimension.toNat }}
      (fetched : storageFetchByOffset data storage byteOffset Record.blank dimension = .ok record)
      (read : readVector data storage dimension record.vector = some vector) :
      SlotOf (some byteOffset)
        { id := record.id
          metadata := record.metadata
          calculatedDistance := ops.calculate metric dimension vector.val query }

/-- No record fills two slots: the offsets behind the slots are distinct. -/
def FilledOnce (results : List (SearchResult UInt32)) : Prop :=
  ∃ owners : List (Option UInt64),
    List.Forall₂ (SlotOf ops data storage dimension metric query) owners results ∧
      (owners.filterMap id).Nodup

variable {ops data storage dimension metric query} {topK : UInt64}

theorem slots_insert {owners : List (Option UInt64)} {front : List (SearchResult UInt32)}
    {worst candidate : SearchResult UInt32} {byteOffset : UInt64}
    (owned : List.Forall₂ (SlotOf ops data storage dimension metric query) owners
      (front ++ [worst]))
    (filled : SlotOf ops data storage dimension metric query (some byteOffset) candidate)
    (target : Nat) :
    ∃ next : List (Option UInt64),
      List.Forall₂ (SlotOf ops data storage dimension metric query) next
          (front.take target ++ candidate :: front.drop target) ∧
        ∃ kept, kept.Sublist (owners.filterMap id) ∧
          (next.filterMap id).Perm (byteOffset :: kept) := by
  let kept := owners.take front.length
  have keptOwned := List.forall₂_take front.length owned
  rw [List.take_left] at keptOwned
  refine ⟨kept.take target ++ some byteOffset :: kept.drop target, ?_, kept.filterMap id, ?_, ?_⟩
  · exact List.rel_append (List.forall₂_take target keptOwned)
      (List.Forall₂.cons filled (List.forall₂_drop target keptOwned))
  · exact (List.take_sublist _ _).filterMap id
  · have moved : (kept.take target ++ some byteOffset :: kept.drop target).Perm
        (some byteOffset :: (kept.take target ++ kept.drop target)) := List.perm_middle
    rw [List.take_append_drop] at moved
    exact moved.filterMap id

theorem annSearchLoop_filledOnce {pending : Option (List UInt64)} {pendingCount : Nat}
    (positive : topK ≠ 0) (small : topK.toNat ≤ 2 ^ 31) {offsets : List UInt64}
    (distinct : offsets.Nodup) {owners : List (Option UInt64)}
    {results final : List (SearchResult UInt32)} (full : results.length = topK.toNat)
    (owned : List.Forall₂ (SlotOf ops data storage dimension metric query) owners results)
    (ownersDistinct : (owners.filterMap id).Nodup)
    (fresh : (owners.filterMap id).Disjoint offsets)
    (ran : annSearchLoop ops data storage dimension metric query topK pending pendingCount offsets
      results = some final) :
    FilledOnce ops data storage dimension metric query final := by
  induction offsets generalizing owners results with
  | nil =>
      cases ran
      exact ⟨owners, owned, ownersDistinct⟩
  | cons byteOffset rest ih =>
      obtain ⟨notLater, restDistinct⟩ := List.nodup_cons.mp distinct
      have restFresh : (owners.filterMap id).Disjoint rest := fun offset member later =>
        fresh member (List.mem_cons_of_mem byteOffset later)
      rw [annSearchLoop] at ran
      split at ran
      · exact ih restDistinct full owned ownersDistinct restFresh ran
      · rename_i record fetched
        split at ran
        · exact ih restDistinct full owned ownersDistinct restFresh ran
        · split at ran
          · cases ran
          · rename_i vector read
            let candidate : SearchResult UInt32 :=
              { id := record.id
                metadata := record.metadata
                calculatedDistance := ops.calculate metric dimension vector.val query }
            have filled : SlotOf ops data storage dimension metric query (some byteOffset)
                candidate := SlotOf.filled fetched read
            obtain ⟨front, worst, rfl⟩ : ∃ front worst, results = front ++ [worst] := by
              rcases List.eq_nil_or_concat' results with rfl | split
              · exact absurd (UInt64.toNat_inj.mp full.symm) positive
              · exact split
            rw [List.length_append, List.length_singleton] at full
            split at ran
            · cases ran
            · rename_i next offered
              have offeredHere : offerResult ops.toDistances topK (front ++ [worst]) candidate.id
                  candidate.metadata candidate.calculatedDistance = some next := offered
              rcases offerResult_inserts ops.toDistances full.symm small candidate with
                refused | ⟨target, inside, inserted⟩
              · cases Option.some.inj (refused.symm.trans offeredHere)
                refine ih restDistinct ?_ owned ownersDistinct restFresh ran
                rw [List.length_append, List.length_singleton, full]
              · cases Option.some.inj (inserted.symm.trans offeredHere)
                obtain ⟨nextOwners, nextOwned, kept, keptPart, nextPerm⟩ :=
                  slots_insert owned filled target
                have keptFresh : byteOffset ∉ kept := fun member =>
                  fresh (keptPart.subset member) (List.mem_cons_self ..)
                refine ih restDistinct ?_ nextOwned ?_ ?_ ran
                · rw [List.length_append, List.length_cons, List.length_take_of_le inside,
                    List.length_drop]
                  omega
                · exact nextPerm.nodup_iff.mpr
                    (List.nodup_cons.mpr ⟨keptFresh, keptPart.nodup ownersDistinct⟩)
                · intro offset member later
                  rcases List.mem_cons.mp (nextPerm.mem_iff.mp member) with rfl | earlier
                  · exact notLater later
                  · exact restFresh (keptPart.subset earlier) later

end Slots

/-! ### What one search fetches -/

section Fetched

variable (ops : FloatOps) (dimension : UInt64) (metric : MetricType) (query : List UInt32)

/-- Cluster 0 is fetched at most once: no sentinel is left, or a single one that
stands for cluster 0, which is itself no closer than 1e30. -/
def FirstClusterOnce (clusters : List Cluster) (nprobe : Nat) : Prop :=
  let close := clusters.countP (isClose ops dimension metric query)
  offsetsOf clusters 0 = [] ∨ nprobe ≤ close ∨
    (nprobe = close + 1 ∧
      ∀ first ∈ clusters.head?, isClose ops dimension metric query first = false)

/-- With a probe for every cluster, the clusters behind cluster 0 that hold
offsets are closer than 1e30. -/
def OthersClose (clusters : List Cluster) (nprobe : Nat) : Prop :=
  clusters.length ≤ nprobe → ∀ cluster ∈ clusters.tail, cluster.byteOffsets ≠ [] →
    isClose ops dimension metric query cluster = true

/-- The search fetches no offset twice, with a probe for every cluster it fetches
every offset, and no record fills two of its slots. -/
structure FetchesOnce (clusters : List Cluster) (nprobe k : UInt64) (fetched : List UInt64) :
    Prop where
  once : fetched.Nodup
  complete : k ≤ nprobe → ∀ cluster ∈ clusters, ∀ offset ∈ cluster.byteOffsets, offset ∈ fetched
  slots : ∀ (data : List UInt8) (db : FlatDb) (topK : UInt64)
    (results : List (SearchResult UInt32)), db.dimension = dimension →
    db.calculateDistance = metric → 1 ≤ topK.toNat → topK.toNat ≤ 10000 →
    dbAnnSearch ops data db query topK nprobe clusters k = some (0, results) →
    FilledOnce ops data db.storage dimension metric query results

variable {ops dimension metric query} {clusters : List Cluster} {nprobe k : UInt64}
  {fetched : List UInt64}

theorem filledOnce_of_nodup
    (probed : ivfSearch ops clusters query nprobe k dimension metric = some fetched)
    (distinct : fetched.Nodup) {data : List UInt8} {db : FlatDb} {topK : UInt64}
    {results : List (SearchResult UInt32)} (sameDimension : db.dimension = dimension)
    (sameMetric : db.calculateDistance = metric) (atLeastOne : 1 ≤ topK.toNat)
    (atMost : topK.toNat ≤ 10000)
    (ran : dbAnnSearch ops data db query topK nprobe clusters k = some (0, results)) :
    FilledOnce ops data db.storage dimension metric query results := by
  subst sameDimension sameMetric
  rw [dbAnnSearch, probed] at ran
  dsimp only at ran
  obtain ⟨final, looped, same⟩ := Option.map_eq_some_iff.mp ran
  cases same
  have positive : topK ≠ 0 := by
    rintro rfl
    exact absurd atLeastOne (by decide)
  have noOwners : (List.replicate topK.toNat (none : Option UInt64)).filterMap id = [] := by
    rw [List.filterMap_replicate]
    rfl
  have owned : List.Forall₂
      (SlotOf ops data db.storage db.dimension db.calculateDistance query)
      (List.replicate topK.toNat none)
      (List.replicate topK.toNat (SearchResult.empty ops.toDistances)) := by
    generalize topK.toNat = slots
    induction slots with
    | zero => exact List.Forall₂.nil
    | succ slots ih => exact List.Forall₂.cons SlotOf.empty ih
  refine annSearchLoop_filledOnce positive (by omega) distinct List.length_replicate owned ?_ ?_
    looped
  · rw [noOwners]
    exact List.nodup_nil
  · rw [noOwners]
    exact List.disjoint_nil_left _

/-- The indices behind the table at the end of the loop. -/
theorem ivfSearch_table (transitive : Transitive ops) (full : clusters.length = k.toNat)
    (nonempty : 1 ≤ k.toNat)
    (counted : ∀ cluster ∈ clusters, cluster.count.toNat = cluster.byteOffsets.length)
    (atLeastOne : 1 ≤ nprobe.toNat) :
    ∃ (chosen : List ClusterDist) (free : Nat),
      ivfSearch ops clusters query nprobe k dimension metric =
          some ((chosen.map ClusterDist.clusterIdx ++ List.replicate free 0).flatMap
            (offsetsOf clusters)) ∧
        chosen.length + free = nprobe.toNat ∧
        TableOf ops (closeIndices ops dimension metric query clusters 0) chosen free := by
  have start : TableOf ops [] [] nprobe.toNat :=
    ⟨List.Subperm.refl _, fun _ => List.Perm.refl _, fun _ impossible =>
      absurd impossible List.not_mem_nil⟩
  obtain ⟨chosen, free, ran, sizeEq, table⟩ :=
    nearestClusters_table ops dimension metric query transitive clusters 0 start
      (by rw [List.length_nil]; omega)
  rw [List.length_nil, Nat.zero_add] at sizeEq
  rw [List.append_nil] at table
  refine ⟨chosen, free, ?_, sizeEq, table⟩
  have inside : ∀ entry ∈ chosen ++ List.replicate free (unchosen ops),
      entry.clusterIdx < clusters.length := by
    intro entry member
    rcases List.mem_append.mp member with isChosen | sentinel
    · have isClose := table.named.subset (List.mem_map_of_mem isChosen)
      obtain ⟨cluster, found, -⟩ := (mem_closeIndices ops).mp isClose
      exact (List.getElem?_eq_some_iff.mp found).1
    · rw [List.eq_of_mem_replicate sentinel]
      change 0 < clusters.length
      omega
  have allClusters : clusters.take k.toNat = clusters := by
    rw [← full, List.take_length]
  have fetchedEq : ((chosen ++ List.replicate free (unchosen ops)).map
      fun entry => offsetsOf clusters entry.clusterIdx).flatten =
        (chosen.map ClusterDist.clusterIdx ++ List.replicate free 0).flatMap
          (offsetsOf clusters) := by
    have indicesEq : (chosen ++ List.replicate free (unchosen ops)).map ClusterDist.clusterIdx =
        chosen.map ClusterDist.clusterIdx ++ List.replicate free 0 := by
      rw [List.map_append, List.map_replicate]
      rfl
    rw [← indicesEq, List.flatMap_def, List.map_map]
    rfl
  rw [List.nil_append] at ran
  unfold unchosen at ran inside fetchedEq
  rw [ivfSearch, if_neg (by omega), allClusters, ran]
  dsimp only
  rw [mapM_clusterIds counted inside, Option.map_some, fetchedEq]

section Table

variable {chosen : List ClusterDist} {free : Nat}

theorem named_length (table : TableOf ops (closeIndices ops dimension metric query clusters 0)
    chosen free) (sizeEq : chosen.length + free = nprobe.toNat) :
    (free = 0 → nprobe.toNat ≤ clusters.countP (isClose ops dimension metric query)) ∧
      (0 < free → nprobe.toNat =
        clusters.countP (isClose ops dimension metric query) + free) := by
  rw [← closeIndices_length]
  refine ⟨?_, ?_⟩
  · intro none
    have fits := table.named.length_le
    rw [List.length_map] at fits
    omega
  · intro left
    have sameLength := (table.all left).length_eq
    rw [List.length_map] at sameLength
    omega

theorem zero_mem_named_iff (table : TableOf ops
    (closeIndices ops dimension metric query clusters 0) chosen free) (left : 0 < free) :
    0 ∉ chosen.map ClusterDist.clusterIdx ↔
      ∀ first ∈ clusters.head?, isClose ops dimension metric query first = false := by
  rw [(table.all left).mem_iff, mem_closeIndices]
  constructor
  · intro absent first isFirst
    rw [List.head?_eq_getElem?] at isFirst
    exact Bool.eq_false_iff.mpr fun close => absent ⟨first, isFirst, close⟩
  · rintro noneClose ⟨first, isFirst, close⟩
    rw [← List.head?_eq_getElem?] at isFirst
    rw [noneClose first isFirst] at close
    cases close

theorem fetched_nodup_iff (distinct : (clusters.flatMap Cluster.byteOffsets).Nodup)
    (table : TableOf ops (closeIndices ops dimension metric query clusters 0) chosen free)
    (sizeEq : chosen.length + free = nprobe.toNat) :
    ((chosen.map ClusterDist.clusterIdx ++ List.replicate free 0).flatMap
        (offsetsOf clusters)).Nodup ↔
      FirstClusterOnce ops dimension metric query clusters nprobe.toNat := by
  obtain ⟨part, partPerm, isPart⟩ := table.named
  have namedDistinct := partPerm.nodup_iff.mp (isPart.nodup (closeIndices_nodup ops clusters))
  obtain ⟨whenFull, whenLeft⟩ := named_length table sizeEq
  rw [(blocks_offsetsOf distinct).nodup_iff namedDistinct]
  unfold FirstClusterOnce
  refine or_congr Iff.rfl ?_
  constructor
  · rintro (none | ⟨one, absent⟩)
    · exact Or.inl (whenFull none)
    · have left : 0 < free := by omega
      have countEq := whenLeft left
      rw [zero_mem_named_iff table left] at absent
      exact Or.inr ⟨by omega, absent⟩
  · rintro (fits | ⟨oneMore, noneClose⟩)
    · refine Or.inl ?_
      by_contra some
      have countEq := whenLeft (Nat.pos_of_ne_zero some)
      omega
    · by_cases none : free = 0
      · exact Or.inl none
      · have left := Nat.pos_of_ne_zero none
        have countEq := whenLeft left
        exact Or.inr ⟨by omega, (zero_mem_named_iff table left).mpr noneClose⟩

/-- With a probe for every cluster, the indices fetched are 0 and those of the
close clusters. -/
theorem mem_fetched_indices (table : TableOf ops
      (closeIndices ops dimension metric query clusters 0) chosen free)
    (sizeEq : chosen.length + free = nprobe.toNat) (enough : clusters.length ≤ nprobe.toNat)
    {index : Nat} {cluster : Cluster} (found : clusters[index]? = some cluster) :
    index ∈ chosen.map ClusterDist.clusterIdx ++ List.replicate free 0 ↔
      index = 0 ∨ isClose ops dimension metric query cluster = true := by
  have closeIff : index ∈ closeIndices ops dimension metric query clusters 0 ↔
      isClose ops dimension metric query cluster = true := by
    rw [mem_closeIndices]
    constructor
    · rintro ⟨other, otherFound, close⟩
      cases Option.some.inj (found.symm.trans otherFound)
      exact close
    · intro close
      exact ⟨cluster, found, close⟩
  rw [List.mem_append, List.mem_replicate]
  by_cases none : free = 0
  · -- A full table with a place for every cluster: they are all close.
    have fits := (named_length table sizeEq).1 none
    have countLe := List.countP_le_length (p := isClose ops dimension metric query) (l := clusters)
    have allClose := List.countP_eq_length.mp (by omega :
      clusters.countP (isClose ops dimension metric query) = clusters.length)
    have close := allClose cluster (List.mem_of_getElem? found)
    have sameLength : (closeIndices ops dimension metric query clusters 0).length ≤
        (chosen.map ClusterDist.clusterIdx).length := by
      rw [closeIndices_length, List.length_map]
      omega
    have named := (table.named.perm_of_length_le sameLength).mem_iff.mpr (closeIff.mpr close)
    exact iff_of_true (Or.inl named) (Or.inr close)
  · have left := Nat.pos_of_ne_zero none
    rw [(table.all left).mem_iff, closeIff]
    constructor
    · rintro (close | ⟨-, first⟩)
      · exact Or.inr close
      · exact Or.inl first
    · rintro (first | close)
      · exact Or.inr ⟨none, first⟩
      · exact Or.inl close

theorem fetched_complete_iff (distinct : (clusters.flatMap Cluster.byteOffsets).Nodup)
    (table : TableOf ops (closeIndices ops dimension metric query clusters 0) chosen free)
    (sizeEq : chosen.length + free = nprobe.toNat) :
    (clusters.length ≤ nprobe.toNat → ∀ cluster ∈ clusters, ∀ offset ∈ cluster.byteOffsets,
        offset ∈ (chosen.map ClusterDist.clusterIdx ++ List.replicate free 0).flatMap
          (offsetsOf clusters)) ↔
      OthersClose ops dimension metric query clusters nprobe.toNat := by
  have blocks := blocks_offsetsOf distinct
  have blockEq : ∀ index cluster, clusters[index]? = some cluster →
      offsetsOf clusters index = cluster.byteOffsets := by
    intro index cluster found
    rw [offsetsOf, found, Option.map_some, Option.getD_some]
  unfold OthersClose
  constructor
  · intro complete enough cluster member holds
    obtain ⟨position, found⟩ := List.mem_iff_getElem?.mp member
    rw [List.getElem?_tail] at found
    obtain ⟨offset, inCluster⟩ := List.exists_mem_of_ne_nil _ holds
    have fetched := complete enough cluster (List.mem_of_getElem? found) offset inCluster
    obtain ⟨index, isFetched, inBlock⟩ := List.mem_flatMap.mp fetched
    have sameIndex : index = position + 1 := by
      by_contra different
      have inOther : offset ∈ offsetsOf clusters (position + 1) := by
        rw [blockEq _ cluster found]
        exact inCluster
      exact blocks.disjoint index (position + 1) different inBlock inOther
    rw [sameIndex] at isFetched
    rcases (mem_fetched_indices table sizeEq enough found).mp isFetched with first | close
    · cases first
    · exact close
  · intro othersClose enough cluster member offset inCluster
    obtain ⟨index, found⟩ := List.mem_iff_getElem?.mp member
    have wanted : index = 0 ∨ isClose ops dimension metric query cluster = true := by
      cases index with
      | zero => exact Or.inl rfl
      | succ position =>
          have inTail : cluster ∈ clusters.tail := by
            refine List.mem_iff_getElem?.mpr ⟨position, ?_⟩
            rw [List.getElem?_tail]
            exact found
          exact Or.inr (othersClose enough cluster inTail (List.ne_nil_of_mem inCluster))
    refine List.mem_flatMap.mpr
      ⟨index, (mem_fetched_indices table sizeEq enough found).mpr wanted, ?_⟩
    rw [blockEq index cluster found]
    exact inCluster

end Table

/-- Exactly when a probing search fetches every offset once. -/
theorem fetches_once_iff (ops : FloatOps) (transitive : Transitive ops) (query : List UInt32)
    (dimension : UInt64) (metric : MetricType) (full : clusters.length = k.toNat)
    (nonempty : 1 ≤ k.toNat)
    (counted : ∀ cluster ∈ clusters, cluster.count.toNat = cluster.byteOffsets.length)
    (distinct : (clusters.flatMap Cluster.byteOffsets).Nodup) (atLeastOne : 1 ≤ nprobe.toNat) :
    ∃ fetched, ivfSearch ops clusters query nprobe k dimension metric = some fetched ∧
      (FetchesOnce ops dimension metric query clusters nprobe k fetched ↔
        FirstClusterOnce ops dimension metric query clusters nprobe.toNat ∧
          OthersClose ops dimension metric query clusters nprobe.toNat) := by
  obtain ⟨chosen, free, ran, sizeEq, table⟩ :=
    ivfSearch_table transitive full nonempty counted atLeastOne
  refine ⟨_, ran, ?_⟩
  have enoughIff : k ≤ nprobe ↔ clusters.length ≤ nprobe.toNat := by
    rw [full, UInt64.le_iff_toNat_le]
  rw [← fetched_nodup_iff distinct table sizeEq, ← fetched_complete_iff distinct table sizeEq,
    ← enoughIff]
  constructor
  · intro fetchesOnce
    exact ⟨fetchesOnce.once, fetchesOnce.complete⟩
  · rintro ⟨once, complete⟩
    refine ⟨once, complete, ?_⟩
    intro data db topK results sameDimension sameMetric low high searched
    exact filledOnce_of_nodup ran once sameDimension sameMetric low high searched

end Fetched

/-! ### Two probes -/

theorem gapOps_transitive : Transitive gapOps := by
  intro first second third firstLess secondLess
  have firstLt := decide_eq_true_iff.mp firstLess
  have secondLt := decide_eq_true_iff.mp secondLess
  exact decide_eq_true (UInt32.lt_trans firstLt secondLt)

/-- Two clusters, both probed. -/
theorem fetches_once_on_pair :
    ∃ fetched, ivfSearch gapOps pairClusters [1065353217] 2 2 1 .cosine = some fetched ∧
      FetchesOnce gapOps 1 .cosine [1065353217] pairClusters 2 2 fetched := by
  obtain ⟨fetched, ran, onceIff⟩ := fetches_once_iff gapOps gapOps_transitive [1065353217] 1 .cosine
    (by decide : pairClusters.length = (2 : UInt64).toNat) (by decide) pairClusters_counted
    (by decide) (by decide : 1 ≤ (2 : UInt64).toNat)
  refine ⟨fetched, ran, onceIff.mpr ⟨Or.inr (Or.inl (by decide)), ?_⟩⟩
  intro _ cluster member _
  rw [List.mem_singleton.mp member]
  decide

def soleCluster : Cluster := clusterAt 1065353216 [0]

/-- One cluster and two probes: the sentinel that is left fetches it again. -/
theorem second_probe_repeats_record :
    (([soleCluster].flatMap Cluster.byteOffsets).Nodup ∧
      ivfSearch gapOps [soleCluster] [1065353217] 2 1 1 .cosine = some [0, 0]) ∧
    ¬FetchesOnce gapOps 1 .cosine [1065353217] [soleCluster] 2 1 [0, 0] ∧
    (dbAnnSearch gapOps pairFile pairTable [1065353217] 2 2 [soleCluster] 1).map
      (fun answer => answer.2.map SearchResult.id) = some [7, 7] := by
  refine ⟨by decide, ?_, by decide⟩
  intro fetchesOnce
  exact absurd fetchesOnce.once (by decide)

end OriginDb
