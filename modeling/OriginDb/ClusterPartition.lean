/-
A trained index partitions the live records.

Whatever the distances, the seeds and the number of rounds, the training ends
with every record that is not deleted in exactly one cluster.  A search that
probes as many clusters as there are therefore fetches the offset of each of
them once, provided that it prefers every cluster to the sentinels its array
starts with.
-/

import OriginDb.AnnSearch
import OriginDb.Foundation.TopK

namespace OriginDb

open Foundation

section Training

variable (ops : FloatOps) (data : List UInt8) (storage : Storage) (dimension : UInt64)
  (metric : MetricType)

/-- The indices of the records that are not deleted, from `index` on. -/
def liveIndices : List Record → Nat → List Nat
  | [], _ => []
  | record :: rest, index =>
      if record.isDeleted then liveIndices rest (index + 1)
      else index :: liveIndices rest (index + 1)

/-- The clusters hold the given indices, each once, and count what they hold. -/
structure Partitions (indices : List Nat) (clusters : List Cluster) : Prop where
  named : (clusters.flatMap Cluster.recordIndex).Perm indices
  counted : ∀ cluster ∈ clusters, cluster.count = UInt64.ofNat cluster.recordIndex.length

/-! ### One round -/

theorem bestCluster_lt (vector : List UInt32) {bound : Nat} (clusters : List Cluster)
    (index : Nat) (dis : UInt32) (best : Nat) (inside : index + clusters.length ≤ bound)
    (bestInside : best < bound) :
    bestCluster ops dimension metric vector clusters index dis best < bound := by
  induction clusters generalizing index dis best with
  | nil => exact bestInside
  | cons cluster rest ih =>
      rw [List.length_cons] at inside
      unfold bestCluster
      dsimp only
      split
      · exact ih (index + 1) _ index (by omega) (by omega)
      · exact ih (index + 1) _ best (by omega) bestInside

theorem flatMap_modify_addRecord (index : Nat) {clusters : List Cluster} {best : Nat}
    (inside : best < clusters.length) :
    ((clusters.modify best (addRecord index)).flatMap Cluster.recordIndex).Perm
      (index :: clusters.flatMap Cluster.recordIndex) := by
  induction clusters generalizing best with
  | nil => cases inside
  | cons first rest ih =>
      cases best with
      | zero =>
          rw [List.modify_zero_cons, List.flatMap_cons, List.flatMap_cons]
          change ((first.recordIndex ++ [index]) ++ rest.flatMap Cluster.recordIndex).Perm _
          rw [List.append_assoc, List.singleton_append]
          exact List.perm_middle
      | succ best =>
          rw [List.modify_succ_cons, List.flatMap_cons, List.flatMap_cons]
          exact ((ih (Nat.lt_of_succ_lt_succ inside)).append_left first.recordIndex).trans
            List.perm_middle

theorem Partitions.add {indices : List Nat} {clusters : List Cluster}
    (partitions : Partitions indices clusters) (index : Nat) {best : Nat}
    (inside : best < clusters.length) :
    Partitions (index :: indices) (clusters.modify best (addRecord index)) where
  named := (flatMap_modify_addRecord index inside).trans (partitions.named.cons index)
  counted := by
    intro cluster member
    obtain ⟨position, bound, rfl⟩ := List.mem_iff_getElem.mp member
    rw [List.length_modify] at bound
    have original := partitions.counted _ (List.getElem_mem bound)
    rw [List.getElem_modify]
    split
    · change clusters[position].count + 1 =
        UInt64.ofNat (clusters[position].recordIndex ++ [index]).length
      rw [original, List.length_append, List.length_singleton, UInt64.ofNat_add]
      rfl
    · exact original

/-- The vector pointers of the records can be followed. -/
def Readable (records : List Record) : Prop :=
  ∀ record ∈ records, (readVector data storage dimension record.vector).isSome = true

theorem assignRecords_partitions {records : List Record}
    (readable : Readable data storage dimension records) (index : Nat) {indices : List Nat}
    {clusters : List Cluster} (nonempty : clusters ≠ [])
    (partitions : Partitions indices clusters) :
    ∃ assigned,
      assignRecords ops data storage dimension metric records index clusters = some assigned ∧
        assigned.length = clusters.length ∧
        Partitions ((liveIndices records index).reverse ++ indices) assigned := by
  induction records generalizing index indices clusters with
  | nil => exact ⟨clusters, rfl, rfl, partitions⟩
  | cons record rest ih =>
      have restReadable : Readable data storage dimension rest := fun other member =>
        readable other (List.mem_cons_of_mem record member)
      rw [assignRecords, liveIndices]
      by_cases deleted : record.isDeleted = true
      · rw [if_pos deleted, if_pos deleted]
        exact ih restReadable (index + 1) nonempty partitions
      · rw [if_neg deleted, if_neg deleted]
        obtain ⟨vector, vectorEq⟩ :=
          Option.isSome_iff_exists.mp (readable record (List.mem_cons_self ..))
        rw [vectorEq]
        let best := bestCluster ops dimension metric vector.val clusters 0 ops.huge 0
        have inside : best < clusters.length :=
          bestCluster_lt ops dimension metric vector.val clusters 0 ops.huge 0 (by omega)
            (List.length_pos_iff.mpr nonempty)
        have stillNonempty : clusters.modify best (addRecord index) ≠ [] := by
          rw [← List.length_pos_iff, List.length_modify]
          exact List.length_pos_iff.mpr nonempty
        obtain ⟨assigned, assignedEq, lengthEq, assignedPartitions⟩ :=
          ih restReadable (index + 1) stillNonempty (partitions.add index inside)
        rw [List.length_modify] at lengthEq
        refine ⟨assigned, assignedEq, lengthEq, ?_⟩
        rw [List.reverse_cons, List.append_assoc, List.singleton_append]
        exact assignedPartitions

theorem partitions_emptied (clusters : List Cluster) :
    Partitions [] (clusters.map emptyCluster) where
  named := by
    have none : (clusters.map emptyCluster).flatMap Cluster.recordIndex = [] := by
      rw [List.flatMap_eq_nil_iff]
      intro cluster member
      obtain ⟨original, -, rfl⟩ := List.mem_map.mp member
      rfl
    rw [none]
  counted := by
    intro cluster member
    obtain ⟨original, -, rfl⟩ := List.mem_map.mp member
    rfl

theorem updateCentroid_recordIndex (records : List Record) (cluster : Cluster) :
    (updateCentroid ops data storage dimension records cluster).recordIndex =
      cluster.recordIndex := by
  unfold updateCentroid
  split <;> rfl

theorem updateCentroid_count (records : List Record) (cluster : Cluster) :
    (updateCentroid ops data storage dimension records cluster).count = cluster.count := by
  unfold updateCentroid
  split <;> rfl

theorem Partitions.updated (records : List Record) {indices : List Nat} {clusters : List Cluster}
    (partitions : Partitions indices clusters) :
    Partitions indices (clusters.map (updateCentroid ops data storage dimension records)) where
  named := by
    rw [List.flatMap_map]
    simp only [updateCentroid_recordIndex]
    exact partitions.named
  counted := by
    intro cluster member
    obtain ⟨original, originalMember, rfl⟩ := List.mem_map.mp member
    rw [updateCentroid_count, updateCentroid_recordIndex]
    exact partitions.counted original originalMember

/-! ### The training -/

/-- The rounds end, in at most `max_iterations` of them, with a partition. -/
theorem kmeansRounds_partitions {records : List Record}
    (readable : Readable data storage dimension records) (maxIterations : UInt64)
    {fuel ittrate : Nat} (started : 1 ≤ fuel) (enough : maxIterations.toNat ≤ ittrate + fuel)
    {clusters : List Cluster} (nonempty : clusters ≠ []) :
    ∃ trained,
      kmeansRounds ops data storage dimension metric records maxIterations fuel ittrate clusters =
          some trained ∧
        trained.length = clusters.length ∧
        Partitions (liveIndices records 0).reverse trained := by
  induction fuel generalizing ittrate clusters with
  | zero => cases started
  | succ fuel ih =>
      have emptiedNonempty : clusters.map emptyCluster ≠ [] := by
        rw [Ne, List.map_eq_nil_iff]
        exact nonempty
      obtain ⟨assigned, assignedEq, lengthEq, partitions⟩ :=
        assignRecords_partitions ops data storage dimension metric readable 0 emptiedNonempty
          (partitions_emptied clusters)
      rw [List.append_nil] at partitions
      rw [List.length_map] at lengthEq
      have updatedPartitions := partitions.updated ops data storage dimension records
      have updatedLength : (assigned.map
          (updateCentroid ops data storage dimension records)).length = clusters.length := by
        rw [List.length_map, lengthEq]
      rw [kmeansRounds, assignedEq]
      dsimp only
      split
      · split
        · exact ⟨_, rfl, updatedLength, updatedPartitions⟩
        · have updatedNonempty : assigned.map
              (updateCentroid ops data storage dimension records) ≠ [] := by
            rw [← List.length_pos_iff, updatedLength]
            exact List.length_pos_iff.mpr nonempty
          have remaining : maxIterations.toNat ≤ ittrate + 1 + fuel := by omega
          obtain ⟨trained, trainedEq, trainedLength, trainedPartitions⟩ :=
            ih (by omega) remaining updatedNonempty
          exact ⟨trained, trainedEq, trainedLength.trans updatedLength, trainedPartitions⟩
      · exact ⟨_, rfl, updatedLength, updatedPartitions⟩

theorem seedClusters_some (rand : Nat → Nat) {records : List Record}
    (readable : Readable data storage dimension records) (nonempty : records ≠ []) (k : Nat) :
    ∃ seeded, seedClusters data storage dimension rand records k = some seeded ∧
      seeded.length = k := by
  induction k with
  | zero => exact ⟨[], rfl, rfl⟩
  | succ k ih =>
      obtain ⟨seeded, seededEq, lengthEq⟩ := ih
      have inside : rand k % records.length < records.length :=
        Nat.mod_lt _ (List.length_pos_iff.mpr nonempty)
      obtain ⟨vector, vectorEq⟩ :=
        Option.isSome_iff_exists.mp (readable _ (List.getElem_mem inside))
      rw [seedClusters, seededEq, List.getElem?_eq_getElem inside]
      dsimp only
      rw [vectorEq, Option.map_some]
      refine ⟨_, rfl, ?_⟩
      rw [List.length_append, List.length_singleton, lengthEq]

/-- The offset that the final loop writes for an index. -/
def offsetAt (records : List Record) (index : Nat) : UInt64 :=
  ((records[index]?).map Record.byteOffset).getD 0

theorem lt_of_mem_liveIndices {records : List Record} {start index : Nat}
    (member : index ∈ liveIndices records start) : index < start + records.length := by
  induction records generalizing start with
  | nil => cases member
  | cons record rest ih =>
      rw [List.length_cons]
      unfold liveIndices at member
      split at member
      · have later := ih member
        omega
      · rcases List.mem_cons.mp member with rfl | inRest
        · omega
        · have later := ih inRest
          omega

theorem liveIndices_length_le (records : List Record) (start : Nat) :
    (liveIndices records start).length ≤ records.length := by
  induction records generalizing start with
  | nil => exact Nat.le_refl 0
  | cons record rest ih =>
      have later := ih (start + 1)
      rw [List.length_cons]
      unfold liveIndices
      split
      · exact Nat.le_succ_of_le later
      · exact Nat.succ_le_succ later

/-- The live indices lead to the offsets of the live records. -/
theorem liveIndices_map_offsetAt {records rest : List Record} (earlier : List Record)
    (split : records = earlier ++ rest) :
    (liveIndices rest earlier.length).map (offsetAt records) =
      (rest.filter fun record => !record.isDeleted).map Record.byteOffset := by
  induction rest generalizing earlier with
  | nil => rfl
  | cons record rest ih =>
      have splitNext : records = (earlier ++ [record]) ++ rest := by
        rw [split, List.append_assoc, List.singleton_append]
      have later := ih (earlier ++ [record]) splitNext
      rw [List.length_append, List.length_singleton] at later
      cases deleted : record.isDeleted with
      | true =>
          rw [liveIndices, if_pos deleted, List.filter_cons_of_neg (by simp [deleted])]
          exact later
      | false =>
          have here : offsetAt records earlier.length = record.byteOffset := by
            rw [offsetAt, split, List.getElem?_append_right (Nat.le_refl _), Nat.sub_self,
              List.getElem?_cons_zero, Option.map_some, Option.getD_some]
          rw [liveIndices, if_neg (by rw [deleted]; exact Bool.false_ne_true),
            List.filter_cons_of_pos (by simp [deleted]), List.map_cons, List.map_cons, here, later]

theorem mapOffsets_byteOffsets {records : List Record} {cluster : Cluster}
    (inside : ∀ index ∈ cluster.recordIndex, index < records.length) :
    (mapOffsets records cluster).byteOffsets =
      cluster.recordIndex.map (offsetAt records) := by
  have mapped : ∀ index ∈ cluster.recordIndex,
      (records[index]?).map Record.byteOffset = some (offsetAt records index) := by
    intro index member
    rw [offsetAt, List.getElem?_eq_getElem (inside index member), Option.map_some,
      Option.getD_some]
  calc cluster.recordIndex.filterMap (fun index => (records[index]?).map Record.byteOffset)
      = cluster.recordIndex.filterMap (fun index => some (offsetAt records index)) :=
        List.filterMap_congr mapped
    _ = cluster.recordIndex.map (offsetAt records) := congrFun List.filterMap_eq_map' _

/-- The training succeeds, and its clusters name the offset of every live record
once. -/
theorem kmeansBuild_partition (rand : Nat → Nat) {records : List Record}
    (readable : Readable data storage dimension records) {k : UInt64} (positive : k ≠ 0)
    (nonempty : records ≠ []) (small : records.length < 2 ^ 64) (maxIterations : UInt64) :
    ∃ trained,
      kmeansBuild ops data storage dimension metric rand records k maxIterations = some trained ∧
        trained.length = k.toNat ∧
        (trained.flatMap Cluster.byteOffsets).Perm
          ((records.filter fun record => !record.isDeleted).map Record.byteOffset) ∧
        ∀ cluster ∈ trained, cluster.count.toNat = cluster.byteOffsets.length := by
  obtain ⟨seeded, seededEq, seededLength⟩ :=
    seedClusters_some data storage dimension rand readable nonempty k.toNat
  have seededNonempty : seeded ≠ [] := by
    rw [← List.length_pos_iff, seededLength]
    exact Nat.pos_of_ne_zero fun zero => positive (UInt64.toNat_inj.mp zero)
  obtain ⟨trained, trainedEq, trainedLength, partitions⟩ :=
    kmeansRounds_partitions ops data storage dimension metric readable maxIterations
      (Nat.le_max_left 1 _) (by omega : maxIterations.toNat ≤ 0 + max 1 maxIterations.toNat)
      seededNonempty
  have inside : ∀ cluster ∈ trained, ∀ index ∈ cluster.recordIndex, index < records.length := by
    intro cluster member index indexMember
    have named := partitions.named.mem_iff.mp (List.mem_flatMap.mpr ⟨cluster, member, indexMember⟩)
    have bounded := lt_of_mem_liveIndices (List.mem_reverse.mp named)
    omega
  refine ⟨trained.map (mapOffsets records), ?_, ?_, ?_, ?_⟩
  · rw [kmeansBuild, seededEq]
    dsimp only
    rw [trainedEq, Option.map_some]
  · rw [List.length_map, trainedLength, seededLength]
  · have offsetsEq : (trained.map (mapOffsets records)).flatMap Cluster.byteOffsets =
        (trained.flatMap Cluster.recordIndex).map (offsetAt records) := by
      rw [List.flatMap_map, List.map_flatMap]
      exact List.flatMap_congr fun cluster member => mapOffsets_byteOffsets (inside cluster member)
    have liveOffsets := liveIndices_map_offsetAt [] (rfl : records = [] ++ records)
    rw [offsetsEq, ← liveOffsets]
    exact (partitions.named.trans (List.reverse_perm _)).map _
  · intro cluster member
    obtain ⟨original, originalMember, rfl⟩ := List.mem_map.mp member
    have held : original.recordIndex.length ≤ (trained.flatMap Cluster.recordIndex).length :=
      (List.sublist_flatten_of_mem (List.mem_map_of_mem originalMember)).length_le
    have live := liveIndices_length_le records 0
    rw [partitions.named.length_eq, List.length_reverse] at held
    rw [mapOffsets_byteOffsets (inside original originalMember), List.length_map]
    change original.count.toNat = original.recordIndex.length
    rw [partitions.counted original originalMember, UInt64.toNat_ofNat']
    omega

end Training

/-! ### Probing every cluster -/

section Probing

variable (ops : FloatOps)

/-- What the `while` loop does to the array, and where it stops. -/
theorem shiftClusters_spec (dis : UInt32) {start : Nat} {best : List ClusterDist}
    (inside : start < best.length) {target : Nat} {moved : List ClusterDist}
    (ran : shiftClusters ops dis start best = (target, moved)) :
    target ≤ start ∧ moved.length = best.length ∧
      (∀ position, position ≠ target → moved[position]? =
        if target < position ∧ position ≤ start then best[position - 1]? else best[position]?) ∧
      (∀ before cluster, target = before + 1 → best[before]? = some cluster →
        ¬ops.less dis cluster.dis = true) := by
  induction start generalizing best with
  | zero =>
      cases ran
      refine ⟨Nat.le_refl 0, rfl, ?_, ?_⟩
      · intro position elsewhere
        rw [if_neg (by omega)]
      · intro before cluster impossible
        cases impossible
  | succ index ih =>
      have found : best[index]? = some best[index] := List.getElem?_eq_getElem (by omega)
      rw [shiftClusters, found] at ran
      dsimp only at ran
      by_cases closer : ops.less dis best[index].dis = true
      · rw [if_pos closer] at ran
        have lengthEq : (best.set (index + 1) best[index]).length = best.length :=
          List.length_set
        obtain ⟨low, sameLength, shifted, stopped⟩ := ih (by omega) ran
        refine ⟨by omega, sameLength.trans lengthEq, ?_, ?_⟩
        · intro position elsewhere
          rw [shifted position elsewhere]
          by_cases last : position = index + 1
          · subst last
            rw [if_neg (by omega), if_pos (by omega), List.getElem?_set_self inside,
              Nat.add_sub_cancel, found]
          · by_cases between : target < position ∧ position ≤ index
            · rw [if_pos between, if_pos (by omega), List.getElem?_set_ne (by omega)]
            · rw [if_neg between, if_neg (by omega), List.getElem?_set_ne (Ne.symm last)]
        · intro before cluster targetEq beforeFound
          refine stopped before cluster targetEq ?_
          rw [List.getElem?_set_ne (by omega)]
          exact beforeFound
      · rw [if_neg closer] at ran
        cases ran
        refine ⟨Nat.le_refl _, rfl, ?_, ?_⟩
        · intro position elsewhere
          rw [if_neg (by omega)]
        · intro before cluster targetEq beforeFound
          cases Nat.succ.inj targetEq
          cases Option.some.inj (found.symm.trans beforeFound)
          exact closer

theorem offerCluster_of_closer (index : Nat) {dis : UInt32} {best moved : List ClusterDist}
    {worst : ClusterDist} {target : Nat} (lastEq : best.getLast? = some worst)
    (closer : ops.less dis worst.dis = true)
    (ran : shiftClusters ops dis (best.length - 1) best = (target, moved)) :
    offerCluster ops index dis best =
      some (moved.set target { dis := dis, clusterIdx := index }) := by
  rw [offerCluster, lastEq]
  dsimp only
  rw [if_pos closer, ran]

/-- The slot that the probing search starts with. -/
def unchosen : ClusterDist :=
  { dis := ops.huge, clusterIdx := 0 }

/-- A cluster that enters the table drops its last entry. -/
theorem offerCluster_inserts (index : Nat) {dis : UInt32} {front : List ClusterDist}
    {worst : ClusterDist} (closer : ops.less dis worst.dis = true) :
    ∃ target ≤ front.length,
      offerCluster ops index dis (front ++ [worst]) =
          some (front.take target ++ { dis := dis, clusterIdx := index } :: front.drop target) ∧
        ∀ before cluster, target = before + 1 → front[before]? = some cluster →
          ¬ops.less dis cluster.dis = true := by
  let best := front ++ [worst]
  have lengthEq : best.length = front.length + 1 := by
    rw [List.length_append, List.length_singleton]
  have lastEq : best.getLast? = some worst := List.getLast?_concat
  obtain ⟨target, moved, ran⟩ : ∃ target moved,
      shiftClusters ops dis (best.length - 1) best = (target, moved) := ⟨_, _, rfl⟩
  obtain ⟨low, sameLength, shifted, stopped⟩ := shiftClusters_spec ops dis (by omega) ran
  have inside : target ≤ front.length := by omega
  let candidate : ClusterDist := { dis := dis, clusterIdx := index }
  have inserted := TopK.set_eq_insert (by omega : best.length = best.length - 1 + 1) sameLength low
    shifted candidate
  have sizeEq : best.length - 1 + 1 = front.length + 1 := by omega
  rw [sizeEq, TopK.insert_drop_last inside] at inserted
  refine ⟨target, inside, ?_, ?_⟩
  · rw [← inserted]
    exact offerCluster_of_closer ops index lastEq closer ran
  · intro before cluster targetEq found
    refine stopped before cluster targetEq ?_
    rw [List.getElem?_append_left (by omega)]
    exact found

/-- A cluster that is not closer than the last entry changes nothing. -/
theorem offerCluster_refuses (index : Nat) {dis : UInt32} {front : List ClusterDist}
    {worst : ClusterDist} (notCloser : ¬ops.less dis worst.dis = true) :
    offerCluster ops index dis (front ++ [worst]) = some (front ++ [worst]) := by
  rw [offerCluster, List.getLast?_concat]
  dsimp only
  rw [if_neg notCloser]

/-- A cluster closer than the sentinels takes the place of one of them. -/
theorem offerCluster_unchosen (index : Nat) {dis : UInt32}
    (close : ops.less dis ops.huge = true) (chosen : List ClusterDist) (free : Nat) :
    ∃ next : List ClusterDist,
      offerCluster ops index dis (chosen ++ List.replicate (free + 1) (unchosen ops)) =
          some (next ++ List.replicate free (unchosen ops)) ∧
        next.Perm ({ dis := dis, clusterIdx := index } :: chosen) := by
  let front := chosen ++ List.replicate free (unchosen ops)
  have lengthEq : front.length = chosen.length + free := by
    rw [List.length_append, List.length_replicate]
  obtain ⟨target, inside, offered, stopped⟩ :=
    @offerCluster_inserts ops index dis front (unchosen ops) close
  -- The loop does not stop behind a sentinel, so the target is not among them.
  have amongChosen : target ≤ chosen.length := by
    by_contra beyond
    obtain ⟨before, targetEq⟩ : ∃ before, target = before + 1 := ⟨target - 1, by omega⟩
    have sentinel : front[before]? = some (unchosen ops) := by
      rw [List.getElem?_append_right (by omega), List.getElem?_replicate, if_pos (by omega)]
    exact stopped before _ targetEq sentinel close
  let candidate : ClusterDist := { dis := dis, clusterIdx := index }
  refine ⟨chosen.take target ++ candidate :: chosen.drop target, ?_, ?_⟩
  · rw [List.take_append_of_le_length amongChosen, List.drop_append_of_le_length amongChosen,
      List.append_assoc] at offered
    rw [List.replicate_succ', offered, List.append_assoc, List.cons_append]
  · have moved : (chosen.take target ++ candidate :: chosen.drop target).Perm
        (candidate :: (chosen.take target ++ chosen.drop target)) := List.perm_middle
    rw [List.take_append_drop] at moved
    exact moved

/-- Every offered cluster is closer than the sentinels. -/
def AllClose (dimension : UInt64) (metric : MetricType) (query : List UInt32)
    (clusters : List Cluster) : Prop :=
  ∀ cluster ∈ clusters,
    ops.less (ops.calculate metric dimension cluster.centroidVector query) ops.huge = true

variable {dimension : UInt64} {metric : MetricType} {query : List UInt32}

theorem nearestClusters_all {clusters : List Cluster}
    (close : AllClose ops dimension metric query clusters) (index : Nat)
    (chosen : List ClusterDist) :
    ∃ best,
      nearestClusters ops dimension metric query clusters index
          (chosen ++ List.replicate clusters.length (unchosen ops)) = some best ∧
        (best.map ClusterDist.clusterIdx).Perm
          (List.range' index clusters.length ++ chosen.map ClusterDist.clusterIdx) := by
  induction clusters generalizing index chosen with
  | nil =>
      refine ⟨chosen, ?_, List.Perm.refl _⟩
      rw [List.length_nil, List.replicate_zero, List.append_nil]
      rfl
  | cons cluster rest ih =>
      obtain ⟨next, offered, nextPerm⟩ := offerCluster_unchosen ops index
        (close cluster (List.mem_cons_self ..)) chosen rest.length
      have restClose : AllClose ops dimension metric query rest := fun other member =>
        close other (List.mem_cons_of_mem cluster member)
      obtain ⟨best, bestEq, bestPerm⟩ := ih restClose (index + 1) next
      refine ⟨best, ?_, ?_⟩
      · rw [nearestClusters, List.length_cons, offered]
        exact bestEq
      · rw [List.length_cons, List.range'_succ]
        exact bestPerm.trans (((nextPerm.map ClusterDist.clusterIdx).append_left _).trans
          List.perm_middle)

/-- The offsets that one chosen cluster contributes. -/
def offsetsOf (clusters : List Cluster) (index : Nat) : List UInt64 :=
  ((clusters[index]?).map Cluster.byteOffsets).getD []

theorem clusterIds_eq {clusters : List Cluster}
    (counted : ∀ cluster ∈ clusters, cluster.count.toNat = cluster.byteOffsets.length)
    {chosen : ClusterDist} (inside : chosen.clusterIdx < clusters.length) :
    clusterIds clusters chosen = some (offsetsOf clusters chosen.clusterIdx) := by
  have countEq := counted _ (List.getElem_mem inside)
  rw [clusterIds, offsetsOf, List.getElem?_eq_getElem inside, Option.map_some, Option.getD_some]
  dsimp only
  rw [if_pos (Nat.le_of_eq countEq), countEq, List.take_length]

theorem mapM_clusterIds {clusters : List Cluster}
    (counted : ∀ cluster ∈ clusters, cluster.count.toNat = cluster.byteOffsets.length)
    {best : List ClusterDist}
    (inside : ∀ chosen ∈ best, chosen.clusterIdx < clusters.length) :
    best.mapM (clusterIds clusters) =
      some (best.map fun chosen => offsetsOf clusters chosen.clusterIdx) := by
  induction best with
  | nil => rfl
  | cons chosen rest ih =>
      have restInside : ∀ other ∈ rest, other.clusterIdx < clusters.length := fun other member =>
        inside other (List.mem_cons_of_mem chosen member)
      rw [List.mapM_cons, clusterIds_eq counted (inside chosen (List.mem_cons_self ..)),
        ih restInside]
      rfl

theorem map_offsetsOf (clusters : List Cluster) :
    (List.range' 0 clusters.length).map (offsetsOf clusters) =
      clusters.map Cluster.byteOffsets := by
  apply List.ext_getElem
  · rw [List.length_map, List.length_map, List.length_range']
  · intro index inside _
    rw [List.length_map, List.length_range'] at inside
    rw [List.getElem_map, List.getElem_map, List.getElem_range', offsetsOf, Nat.zero_add,
      Nat.one_mul, List.getElem?_eq_getElem inside, Option.map_some, Option.getD_some]

/-- With as many probes as clusters, the offsets of all clusters are fetched. -/
theorem ivfSearch_all {clusters : List Cluster} {k : UInt64} (full : clusters.length = k.toNat)
    (counted : ∀ cluster ∈ clusters, cluster.count.toNat = cluster.byteOffsets.length)
    (close : AllClose ops dimension metric query clusters) :
    ∃ fetched, ivfSearch ops clusters query k k dimension metric = some fetched ∧
      fetched.Perm (clusters.flatMap Cluster.byteOffsets) := by
  obtain ⟨best, bestEq, bestPerm⟩ := nearestClusters_all ops close 0 []
  rw [List.nil_append, full] at bestEq
  rw [List.map_nil, List.append_nil] at bestPerm
  have inside : ∀ chosen ∈ best, chosen.clusterIdx < clusters.length := by
    intro chosen member
    have ranged := bestPerm.mem_iff.mp (List.mem_map_of_mem member)
    have bounded := List.mem_range'_1.mp ranged
    omega
  let offsets := best.map fun chosen => offsetsOf clusters chosen.clusterIdx
  refine ⟨offsets.flatten, ?_, ?_⟩
  · have allClusters : clusters.take k.toNat = clusters := by
      rw [← full, List.take_length]
    unfold unchosen at bestEq
    rw [ivfSearch, if_neg (by omega), allClusters, bestEq]
    dsimp only
    rw [mapM_clusterIds counted inside, Option.map_some]
  · have offsetsEq : offsets = (best.map ClusterDist.clusterIdx).map (offsetsOf clusters) := by
      rw [List.map_map]
      rfl
    have reordered := (bestPerm.map (offsetsOf clusters)).flatten
    rw [map_offsetsOf, ← offsetsEq] at reordered
    exact reordered

end Probing

end OriginDb
