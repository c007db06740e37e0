/-
Training of the inverted-file index: `kmeans_build` of `kmeans.c`.

The floating-point operations of the training are parameters on 32-bit
patterns, as are the values that `rand` returns.  What matters downstream is
which records the clusters name: the offsets of a trained index are offsets
of live records of the array it was trained on.
-/

import OriginDb.FlatSearch

namespace OriginDb

/-- The floating-point operations of the training: sums, the division by a
count, the test `|old - new| > epsilon`, and the constant 1e30. -/
structure FloatOps extends Distances UInt32 where
  zero : UInt32
  add : UInt32 → UInt32 → UInt32
  divCount : UInt32 → UInt64 → UInt32
  moved : UInt32 → UInt32 → Bool
  huge : UInt32

/-- `cluster_t`; `recordIndex` is what the training has, `byteOffsets` what it
leaves for the search and the index file. -/
structure Cluster where
  centroidVector : List UInt32
  recordIndex : List Nat
  count : UInt64
  capacity : UInt64
  byteOffsets : List UInt64
deriving DecidableEq

section Training

variable (ops : FloatOps) (data : List UInt8) (storage : Storage) (dimension : UInt64)
  (metric : MetricType)

/-- The first loop: every cluster starts at a record that `rand` picks. -/
def seedClusters (rand : Nat → Nat) (records : List Record) : Nat → Option (List Cluster)
  | 0 => some []
  | k + 1 =>
      match seedClusters rand records k, records[rand k % records.length]? with
      | some clusters, some record =>
          (readVector data storage dimension record.vector).map fun vector =>
            clusters ++ [
              { centroidVector := vector.val
                recordIndex := []
                count := 0
                capacity := UInt64.ofNat records.length
                byteOffsets := [] }]
      | _, _ => none

/-- The loop over the clusters that finds the nearest centroid. -/
def bestCluster (vector : List UInt32) : List Cluster → Nat → UInt32 → Nat → Nat
  | [], _, _, best => best
  | cluster :: rest, index, dis, best =>
      let temp := ops.calculate metric dimension cluster.centroidVector vector
      if ops.less temp dis then bestCluster vector rest (index + 1) temp index
      else bestCluster vector rest (index + 1) dis best

def addRecord (index : Nat) (cluster : Cluster) : Cluster :=
  { cluster with
    recordIndex := cluster.recordIndex ++ [index]
    count := cluster.count + 1 }

/-- The assignment loop: every record that is not deleted joins a cluster. -/
def assignRecords : List Record → Nat → List Cluster → Option (List Cluster)
  | [], _, clusters => some clusters
  | record :: rest, index, clusters =>
      if record.isDeleted then assignRecords rest (index + 1) clusters
      else
        match readVector data storage dimension record.vector with
        | none => none
        | some vector =>
            let best := bestCluster ops dimension metric vector.val clusters 0 ops.huge 0
            assignRecords rest (index + 1) (clusters.modify best (addRecord index))

def emptyCluster (cluster : Cluster) : Cluster :=
  { cluster with
    recordIndex := []
    count := 0 }

/-- `cluster_sum` of one cluster. -/
def clusterSum (records : List Record) (indices : List Nat) : List UInt32 :=
  indices.foldl
    (fun sum index =>
      match records[index]? with
      | none => sum
      | some record =>
          match readVector data storage dimension record.vector with
          | none => sum
          | some vector => List.zipWith ops.add sum vector.val)
    (List.replicate dimension.toNat ops.zero)

/-- A cluster without records keeps its centroid. -/
def updateCentroid (records : List Record) (cluster : Cluster) : Cluster :=
  if 0 < cluster.count then
    { cluster with
      centroidVector :=
        (clusterSum ops data storage dimension records cluster.recordIndex).map
          fun sum => ops.divCount sum cluster.count }
  else cluster

/-- Whether some component of some centroid has moved by more than epsilon. -/
def centroidsMoved (old new : List Cluster) : Bool :=
  (List.zipWith
    (fun before after =>
      (List.zipWith ops.moved before.centroidVector after.centroidVector).any (fun m => m))
    old new).any (fun m => m)

/-- The rounds of the training.  A round that moves a centroid is repeated
unless `ittrate` has reached `max_iterations`; `fuel` counts the rounds left. -/
def kmeansRounds (records : List Record) (maxIterations : UInt64) :
    Nat → Nat → List Cluster → Option (List Cluster)
  | 0, _, _ => none
  | fuel + 1, ittrate, clusters =>
      match assignRecords ops data storage dimension metric records 0
        (clusters.map emptyCluster) with
      | none => none
      | some assigned =>
          let updated := assigned.map (updateCentroid ops data storage dimension records)
          if centroidsMoved ops clusters updated then
            if maxIterations.toNat ≤ ittrate + 1 then some updated
            else kmeansRounds records maxIterations fuel (ittrate + 1) updated
          else some updated

/-- The final loop maps indices in the array to offsets in the file. -/
def mapOffsets (records : List Record) (cluster : Cluster) : Cluster :=
  { cluster with
    byteOffsets := cluster.recordIndex.filterMap fun index =>
      records[index]?.map Record.byteOffset }

/-- `kmeans_build`. -/
def kmeansBuild (rand : Nat → Nat) (records : List Record) (k maxIterations : UInt64) :
    Option (List Cluster) :=
  match seedClusters data storage dimension rand records k.toNat with
  | none => none
  | some seeded =>
      (kmeansRounds ops data storage dimension metric records maxIterations
        (max 1 maxIterations.toNat) 0 seeded).map fun clusters =>
          clusters.map (mapOffsets records)

/-! ### The offsets of a trained index -/

/-- Every index a cluster holds is that of a record that is not deleted. -/
def NamesLive (records : List Record) (clusters : List Cluster) : Prop :=
  ∀ cluster ∈ clusters, ∀ index ∈ cluster.recordIndex,
    ∃ record, records[index]? = some record ∧ record.isDeleted = false

theorem namesLive_emptied (records : List Record) (clusters : List Cluster) :
    NamesLive records (clusters.map emptyCluster) := by
  intro cluster member index indexMember
  obtain ⟨original, -, rfl⟩ := List.mem_map.mp member
  cases indexMember

theorem namesLive_modify {records : List Record} {clusters : List Cluster} {index best : Nat}
    {record : Record} (names : NamesLive records clusters)
    (found : records[index]? = some record) (live : record.isDeleted = false) :
    NamesLive records (clusters.modify best (addRecord index)) := by
  intro cluster member other otherMember
  obtain ⟨position, inside, rfl⟩ := List.mem_iff_getElem.mp member
  rw [List.getElem_modify] at otherMember
  rw [List.length_modify] at inside
  have original := List.getElem_mem inside
  split at otherMember
  · rcases List.mem_append.mp otherMember with earlier | last
    · exact names _ original other earlier
    · rw [List.mem_singleton.mp last]
      exact ⟨record, found, live⟩
  · exact names _ original other otherMember

theorem assignRecords_namesLive {records rest : List Record} (earlier : List Record)
    {clusters assigned : List Cluster} (split : records = earlier ++ rest)
    (names : NamesLive records clusters)
    (ran : assignRecords ops data storage dimension metric rest earlier.length clusters =
      some assigned) :
    NamesLive records assigned := by
  induction rest generalizing earlier clusters with
  | nil =>
      cases Option.some.inj ran
      exact names
  | cons record rest ih =>
      have splitNext : records = (earlier ++ [record]) ++ rest := by
        rw [split, List.append_assoc, List.singleton_append]
      have lengthEq : (earlier ++ [record]).length = earlier.length + 1 := by
        rw [List.length_append, List.length_singleton]
      rw [assignRecords, ← lengthEq] at ran
      split at ran
      · exact ih _ splitNext names ran
      · rename_i notDeleted
        split at ran
        · cases ran
        · have found : records[earlier.length]? = some record := by
            rw [split, List.getElem?_append_right (Nat.le_refl _), Nat.sub_self,
              List.getElem?_cons_zero]
          have live : record.isDeleted = false := Bool.eq_false_iff.mpr notDeleted
          exact ih _ splitNext (namesLive_modify names found live) ran

theorem namesLive_updated {records : List Record} {clusters : List Cluster}
    (names : NamesLive records clusters) :
    NamesLive records (clusters.map (updateCentroid ops data storage dimension records)) := by
  intro cluster member index indexMember
  obtain ⟨original, originalMember, rfl⟩ := List.mem_map.mp member
  apply names original originalMember index
  unfold updateCentroid at indexMember
  split at indexMember
  · exact indexMember
  · exact indexMember

theorem kmeansRounds_namesLive {records : List Record} {maxIterations : UInt64}
    {fuel ittrate : Nat} {clusters trained : List Cluster}
    (ran : kmeansRounds ops data storage dimension metric records maxIterations fuel ittrate
      clusters = some trained) :
    NamesLive records trained := by
  induction fuel generalizing ittrate clusters with
  | zero => cases ran
  | succ fuel ih =>
      rw [kmeansRounds] at ran
      split at ran
      · cases ran
      · rename_i assigned assignedEq
        have names := namesLive_updated ops data storage dimension
          (assignRecords_namesLive ops data storage dimension metric [] rfl
            (namesLive_emptied records clusters) assignedEq)
        dsimp only at ran
        split at ran
        · split at ran
          · cases Option.some.inj ran
            exact names
          · exact ih ran
        · cases Option.some.inj ran
          exact names

/-- Every offset in a trained index is that of a live record of the array. -/
theorem kmeansBuild_offsets {rand : Nat → Nat} {records : List Record}
    {k maxIterations : UInt64} {trained : List Cluster}
    (ran : kmeansBuild ops data storage dimension metric rand records k maxIterations =
      some trained)
    {cluster : Cluster} (member : cluster ∈ trained) {offset : UInt64}
    (offsetMember : offset ∈ cluster.byteOffsets) :
    ∃ record ∈ records, record.isDeleted = false ∧ record.byteOffset = offset := by
  unfold kmeansBuild at ran
  split at ran
  · cases ran
  · obtain ⟨rounds, roundsEq, rfl⟩ := Option.map_eq_some_iff.mp ran
    obtain ⟨original, originalMember, rfl⟩ := List.mem_map.mp member
    obtain ⟨index, indexMember, mapped⟩ := List.mem_filterMap.mp offsetMember
    obtain ⟨record, found, live⟩ := kmeansRounds_namesLive ops data storage dimension metric
      roundsEq original originalMember index indexMember
    rw [found, Option.map_some] at mapped
    exact ⟨record, List.mem_of_getElem? found, live, Option.some.inj mapped⟩

end Training

end OriginDb
