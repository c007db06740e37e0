/-
Training on numbers of any kind.

`kmeans_build` is Lloyd's method on the vectors of the live records, seeded with
vectors that `rand` picks from all of them.  The method is stated here over any
type of numbers, so that one definition is both what the code computes on its
32-bit patterns and what it would compute in exact arithmetic.
-/

import Mathlib.Algebra.BigOperators.Group.List.Basic
import Mathlib.Algebra.Field.Defs
import Mathlib.Algebra.Order.Ring.Rat
import OriginDb.ExactSearch
import OriginDb.Foundation.Lloyd
import OriginDb.SearchAgreement

namespace OriginDb

open Foundation

/-! ### The training over a type of numbers -/

/-- The arithmetic of the training and its distance function. -/
structure TrainingOps (F : Type) where
  zero : F
  add : F → F → F
  divCount : F → UInt64 → F
  moved : F → F → Bool
  less : F → F → Bool
  huge : F
  distance : List F → List F → F

/-- What the training reads of a record. -/
structure TrainingRow (F : Type) where
  vector : List F
  isDeleted : Bool
  byteOffset : UInt64

section Numbers

variable {F : Type} (ops : TrainingOps F)

/-- The loop over the centroids that finds the nearest one. -/
def nearestCentroid (vector : List F) : List (List F) → Nat → F → Nat → Nat
  | [], _, _, best => best
  | centroid :: rest, index, dis, best =>
      let temp := ops.distance centroid vector
      if ops.less temp dis then nearestCentroid vector rest (index + 1) temp index
      else nearestCentroid vector rest (index + 1) dis best

def sumVectors (dimension : Nat) (vectors : List (List F)) : List F :=
  vectors.foldl (List.zipWith ops.add) (List.replicate dimension ops.zero)

def meanVector (dimension : Nat) (vectors : List (List F)) : List F :=
  (sumVectors ops dimension vectors).map fun sum =>
    ops.divCount sum (UInt64.ofNat vectors.length)

def anyMoved (old new : List (List F)) : Bool :=
  (List.zipWith
    (fun before after => (List.zipWith ops.moved before after).any (fun m => m))
    old new).any (fun m => m)

/-- Lloyd's method as `kmeans_build` runs it. -/
def trainingMethod (dimension : Nat) : Lloyd.Method (List F) where
  nearest := fun centroids vector => nearestCentroid ops vector centroids 0 ops.huge 0
  mean := meanVector ops dimension
  moved := anyMoved ops

/-- The vectors of the rows that are not deleted, with their indices. -/
def livePoints : List (TrainingRow F) → Nat → List (Nat × List F)
  | [], _ => []
  | row :: rest, index =>
      if row.isDeleted then livePoints rest (index + 1)
      else (index, row.vector) :: livePoints rest (index + 1)

/-- The vectors that `rand` picks, of all rows. -/
def seedVectors (rand : Nat → Nat) (rows : List (TrainingRow F)) (k : Nat) : List (List F) :=
  (List.range k).map fun position =>
    ((rows[rand position % rows.length]?).map TrainingRow.vector).getD []

def trainRows (dimension : Nat) (rand : Nat → Nat) (rows : List (TrainingRow F))
    (k maxIterations : Nat) : Option (List (Lloyd.Group (List F))) :=
  Lloyd.rounds (trainingMethod ops dimension) (livePoints rows 0) maxIterations
    (max 1 maxIterations) 0 (seedVectors rand rows k)

theorem nearestCentroid_lt (vector : List F) {bound : Nat} (centroids : List (List F))
    (index : Nat) (dis : F) (best : Nat) (inside : index + centroids.length ≤ bound)
    (bestInside : best < bound) :
    nearestCentroid ops vector centroids index dis best < bound := by
  induction centroids generalizing index dis best with
  | nil => exact bestInside
  | cons centroid rest ih =>
      rw [List.length_cons] at inside
      unfold nearestCentroid
      dsimp only
      split
      · exact ih (index + 1) _ index (by omega) (by omega)
      · exact ih (index + 1) _ best (by omega) bestInside

theorem nearest_lt (dimension : Nat) {centroids : List (List F)} (nonempty : centroids ≠ [])
    (vector : List F) :
    (trainingMethod ops dimension).nearest centroids vector < centroids.length :=
  nearestCentroid_lt ops vector centroids 0 ops.huge 0 (by omega)
    (List.length_pos_iff.mpr nonempty)

theorem livePoints_bounds {rows : List (TrainingRow F)} {index : Nat} {point : Nat × List F}
    (member : point ∈ livePoints rows index) :
    index ≤ point.1 ∧ ∃ row, rows[point.1 - index]? = some row ∧ row.isDeleted = false ∧
      row.vector = point.2 := by
  induction rows generalizing index with
  | nil => cases member
  | cons row rest ih =>
      have later : ∀ inRest : point ∈ livePoints rest (index + 1),
          index ≤ point.1 ∧ ∃ found, (row :: rest)[point.1 - index]? = some found ∧
            found.isDeleted = false ∧ found.vector = point.2 := by
        intro inRest
        obtain ⟨above, found, atIndex, live, vectorEq⟩ := ih inRest
        have shifted : point.1 - index = point.1 - (index + 1) + 1 := by omega
        refine ⟨by omega, found, ?_, live, vectorEq⟩
        rw [shifted, List.getElem?_cons_succ]
        exact atIndex
      unfold livePoints at member
      split at member
      · exact later member
      · rename_i notDeleted
        rcases List.mem_cons.mp member with rfl | inRest
        · refine ⟨Nat.le_refl _, row, ?_, Bool.eq_false_iff.mpr notDeleted, rfl⟩
          rw [Nat.sub_self, List.getElem?_cons_zero]
        · exact later inRest

theorem livePoints_sorted (rows : List (TrainingRow F)) (index : Nat) :
    ((livePoints rows index).map Prod.fst).Pairwise (· < ·) := by
  induction rows generalizing index with
  | nil => exact List.Pairwise.nil
  | cons row rest ih =>
      unfold livePoints
      split
      · exact ih (index + 1)
      · rw [List.map_cons, List.pairwise_cons]
        refine ⟨?_, ih (index + 1)⟩
        intro later member
        obtain ⟨point, pointMember, rfl⟩ := List.mem_map.mp member
        exact (livePoints_bounds pointMember).1

theorem livePoints_length_le (rows : List (TrainingRow F)) (index : Nat) :
    (livePoints rows index).length ≤ rows.length := by
  induction rows generalizing index with
  | nil => exact Nat.le_refl 0
  | cons row rest ih =>
      have later := ih (index + 1)
      unfold livePoints
      split
      · rw [List.length_cons]
        omega
      · rw [List.length_cons, List.length_cons]
        omega

/-- An index occurs among the live points once if its row is live, else never. -/
theorem count_livePoints (rows : List (TrainingRow F)) (start index : Nat) :
    ((livePoints rows start).map Prod.fst).count (start + index) =
      if (rows[index]?).any (fun row => !row.isDeleted) then 1 else 0 := by
  induction rows generalizing start index with
  | nil => rfl
  | cons row rest ih =>
      have behind : ((livePoints rest (start + 1)).map Prod.fst).count start = 0 := by
        rw [List.count_eq_zero]
        intro member
        obtain ⟨point, pointMember, pointEq⟩ := List.mem_map.mp member
        have above := (livePoints_bounds pointMember).1
        omega
      unfold livePoints
      cases index with
      | zero =>
          rw [Nat.add_zero, List.getElem?_cons_zero, Option.any_some]
          cases row.isDeleted with
          | true => exact behind
          | false =>
              rw [if_neg Bool.false_ne_true, List.map_cons, List.count_cons_self, behind]
              rfl
      | succ index =>
          have shifted : start + (index + 1) = start + 1 + index := by omega
          rw [List.getElem?_cons_succ, shifted]
          split
          · exact ih (start + 1) index
          · rw [List.map_cons, List.count_cons_of_ne (by dsimp only; omega)]
            exact ih (start + 1) index

/-- The groups hold every live row once, in the order of the rows, and those that hold
any have their mean as centroid. -/
structure GathersRows (dimension : Nat) (rows : List (TrainingRow F))
    (groups : List (Lloyd.Group (List F))) : Prop where
  once : (groups.flatMap Lloyd.Group.members).Perm (livePoints rows 0)
  ordered : ∀ group ∈ groups, group.members.Sublist (livePoints rows 0)
  centered : ∀ group ∈ groups, group.members ≠ [] →
    group.centroid = meanVector ops dimension (group.members.map Prod.snd)

/-- What every round keeps of the centroids holds of those that the last round of the
training starts from. -/
theorem trainRows_invariant (maxIterations : Nat) {invariant : List (List F) → Prop}
    {dimension : Nat} {rand : Nat → Nat} {rows : List (TrainingRow F)} {k : Nat}
    (keeps : ∀ centroids, invariant centroids →
      invariant ((Lloyd.round (trainingMethod ops dimension) (livePoints rows 0) centroids).map
        Lloyd.Group.centroid))
    (start : invariant (seedVectors rand rows k)) :
    ∃ last, invariant last ∧
      ∀ fuel, max 1 maxIterations ≤ fuel →
        Lloyd.rounds (trainingMethod ops dimension) (livePoints rows 0) maxIterations fuel 0
          (seedVectors rand rows k) =
            some (Lloyd.round (trainingMethod ops dimension) (livePoints rows 0) last) := by
  obtain ⟨groups, ended⟩ : ∃ groups, ∀ fuel, max 1 maxIterations ≤ fuel →
      Lloyd.rounds (trainingMethod ops dimension) (livePoints rows 0) maxIterations fuel 0
        (seedVectors rand rows k) = some groups :=
    Lloyd.rounds_end (Nat.le_max_left 1 maxIterations) (by omega) _
  obtain ⟨last, lastInvariant, rfl⟩ :=
    Lloyd.rounds_invariant keeps start (ended _ (Nat.le_refl _))
  exact ⟨last, lastInvariant, ended⟩

theorem seedVectors_length (rand : Nat → Nat) (rows : List (TrainingRow F)) (k : Nat) :
    (seedVectors rand rows k).length = k := by
  rw [seedVectors, List.length_map, List.length_range]

theorem round_keeps_length (dimension : Nat) (points : List (Nat × List F)) (k : Nat)
    (centroids : List (List F)) (lengthEq : centroids.length = k) :
    ((Lloyd.round (trainingMethod ops dimension) points centroids).map
      Lloyd.Group.centroid).length = k := by
  rw [List.length_map, Lloyd.round_length, lengthEq]

/-- The training ends, within the cap, with a grouping of the live rows. -/
theorem trainRows_gathers (dimension : Nat) (rand : Nat → Nat) (rows : List (TrainingRow F))
    {k : Nat} (positive : 1 ≤ k) (maxIterations : Nat) :
    ∃ groups, trainRows ops dimension rand rows k maxIterations = some groups ∧
      (∀ fuel, max 1 maxIterations ≤ fuel →
        Lloyd.rounds (trainingMethod ops dimension) (livePoints rows 0) maxIterations fuel 0
          (seedVectors rand rows k) = some groups) ∧
      groups.length = k ∧ GathersRows ops dimension rows groups := by
  let method := trainingMethod ops dimension
  let points := livePoints rows 0
  obtain ⟨last, lastLength, ended⟩ :=
    trainRows_invariant ops maxIterations (round_keeps_length ops dimension points k)
      (seedVectors_length rand rows k)
  have nonempty : last ≠ [] := by
    rw [← List.length_pos_iff, lastLength]
    exact positive
  have nearest : ∀ point ∈ points, method.nearest last point.2 < last.length :=
    fun point _ => nearest_lt ops dimension nonempty point.2
  have lengthEq : (Lloyd.round method points last).length = k := by
    rw [Lloyd.round_length, lastLength]
  have gathers : GathersRows ops dimension rows (Lloyd.round method points last) := by
    constructor
    · exact Lloyd.round_members_perm method points nearest
    · exact fun group member => Lloyd.members_sublist method points member
    · exact fun group member => Lloyd.centroid_of_members method points member
  exact ⟨_, ended _ (Nat.le_refl _), ended, lengthEq, gathers⟩

end Numbers

/-! ### Exact arithmetic -/

section Exact

variable {K : Type} [Field K]

/-- Sums and quotients without rounding; the distance may be anything. -/
structure TrainingOps.Exact (ops : TrainingOps K) : Prop where
  zero : ops.zero = 0
  add : ∀ first second, ops.add first second = first + second
  divCount : ∀ sum count, ops.divCount sum count = sum / (count.toNat : K)

/-- The mean of some vectors, component by component. -/
def exactMean (dimension : Nat) (vectors : List (List K)) : List K :=
  (List.range dimension).map fun component =>
    (vectors.map fun vector => vector.getD component 0).sum / (vectors.length : K)

theorem foldl_add_eq {dimension : Nat} {vectors : List (List K)}
    (lengths : ∀ vector ∈ vectors, vector.length = dimension) {start : List K}
    (startLength : start.length = dimension) :
    vectors.foldl (List.zipWith (· + ·)) start =
      (List.range dimension).map fun component =>
        start.getD component 0 + (vectors.map fun vector => vector.getD component 0).sum := by
  induction vectors generalizing start with
  | nil =>
      apply List.ext_getElem
      · rw [List.foldl_nil, List.length_map, List.length_range, startLength]
      · intro component inside _
        have inStart : component < start.length := inside
        simp only [List.foldl_nil, List.map_nil, List.sum_nil, add_zero, List.getElem_map,
          List.getElem_range, List.getD_eq_getElem?_getD, List.getElem?_eq_getElem inStart,
          Option.getD_some]
  | cons vector rest ih =>
      have vectorLength := lengths vector (List.mem_cons_self ..)
      have sumLength : (List.zipWith (· + ·) start vector).length = dimension := by
        rw [List.length_zipWith, startLength, vectorLength, Nat.min_self]
      rw [List.foldl_cons,
        ih (fun other member => lengths other (List.mem_cons_of_mem vector member)) sumLength]
      apply List.map_congr_left
      intro component member
      have inside := List.mem_range.mp member
      have componentSum : (List.zipWith (· + ·) start vector).getD component 0 =
          start.getD component 0 + vector.getD component 0 := by
        rw [List.getD_eq_getElem?_getD, List.getD_eq_getElem?_getD, List.getD_eq_getElem?_getD,
          List.getElem?_eq_getElem (by omega), List.getElem?_eq_getElem (by omega),
          List.getElem?_eq_getElem (by omega), List.getElem_zipWith]
        rfl
      rw [componentSum, List.map_cons, List.sum_cons, add_assoc]

theorem meanVector_exact {ops : TrainingOps K} (exact : ops.Exact) {dimension : Nat}
    {vectors : List (List K)} (lengths : ∀ vector ∈ vectors, vector.length = dimension)
    (small : vectors.length < 2 ^ 64) :
    meanVector ops dimension vectors = exactMean dimension vectors := by
  have addEq : ops.add = (· + ·) := by
    funext first second
    exact exact.add first second
  have countEq : (UInt64.ofNat vectors.length).toNat = vectors.length :=
    UInt64.toNat_ofNat_of_lt' small
  unfold meanVector sumVectors exactMean
  rw [addEq, exact.zero, foldl_add_eq lengths List.length_replicate, List.map_map]
  apply List.map_congr_left
  intro component member
  have inside := List.mem_range.mp member
  rw [Function.comp_apply, exact.divCount, countEq, List.getD_eq_getElem?_getD,
    List.getElem?_replicate, if_pos inside, Option.getD_some, zero_add]

/-- Where the arithmetic is exact, the mean that the code computes is the mean. -/
theorem GathersRows.centered_exact {exactOps : TrainingOps K} (exact : exactOps.Exact)
    {width : Nat} {rows : List (TrainingRow K)} (rowsSmall : rows.length < 2 ^ 64)
    (widths : ∀ row ∈ rows, row.vector.length = width)
    {groups : List (Lloyd.Group (List K))} (gathers : GathersRows exactOps width rows groups)
    {group : Lloyd.Group (List K)} (member : group ∈ groups) (someMembers : group.members ≠ []) :
    group.centroid = exactMean width (group.members.map Prod.snd) := by
  have sublist := gathers.ordered group member
  rw [gathers.centered group member someMembers]
  apply meanVector_exact exact
  · intro vector vectorMember
    obtain ⟨point, pointMember, rfl⟩ := List.mem_map.mp vectorMember
    obtain ⟨-, row, atIndex, -, vectorEq⟩ := livePoints_bounds (sublist.subset pointMember)
    rw [← vectorEq]
    exact widths row (List.mem_of_getElem? atIndex)
  · rw [List.length_map]
    have inRows := Nat.le_trans sublist.length_le (livePoints_length_le rows 0)
    exact Nat.lt_of_le_of_lt inRows rowsSmall

end Exact

/-! ### What `kmeans_build` computes -/

section Refinement

variable (ops : FloatOps) (data : List UInt8) (storage : Storage) (dimension : UInt64)
  (metric : MetricType)

/-- The training on 32-bit patterns. -/
def FloatOps.training : TrainingOps UInt32 where
  zero := ops.zero
  add := ops.add
  divCount := ops.divCount
  moved := ops.moved
  less := ops.less
  huge := ops.huge
  distance := ops.calculate metric dimension

def Record.trainingRow (record : Record) : TrainingRow UInt32 where
  vector := (record.followed data storage dimension).vector
  isDeleted := record.isDeleted
  byteOffset := record.byteOffset

/-- The cluster that the code makes of a group. -/
def gathered (capacity : UInt64) (group : Lloyd.Group (List UInt32)) : Cluster where
  centroidVector := group.centroid
  recordIndex := group.members.map Prod.fst
  count := UInt64.ofNat group.members.length
  capacity := capacity
  byteOffsets := []

def addPoints (points : List (Nat × List UInt32)) (cluster : Cluster) : Cluster :=
  { cluster with
    recordIndex := cluster.recordIndex ++ points.map Prod.fst
    count := cluster.count + UInt64.ofNat points.length }

theorem addPoints_nil (cluster : Cluster) : addPoints [] cluster = cluster := by
  rw [addPoints, List.map_nil, List.append_nil, List.length_nil]
  change { cluster with count := cluster.count + 0 } = cluster
  rw [UInt64.add_zero]

theorem addPoints_cons (point : Nat × List UInt32) (points : List (Nat × List UInt32))
    (cluster : Cluster) :
    addPoints (point :: points) cluster = addPoints points (addRecord point.1 cluster) := by
  have countEq : cluster.count + UInt64.ofNat (points.length + 1) =
      cluster.count + 1 + UInt64.ofNat points.length := by
    rw [UInt64.ofNat_add, UInt64.add_comm (UInt64.ofNat points.length), ← UInt64.add_assoc]
    rfl
  simp only [addPoints, addRecord, List.map_cons, List.length_cons, List.append_assoc,
    List.singleton_append, countEq]

theorem bestCluster_eq (vector : List UInt32) (clusters : List Cluster) (index : Nat)
    (dis : UInt32) (best : Nat) :
    bestCluster ops dimension metric vector clusters index dis best =
      nearestCentroid (ops.training dimension metric) vector
        (clusters.map Cluster.centroidVector) index dis best := by
  induction clusters generalizing index dis best with
  | nil => rfl
  | cons cluster rest ih =>
      rw [List.map_cons, bestCluster, nearestCentroid, ih, ih]
      rfl

theorem readVector_followed {record : Record}
    (readable : (readVector data storage dimension record.vector).isSome = true) :
    ∃ vector, readVector data storage dimension record.vector = some vector ∧
      vector.val = (record.trainingRow data storage dimension).vector := by
  obtain ⟨vector, found⟩ := Option.isSome_iff_exists.mp readable
  exact ⟨vector, found, by simp only [Record.trainingRow, Record.followed, found, Option.getD_some]⟩

theorem map_centroidVector_modify (clusters : List Cluster) (position index : Nat) :
    (clusters.modify position (addRecord index)).map Cluster.centroidVector =
      clusters.map Cluster.centroidVector := by
  apply List.ext_getElem
  · rw [List.length_map, List.length_map, List.length_modify]
  · intro other _ _
    rw [List.getElem_map, List.getElem_map, List.getElem_modify]
    split <;> rfl

/-- The assignment loop adds to every cluster the points that are nearest to it. -/
theorem assignRecords_eq {records : List Record}
    (readable : Readable data storage dimension records) (index : Nat) (clusters : List Cluster) :
    assignRecords ops data storage dimension metric records index clusters =
      some (clusters.zipIdx.map fun entry =>
        addPoints (Lloyd.membersAt
          (trainingMethod (ops.training dimension metric) dimension.toNat)
          (livePoints (records.map (Record.trainingRow data storage dimension)) index)
          (clusters.map Cluster.centroidVector) entry.2) entry.1) := by
  induction records generalizing index clusters with
  | nil =>
      have same : clusters.zipIdx.map Prod.fst = clusters := List.zipIdx_map_fst 0 clusters
      have unchanged : (fun entry : Cluster × Nat => addPoints [] entry.1) = Prod.fst :=
        funext fun entry => addPoints_nil entry.1
      rw [assignRecords]
      change some clusters = some (clusters.zipIdx.map fun entry => addPoints [] entry.1)
      rw [unchanged, same]
  | cons record rest ih =>
      have restReadable : Readable data storage dimension rest := fun other member =>
        readable other (List.mem_cons_of_mem record member)
      rw [assignRecords, List.map_cons, livePoints]
      by_cases deleted : record.isDeleted = true
      · rw [if_pos deleted,
          if_pos (show (record.trainingRow data storage dimension).isDeleted = true from deleted)]
        exact ih restReadable (index + 1) clusters
      · obtain ⟨vector, found, vectorEq⟩ := readVector_followed data storage dimension
          (readable record (List.mem_cons_self ..))
        rw [if_neg deleted,
          if_neg (show ¬(record.trainingRow data storage dimension).isDeleted = true from deleted),
          found]
        dsimp only
        have bestEq : bestCluster ops dimension metric vector.val clusters 0 ops.huge 0 =
            (trainingMethod (ops.training dimension metric) dimension.toNat).nearest
              (clusters.map Cluster.centroidVector)
              (record.trainingRow data storage dimension).vector := by
          rw [bestCluster_eq, vectorEq]
          rfl
        rw [ih restReadable (index + 1), map_centroidVector_modify, bestEq]
        apply congrArg some
        apply List.ext_getElem
        · simp only [List.length_map, List.length_zipIdx, List.length_modify]
        · intro position inside _
          simp only [List.getElem_map, List.getElem_zipIdx, Nat.zero_add, List.getElem_modify]
          have members := Lloyd.membersAt_cons
            (trainingMethod (ops.training dimension metric) dimension.toNat)
            (livePoints (rest.map (Record.trainingRow data storage dimension)) (index + 1))
            (index, (record.trainingRow data storage dimension).vector)
            (clusters.map Cluster.centroidVector) position
          by_cases chosen : (trainingMethod (ops.training dimension metric)
              dimension.toNat).nearest (clusters.map Cluster.centroidVector)
                (record.trainingRow data storage dimension).vector = position
          · rw [if_pos chosen, members.trans (if_pos chosen), addPoints_cons]
          · rw [if_neg chosen, members.trans (if_neg chosen)]

/-- The points of a cluster lead back to the records they come from. -/
theorem clusterSum_eq {records : List Record} {points : List (Nat × List UInt32)}
    (found : ∀ point ∈ points, ∃ record vector, records[point.1]? = some record ∧
      readVector data storage dimension record.vector = some vector ∧ vector.val = point.2) :
    clusterSum ops data storage dimension records (points.map Prod.fst) =
      sumVectors (ops.training dimension metric) dimension.toNat (points.map Prod.snd) := by
  unfold clusterSum sumVectors
  change _ = (points.map Prod.snd).foldl (List.zipWith ops.add)
    (List.replicate dimension.toNat ops.zero)
  generalize List.replicate dimension.toNat ops.zero = sum
  induction points generalizing sum with
  | nil => rfl
  | cons point rest ih =>
      obtain ⟨record, vector, atIndex, read, vectorEq⟩ := found point (List.mem_cons_self ..)
      rw [List.map_cons, List.map_cons, List.foldl_cons, List.foldl_cons, atIndex]
      dsimp only
      rw [read, ← vectorEq]
      exact ih (fun other member => found other (List.mem_cons_of_mem point member)) _

theorem livePoints_found {records : List Record}
    (readable : Readable data storage dimension records) {point : Nat × List UInt32}
    (member : point ∈ livePoints (records.map (Record.trainingRow data storage dimension)) 0) :
    ∃ record vector, records[point.1]? = some record ∧
      readVector data storage dimension record.vector = some vector ∧ vector.val = point.2 := by
  obtain ⟨-, row, atIndex, -, rowVector⟩ := livePoints_bounds member
  rw [Nat.sub_zero, List.getElem?_map] at atIndex
  obtain ⟨record, found, rfl⟩ := Option.map_eq_some_iff.mp atIndex
  obtain ⟨vector, read, vectorEq⟩ := readVector_followed data storage dimension
    (readable record (List.mem_of_getElem? found))
  exact ⟨record, vector, found, read, vectorEq.trans rowVector⟩

/-- One round on one cluster. -/
theorem updateCentroid_eq {records : List Record} {points : List (Nat × List UInt32)}
    (found : ∀ point ∈ points, ∃ record vector, records[point.1]? = some record ∧
      readVector data storage dimension record.vector = some vector ∧ vector.val = point.2)
    (small : points.length < 2 ^ 64) {cluster : Cluster} (noOffsets : cluster.byteOffsets = []) :
    updateCentroid ops data storage dimension records (addPoints points (emptyCluster cluster)) =
      gathered cluster.capacity (Lloyd.groupOf
        (trainingMethod (ops.training dimension metric) dimension.toNat) cluster.centroidVector
        points) := by
  have countEq : (addPoints points (emptyCluster cluster)).count = UInt64.ofNat points.length :=
    UInt64.zero_add _
  have countToNat : (UInt64.ofNat points.length).toNat = points.length :=
    UInt64.toNat_ofNat_of_lt' small
  have positive : 0 < UInt64.ofNat points.length ↔ points ≠ [] := by
    rw [UInt64.lt_iff_toNat_lt, countToNat, ← List.length_pos_iff]
    rfl
  have indexEq : (addPoints points (emptyCluster cluster)).recordIndex = points.map Prod.fst :=
    List.nil_append _
  have offsetsEq : (addPoints points (emptyCluster cluster)).byteOffsets = [] := noOffsets
  rw [updateCentroid, countEq]
  by_cases empty : points = []
  · have isEmpty : points.isEmpty = true := List.isEmpty_iff.mpr empty
    rw [if_neg fun some => positive.mp some empty, gathered, Lloyd.groupOf, if_pos isEmpty]
    cases empty
    rw [addPoints_nil, emptyCluster, noOffsets]
    rfl
  · have notEmpty : ¬points.isEmpty = true := fun none => empty (List.isEmpty_iff.mp none)
    have meanEq : (trainingMethod (ops.training dimension metric) dimension.toNat).mean
        (points.map Prod.snd) =
          (sumVectors (ops.training dimension metric) dimension.toNat (points.map Prod.snd)).map
            fun sum => ops.divCount sum (UInt64.ofNat points.length) := by
      change meanVector _ _ _ = _
      rw [meanVector, List.length_map]
      rfl
    rw [if_pos (positive.mpr empty), gathered, Lloyd.groupOf, if_neg notEmpty, indexEq,
      clusterSum_eq ops data storage dimension metric found, offsetsEq, meanEq]
    rfl

theorem anyMoved_eq (old new : List Cluster) :
    centroidsMoved ops old new = anyMoved (ops.training dimension metric)
      (old.map Cluster.centroidVector) (new.map Cluster.centroidVector) := by
  unfold centroidsMoved anyMoved
  rw [List.zipWith_map]
  rfl

variable {records : List Record} (readable : Readable data storage dimension records)
  (small : records.length < 2 ^ 64) {capacity : UInt64}

include readable small

/-- The rounds of the code are those of the method. -/
theorem kmeansRounds_eq (maxIterations : UInt64) (fuel ittrate : Nat) {clusters : List Cluster}
    (shape : ∀ cluster ∈ clusters, cluster.capacity = capacity ∧ cluster.byteOffsets = []) :
    kmeansRounds ops data storage dimension metric records maxIterations fuel ittrate clusters =
      (Lloyd.rounds (trainingMethod (ops.training dimension metric) dimension.toNat)
        (livePoints (records.map (Record.trainingRow data storage dimension)) 0)
        maxIterations.toNat fuel ittrate (clusters.map Cluster.centroidVector)).map
          (List.map (gathered capacity)) := by
  let method := trainingMethod (ops.training dimension metric) dimension.toNat
  let points := livePoints (records.map (Record.trainingRow data storage dimension)) 0
  induction fuel generalizing ittrate clusters with
  | zero => rfl
  | succ fuel ih =>
      let groups := Lloyd.round method points (clusters.map Cluster.centroidVector)
      have emptiedCentroids : (clusters.map emptyCluster).map Cluster.centroidVector =
          clusters.map Cluster.centroidVector := by
        rw [List.map_map]
        rfl
      have pointsSmall : points.length < 2 ^ 64 := by
        have bounded := livePoints_length_le
          (records.map (Record.trainingRow data storage dimension)) 0
        rw [List.length_map] at bounded
        exact Nat.lt_of_le_of_lt bounded small
      have updatedEq : ((clusters.map emptyCluster).zipIdx.map fun entry =>
            addPoints (Lloyd.membersAt method points (clusters.map Cluster.centroidVector) entry.2)
              entry.1).map (updateCentroid ops data storage dimension records) =
          groups.map (gathered capacity) := by
        apply List.ext_getElem
        · simp only [groups, Lloyd.round, List.length_map, List.length_zipIdx]
        · intro position inside _
          have isCluster : position < clusters.length := by
            simpa only [List.length_map, List.length_zipIdx] using inside
          obtain ⟨capacityEq, noOffsets⟩ := shape _ (List.getElem_mem isCluster)
          simp only [groups, Lloyd.round, List.getElem_map, List.getElem_zipIdx, Nat.zero_add]
          rw [updateCentroid_eq ops data storage dimension metric _ _ noOffsets, capacityEq]
          · intro point member
            exact livePoints_found data storage dimension readable (List.mem_of_mem_filter member)
          · exact Nat.lt_of_le_of_lt (List.length_filter_le _ _) pointsSmall
      have centroidsEq : (groups.map (gathered capacity)).map Cluster.centroidVector =
          groups.map Lloyd.Group.centroid := by
        rw [List.map_map]
        rfl
      have nextShape : ∀ cluster ∈ groups.map (gathered capacity),
          cluster.capacity = capacity ∧ cluster.byteOffsets = [] := by
        intro cluster member
        obtain ⟨group, -, rfl⟩ := List.mem_map.mp member
        exact ⟨rfl, rfl⟩
      have movedEq : centroidsMoved ops clusters (groups.map (gathered capacity)) =
          method.moved (clusters.map Cluster.centroidVector)
            (groups.map Lloyd.Group.centroid) := by
        rw [anyMoved_eq ops dimension metric, centroidsEq]
        rfl
      rw [kmeansRounds, assignRecords_eq ops data storage dimension metric readable,
        emptiedCentroids]
      dsimp only
      rw [updatedEq, movedEq, ih (ittrate + 1) nextShape, centroidsEq, Lloyd.rounds]
      split
      · split
        · rfl
        · rfl
      · rfl

omit small in
theorem seedClusters_eq (rand : Nat → Nat) (nonempty : records ≠ []) (k : Nat) :
    seedClusters data storage dimension rand records k =
      some ((seedVectors rand (records.map (Record.trainingRow data storage dimension)) k).map
        fun vector => gathered (UInt64.ofNat records.length) ⟨vector, []⟩) := by
  induction k with
  | zero => rfl
  | succ k ih =>
      have inside : rand k % records.length < records.length :=
        Nat.mod_lt _ (List.length_pos_iff.mpr nonempty)
      obtain ⟨vector, read, vectorEq⟩ := readVector_followed data storage dimension
        (readable _ (List.getElem_mem inside))
      rw [seedClusters, ih, List.getElem?_eq_getElem inside]
      dsimp only
      rw [read, Option.map_some, seedVectors, seedVectors, List.range_succ, List.map_append,
        List.map_append, List.map_singleton, List.length_map, List.getElem?_map,
        List.getElem?_eq_getElem inside, vectorEq]
      rfl

/-- The clusters that the training returns for the groups of the method. -/
def trainedCluster (records : List Record) (group : Lloyd.Group (List UInt32)) : Cluster :=
  mapOffsets records (gathered (UInt64.ofNat records.length) group)

/-- `kmeans_build` is the training on 32-bit patterns. -/
theorem kmeansBuild_eq (rand : Nat → Nat) (nonempty : records ≠ []) (k maxIterations : UInt64) :
    kmeansBuild ops data storage dimension metric rand records k maxIterations =
      (trainRows (ops.training dimension metric) dimension.toNat rand
        (records.map (Record.trainingRow data storage dimension)) k.toNat
          maxIterations.toNat).map (List.map (trainedCluster records)) := by
  let capacity := UInt64.ofNat records.length
  let seeds := seedVectors rand (records.map (Record.trainingRow data storage dimension)) k.toNat
  have shape : ∀ cluster ∈ seeds.map fun vector => gathered capacity ⟨vector, []⟩,
      cluster.capacity = capacity ∧ cluster.byteOffsets = [] := by
    intro cluster member
    obtain ⟨vector, -, rfl⟩ := List.mem_map.mp member
    exact ⟨rfl, rfl⟩
  have centroids : (seeds.map fun vector => gathered capacity ⟨vector, []⟩).map
      Cluster.centroidVector = seeds := by
    rw [List.map_map]
    exact List.map_id seeds
  rw [kmeansBuild, seedClusters_eq data storage dimension readable rand nonempty]
  dsimp only
  rw [kmeansRounds_eq ops data storage dimension metric readable small maxIterations _ 0 shape,
    centroids, Option.map_map, trainRows]
  congr 1
  funext groups
  rw [Function.comp_apply, List.map_map]
  rfl

omit readable small in
/-- The clusters list every live record once and no deleted one, in the order of the
array, with the offsets of the records they list. -/
structure PartitionsRecords (records : List Record) (clusters : List Cluster) : Prop where
  once : ∀ index, (clusters.flatMap Cluster.recordIndex).count index =
    if (records[index]?).any (fun record => !record.isDeleted) then 1 else 0
  increasing : ∀ cluster ∈ clusters, cluster.recordIndex.Pairwise (· < ·)
  counted : ∀ cluster ∈ clusters, cluster.count.toNat = cluster.recordIndex.length ∧
    cluster.recordIndex.length ≤ records.length
  offsets : ∀ cluster ∈ clusters, cluster.byteOffsets.map some =
    cluster.recordIndex.map fun index => (records[index]?).map Record.byteOffset

omit readable small in
theorem map_some_filterMap {α β : Type} {part : α → Option β} {items : List α}
    (all : ∀ item ∈ items, (part item).isSome = true) :
    (items.filterMap part).map some = items.map part := by
  induction items with
  | nil => rfl
  | cons item rest ih =>
      obtain ⟨value, valueEq⟩ := Option.isSome_iff_exists.mp (all item (List.mem_cons_self ..))
      rw [List.filterMap_cons_some valueEq, List.map_cons, List.map_cons, valueEq,
        ih fun other member => all other (List.mem_cons_of_mem item member)]

/-- A grouping of the live rows is a partition of the records. -/
theorem GathersRows.partitions {groups : List (Lloyd.Group (List UInt32))}
    (gathers : GathersRows (ops.training dimension metric) dimension.toNat
      (records.map (Record.trainingRow data storage dimension)) groups) :
    PartitionsRecords records (groups.map (trainedCluster records)) := by
  let rows := records.map (Record.trainingRow data storage dimension)
  have bounded : ∀ group ∈ groups, group.members.length ≤ records.length := by
    intro group member
    have inRows := livePoints_length_le rows 0
    rw [List.length_map] at inRows
    exact Nat.le_trans (gathers.ordered group member).length_le inRows
  constructor
  · intro index
    have listed : (groups.map (trainedCluster records)).flatMap Cluster.recordIndex =
        (groups.flatMap Lloyd.Group.members).map Prod.fst := by
      rw [List.flatMap_map, List.map_flatMap]
      rfl
    have counted := count_livePoints rows 0 index
    rw [Nat.zero_add, List.getElem?_map, Option.any_map] at counted
    rw [listed, (gathers.once.map Prod.fst).count_eq, counted]
    rfl
  · intro cluster member
    obtain ⟨group, groupMember, rfl⟩ := List.mem_map.mp member
    exact (livePoints_sorted rows 0).sublist ((gathers.ordered group groupMember).map Prod.fst)
  · intro cluster member
    obtain ⟨group, groupMember, rfl⟩ := List.mem_map.mp member
    have fits := bounded group groupMember
    have listed : (trainedCluster records group).recordIndex.length = group.members.length :=
      List.length_map _
    rw [listed]
    exact ⟨UInt64.toNat_ofNat_of_lt' (Nat.lt_of_le_of_lt fits small), fits⟩
  · intro cluster member
    obtain ⟨group, groupMember, rfl⟩ := List.mem_map.mp member
    apply map_some_filterMap
    intro index indexMember
    obtain ⟨point, pointMember, rfl⟩ := List.mem_map.mp indexMember
    obtain ⟨record, -, found, -⟩ := livePoints_found data storage dimension readable
      ((gathers.ordered group groupMember).subset pointMember)
    rw [found]
    rfl

omit readable small in
/-- The vectors of the records with the given indices. -/
def listedVectors (records : List Record) (indices : List Nat) : List (List UInt32) :=
  indices.filterMap fun index =>
    (records[index]?).map fun record => (record.followed data storage dimension).vector

omit small in
/-- The members of a group are the vectors of the records that its cluster lists. -/
theorem members_listed {groups : List (Lloyd.Group (List UInt32))}
    (gathers : GathersRows (ops.training dimension metric) dimension.toNat
      (records.map (Record.trainingRow data storage dimension)) groups)
    {group : Lloyd.Group (List UInt32)} (groupMember : group ∈ groups) :
    group.members.map Prod.snd =
      listedVectors data storage dimension records (trainedCluster records group).recordIndex := by
  have found : ∀ point ∈ group.members, ((records[point.1]?).map fun record =>
      (record.followed data storage dimension).vector) = some point.2 := by
    intro point member
    obtain ⟨record, vector, atIndex, read, vectorEq⟩ := livePoints_found data storage dimension
      readable ((gathers.ordered group groupMember).subset member)
    simp only [atIndex, Option.map_some, Record.followed, read, Option.getD_some, vectorEq]
  have congruent := List.filterMap_congr found
  rw [List.filterMap_eq_map'] at congruent
  have indices : (trainedCluster records group).recordIndex = group.members.map Prod.fst := rfl
  rw [← congruent, listedVectors, indices, List.filterMap_map]
  rfl

omit small in
/-- The centroid of a cluster with records is the mean of their vectors. -/
theorem GathersRows.centered_listed {groups : List (Lloyd.Group (List UInt32))}
    (gathers : GathersRows (ops.training dimension metric) dimension.toNat
      (records.map (Record.trainingRow data storage dimension)) groups)
    {cluster : Cluster} (member : cluster ∈ groups.map (trainedCluster records))
    (listed : cluster.recordIndex ≠ []) :
    cluster.centroidVector = meanVector (ops.training dimension metric) dimension.toNat
      (listedVectors data storage dimension records cluster.recordIndex) := by
  obtain ⟨group, groupMember, rfl⟩ := List.mem_map.mp member
  have someMembers : group.members ≠ [] := by
    intro none
    apply listed
    change group.members.map Prod.fst = []
    rw [none, List.map_nil]
  rw [← members_listed ops data storage dimension metric readable gathers groupMember]
  exact gathers.centered group groupMember someMembers

end Refinement

/-! ### The partition -/

section Partition

variable {data : List UInt8} {storage : Storage} {dimension : UInt64} {records : List Record}

/-- The training ends within the cap with `k` clusters that partition the live records,
and the centroid of a cluster with records is the mean of their vectors, which is the
exact mean where the arithmetic is exact. -/
theorem kmeans_partitions_exactly (ops : FloatOps) (metric : MetricType)
    (readable : Readable data storage dimension records) (nonempty : records ≠ [])
    (small : records.length < 2 ^ 64) (rand : Nat → Nat) {k : UInt64} (positive : 1 ≤ k.toNat)
    (maxIterations : UInt64) :
    (∃ seeded trained,
      seedClusters data storage dimension rand records k.toNat = some seeded ∧
      (∀ fuel, max 1 maxIterations.toNat ≤ fuel →
        (kmeansRounds ops data storage dimension metric records maxIterations fuel 0 seeded).map
          (List.map (mapOffsets records)) = some trained) ∧
      kmeansBuild ops data storage dimension metric rand records k maxIterations = some trained ∧
      trained.length = k.toNat ∧ PartitionsRecords records trained ∧
      ∀ cluster ∈ trained, cluster.recordIndex ≠ [] →
        cluster.centroidVector = meanVector (ops.training dimension metric) dimension.toNat
          (listedVectors data storage dimension records cluster.recordIndex)) ∧
    kmeansBuild ops data storage dimension metric rand records k maxIterations =
      (trainRows (ops.training dimension metric) dimension.toNat rand
        (records.map (Record.trainingRow data storage dimension)) k.toNat
          maxIterations.toNat).map (List.map (trainedCluster records)) ∧
    ∀ (K : Type) [Field K] (exactOps : TrainingOps K), exactOps.Exact →
      ∀ (width : Nat) (rows : List (TrainingRow K)), rows.length < 2 ^ 64 →
        (∀ row ∈ rows, row.vector.length = width) →
        ∃ groups,
          trainRows exactOps width rand rows k.toNat maxIterations.toNat = some groups ∧
          groups.length = k.toNat ∧ GathersRows exactOps width rows groups ∧
          ∀ group ∈ groups, group.members ≠ [] →
            group.centroid = exactMean width (group.members.map Prod.snd) := by
  have builds := kmeansBuild_eq ops data storage dimension metric readable small rand nonempty k
    maxIterations
  constructor
  · obtain ⟨groups, trainedEq, ended, lengthEq, gathers⟩ :=
      trainRows_gathers (ops.training dimension metric) dimension.toNat rand
        (records.map (Record.trainingRow data storage dimension)) positive maxIterations.toNat
    let trained := groups.map (trainedCluster records)
    let seeds := seedVectors rand (records.map (Record.trainingRow data storage dimension)) k.toNat
    let seeded := seeds.map fun vector => gathered (UInt64.ofNat records.length) ⟨vector, []⟩
    have shape : ∀ cluster ∈ seeded,
        cluster.capacity = UInt64.ofNat records.length ∧ cluster.byteOffsets = [] := by
      intro cluster member
      obtain ⟨vector, -, rfl⟩ := List.mem_map.mp member
      exact ⟨rfl, rfl⟩
    have centroids : seeded.map Cluster.centroidVector = seeds := by
      rw [List.map_map]
      exact List.map_id seeds
    have kept : ∀ fuel, max 1 maxIterations.toNat ≤ fuel →
        (kmeansRounds ops data storage dimension metric records maxIterations fuel 0 seeded).map
          (List.map (mapOffsets records)) = some trained := by
      intro fuel enough
      rw [kmeansRounds_eq ops data storage dimension metric readable small maxIterations fuel 0
          shape,
        centroids, ended fuel enough, Option.map_some, Option.map_some, List.map_map]
      rfl
    have returned : kmeansBuild ops data storage dimension metric rand records k maxIterations =
        some trained := by
      rw [builds, trainedEq]
      rfl
    have trainedLength : trained.length = k.toNat := by
      rw [List.length_map, lengthEq]
    exact ⟨seeded, trained, seedClusters_eq data storage dimension readable rand nonempty k.toNat,
      kept, returned, trainedLength,
      gathers.partitions ops data storage dimension metric readable small,
      fun cluster => gathers.centered_listed ops data storage dimension metric readable⟩
  · constructor
    · exact builds
    · intro K _ exactOps exact width rows rowsSmall widths
      obtain ⟨groups, trainedEq, -, lengthEq, gathers⟩ :=
        trainRows_gathers exactOps width rand rows positive maxIterations.toNat
      exact ⟨groups, trainedEq, lengthEq, gathers,
        fun group => gathers.centered_exact exact rowsSmall widths⟩

def rationalOps : TrainingOps Rat where
  zero := 0
  add := fun first second => first + second
  divCount := fun sum count => sum / (count.toNat : Rat)
  moved := fun old new => decide (old ≠ new)
  less := fun first second => decide (first < second)
  huge := 10 ^ 30
  distance := fun first second => |first.headD 0 - second.headD 0|

theorem rationalOps_exact : rationalOps.Exact where
  zero := rfl
  add := fun _ _ => rfl
  divCount := fun _ _ => rfl

def heapRecord (first : UInt32) (isDeleted : Bool) (byteOffset : UInt64) : Record where
  id := byteOffset
  vector := .heap [first]
  metadata := none
  isDeleted := isDeleted
  byteOffset := byteOffset
  isMmap := false

def fourRecords : List Record :=
  [heapRecord 10 false 0, heapRecord 90 false 32, heapRecord 50 true 64, heapRecord 14 false 96]

def fourRows : List (TrainingRow Rat) :=
  [⟨[10], false, 0⟩, ⟨[90], false, 32⟩, ⟨[50], true, 64⟩, ⟨[15], false, 96⟩]

theorem fourRecords_readable : Readable [] (storageInit []) 1 fourRecords := by
  unfold Readable
  decide

/-- Four records, one of them deleted, in two clusters. -/
theorem kmeans_partitions_exactly_on_four :
    (∃ trained,
      kmeansBuild gapOps [] (storageInit []) 1 .cosine id fourRecords 2 5 = some trained ∧
        trained.length = 2 ∧ PartitionsRecords fourRecords trained) ∧
    ∃ groups, trainRows rationalOps 1 id fourRows 2 5 = some groups ∧
      ∀ group ∈ groups, group.members ≠ [] →
        group.centroid = exactMean 1 (group.members.map Prod.snd) := by
  obtain ⟨⟨seeded, trained, -, -, trainedEq, lengthEq, partitions, -⟩, -, exactly⟩ :=
    kmeans_partitions_exactly gapOps .cosine fourRecords_readable
      (by decide) (by decide) id (by decide : 1 ≤ (2 : UInt64).toNat) 5
  obtain ⟨groups, groupsEq, -, -, means⟩ :=
    exactly Rat rationalOps rationalOps_exact 1 fourRows (by decide) (by
      intro row member
      simp only [fourRows, List.mem_cons, List.not_mem_nil, or_false] at member
      rcases member with rfl | rfl | rfl | rfl <;> rfl)
  exact ⟨⟨trained, trainedEq, lengthEq, partitions⟩, groups, groupsEq, means⟩

end Partition

end OriginDb
