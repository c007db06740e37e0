/-
What deleted records can do to a trained index.

The assignment skips deleted records, but `rand` picks the first centroids from all
of them.  A cluster that gathers nothing keeps the vector it started from, so the
vector of a deleted record can be read off the index.  It cannot when every seed is a
live record, or when the one cluster there is gathers a live record.
-/

import OriginDb.Training

namespace OriginDb

open Foundation

/-- The same arithmetic with another distance function. -/
def FloatOps.withDistance (ops : FloatOps)
    (calculate : MetricType → UInt64 → List UInt32 → List UInt32 → UInt32) : FloatOps :=
  { ops with calculate := calculate }

/-- A strict comparison, and a distance below 1e30. -/
structure FloatOps.Comparable (ops : FloatOps) : Prop where
  asymm : ∀ first second, ops.less first second = true → ops.less second first = false
  nearer : ∃ near, ops.less near ops.huge = true

theorem FloatOps.Comparable.irrefl {ops : FloatOps} (comparable : ops.Comparable)
    (distance : UInt32) : ops.less distance distance = false := by
  rw [← Bool.not_eq_true]
  intro less
  exact Bool.false_ne_true ((comparable.asymm _ _ less).symm.trans less)

/-- Arrays that agree on which records are deleted and on those that are not. -/
def SameLive (records others : List Record) : Prop :=
  List.Forall₂ (fun record other => other.isDeleted = record.isDeleted ∧
    (record.isDeleted = false → other = record)) records others

/-- What the callers of the training use of a cluster. -/
def Cluster.returned (cluster : Cluster) : List UInt32 × UInt64 × List UInt64 :=
  (cluster.centroidVector, cluster.count, cluster.byteOffsets)

section Influence

variable (ops : FloatOps) (data : List UInt8) (storage : Storage) (dimension : UInt64)
  (metric : MetricType)

/-- Whatever the deleted records hold, and whatever the distance function is, the
training returns the same clusters. -/
def NoInfluence (rand : Nat → Nat) (records : List Record) (k maxIterations : UInt64) : Prop :=
  ∀ calculate others, SameLive records others → Readable data storage dimension others →
    (kmeansBuild (ops.withDistance calculate) data storage dimension metric rand records k
      maxIterations).map (List.map Cluster.returned) =
    (kmeansBuild (ops.withDistance calculate) data storage dimension metric rand others k
      maxIterations).map (List.map Cluster.returned)

/-- Every seed is a live record, or no seed is left in the end. -/
def SeedsHarmless (rand : Nat → Nat) (records : List Record) (k : UInt64) : Prop :=
  (∀ position, position < k.toNat →
    (records[rand position % records.length]?).any (fun record => !record.isDeleted) = true) ∨
  dimension = 0 ∨ (k = 1 ∧ ∃ record ∈ records, record.isDeleted = false)

/-! ### Arrays with the same live records -/

variable {data storage dimension} {records others : List Record}

theorem SameLive.length_eq (same : SameLive records others) : others.length = records.length :=
  (List.Forall₂.length_eq same).symm

theorem SameLive.found (same : SameLive records others) {index : Nat} {record : Record}
    (atIndex : records[index]? = some record) (live : record.isDeleted = false) :
    others[index]? = some record := by
  induction same generalizing index with
  | nil => cases atIndex
  | cons head tail ih =>
      cases index with
      | zero =>
          cases Option.some.inj atIndex
          exact congrArg some (head.2 live)
      | succ index => exact ih atIndex

theorem SameLive.livePoints_eq (same : SameLive records others) (index : Nat) :
    livePoints (others.map (Record.trainingRow data storage dimension)) index =
      livePoints (records.map (Record.trainingRow data storage dimension)) index := by
  induction same generalizing index with
  | nil => rfl
  | @cons record other _ _ head tail ih =>
      rw [List.map_cons, List.map_cons, livePoints, livePoints, ih]
      have flags : (other.trainingRow data storage dimension).isDeleted =
          (record.trainingRow data storage dimension).isDeleted := head.1
      rw [flags]
      by_cases deleted : (record.trainingRow data storage dimension).isDeleted = true
      · rw [if_pos deleted, if_pos deleted]
      · rw [if_neg deleted, if_neg deleted, head.2 (Bool.eq_false_iff.mpr deleted)]

/-- A deleted record is made to hold `vector`. -/
def Record.fillDeleted (vector : List UInt32) (record : Record) : Record :=
  if record.isDeleted then { record with vector := .heap vector } else record

def fillDeleted (vector : List UInt32) (records : List Record) : List Record :=
  records.map (Record.fillDeleted vector)

theorem Record.fillDeleted_isDeleted (vector : List UInt32) (record : Record) :
    (record.fillDeleted vector).isDeleted = record.isDeleted := by
  unfold Record.fillDeleted
  split
  · rfl
  · rfl

theorem Record.fillDeleted_live (vector : List UInt32) {record : Record}
    (live : record.isDeleted = false) : record.fillDeleted vector = record := by
  rw [Record.fillDeleted, live]
  exact if_neg Bool.false_ne_true

theorem sameLive_fillDeleted (vector : List UInt32) (records : List Record) :
    SameLive records (fillDeleted vector records) := by
  induction records with
  | nil => exact List.Forall₂.nil
  | cons record rest ih =>
      exact List.Forall₂.cons
        ⟨record.fillDeleted_isDeleted vector, Record.fillDeleted_live vector⟩ ih

theorem readVector_heap {vector : List UInt32} (lengthEq : vector.length = dimension.toNat) :
    readVector data storage dimension (.heap vector) = some ⟨vector, lengthEq⟩ := by
  rw [readVector, dif_pos (Nat.le_of_eq lengthEq.symm)]
  congr 2
  rw [← lengthEq, List.take_length]

theorem readable_fillDeleted (readable : Readable data storage dimension records)
    {vector : List UInt32} (lengthEq : vector.length = dimension.toNat) :
    Readable data storage dimension (fillDeleted vector records) := by
  intro other member
  obtain ⟨record, recordMember, rfl⟩ := List.mem_map.mp member
  unfold Record.fillDeleted
  split
  · rw [readVector_heap lengthEq]
    rfl
  · exact readable record recordMember

theorem fillDeleted_found {vector : List UInt32} (lengthEq : vector.length = dimension.toNat)
    {index : Nat} {record : Record} (atIndex : records[index]? = some record)
    (deleted : record.isDeleted = true) :
    ∃ row, ((fillDeleted vector records).map
      (Record.trainingRow data storage dimension))[index]? = some row ∧ row.vector = vector := by
  rw [fillDeleted, List.map_map, List.getElem?_map, atIndex]
  refine ⟨_, rfl, ?_⟩
  simp only [Function.comp_apply, Record.fillDeleted, if_pos deleted, Record.trainingRow,
    Record.followed, readVector_heap lengthEq, Option.getD_some]

/-! ### When nothing leaks -/

/-- Arrays on which the method forms the same groups train the same clusters. -/
theorem kmeansBuild_congr (ops : FloatOps) (metric : MetricType)
    (readable : Readable data storage dimension records)
    (othersReadable : Readable data storage dimension others) (nonempty : records ≠ [])
    (small : records.length < 2 ^ 64) (same : SameLive records others) (rand : Nat → Nat)
    {k : UInt64} (positive : 1 ≤ k.toNat) (maxIterations : UInt64)
    (sameGroups : trainRows (ops.training dimension metric) dimension.toNat rand
        (others.map (Record.trainingRow data storage dimension)) k.toNat maxIterations.toNat =
      trainRows (ops.training dimension metric) dimension.toNat rand
        (records.map (Record.trainingRow data storage dimension)) k.toNat maxIterations.toNat) :
    kmeansBuild ops data storage dimension metric rand records k maxIterations =
      kmeansBuild ops data storage dimension metric rand others k maxIterations := by
  have lengthEq := same.length_eq
  have othersNonempty : others ≠ [] := by
    rw [← List.length_pos_iff, lengthEq]
    exact List.length_pos_iff.mpr nonempty
  obtain ⟨groups, trainedEq, -, -, gathers⟩ :=
    trainRows_gathers (ops.training dimension metric) dimension.toNat rand
      (records.map (Record.trainingRow data storage dimension)) positive maxIterations.toNat
  rw [kmeansBuild_eq ops data storage dimension metric readable small rand nonempty,
    kmeansBuild_eq ops data storage dimension metric othersReadable (lengthEq ▸ small) rand
      othersNonempty, sameGroups, trainedEq, Option.map_some, Option.map_some]
  apply congrArg some
  apply List.map_congr_left
  intro group member
  have offsetsEq : ∀ index ∈ group.members.map Prod.fst,
      (records[index]?).map Record.byteOffset = (others[index]?).map Record.byteOffset := by
    intro index indexMember
    obtain ⟨point, pointMember, rfl⟩ := List.mem_map.mp indexMember
    obtain ⟨-, row, atIndex, live, -⟩ :=
      livePoints_bounds ((gathers.ordered group member).subset pointMember)
    rw [Nat.sub_zero, List.getElem?_map] at atIndex
    obtain ⟨record, found, rfl⟩ := Option.map_eq_some_iff.mp atIndex
    rw [found, same.found found live]
  rw [trainedCluster, trainedCluster, mapOffsets, mapOffsets, lengthEq]
  congr 1
  exact List.filterMap_congr offsetsEq

def seedVector (data : List UInt8) (storage : Storage) (dimension : UInt64)
    (records : List Record) (index : Nat) : List UInt32 :=
  (((records.map (Record.trainingRow data storage dimension))[index]?).map
    TrainingRow.vector).getD []

theorem seedVector_flat (flat : dimension = 0) (records : List Record) (index : Nat) :
    seedVector data storage dimension records index = [] := by
  rw [seedVector, List.getElem?_map]
  cases records[index]? with
  | none => rfl
  | some record =>
      have lengthEq := (record.followed data storage dimension).vector_length
      rw [flat] at lengthEq
      subst flat
      exact List.length_eq_zero_iff.mp lengthEq

theorem seedVectors_getElem? {F : Type} {rand : Nat → Nat} {rows : List (TrainingRow F)}
    {k position : Nat} (inside : position < k) :
    (seedVectors rand rows k)[position]? =
      some (((rows[rand position % rows.length]?).map TrainingRow.vector).getD []) := by
  rw [seedVectors, List.getElem?_map, List.getElem?_range inside, Option.map_some]

/-- A single cluster that gathers a row forgets what it started from. -/
theorem trainRows_single {F : Type} (ops : TrainingOps F) (width : Nat) (rand : Nat → Nat)
    (rows : List (TrainingRow F)) (live : livePoints rows 0 ≠ []) (maxIterations : Nat) :
    trainRows ops width rand rows 1 maxIterations =
      some [⟨meanVector ops width ((livePoints rows 0).map Prod.snd), livePoints rows 0⟩] := by
  obtain ⟨last, single, ended⟩ :=
    trainRows_invariant ops maxIterations (round_keeps_length ops width (livePoints rows 0) 1)
      (seedVectors_length rand rows 1)
  have nonempty : last ≠ [] := by
    rw [← List.length_pos_iff, single]
    exact Nat.one_pos
  have gathered := Lloyd.round_single (trainingMethod ops width) (livePoints rows 0) single live
    fun point _ => nearest_lt ops width nonempty point.2
  rw [trainRows, ended _ (Nat.le_refl _), gathered]
  rfl

theorem livePoints_ne_nil {F : Type} {rows : List (TrainingRow F)} {row : TrainingRow F}
    (member : row ∈ rows) (live : row.isDeleted = false) (index : Nat) :
    livePoints rows index ≠ [] := by
  induction rows generalizing index with
  | nil => cases member
  | cons head rest ih =>
      unfold livePoints
      split
      · rename_i deleted
        rcases List.mem_cons.mp member with rfl | inRest
        · exact absurd (live.symm.trans deleted) Bool.false_ne_true
        · exact ih inRest (index + 1)
      · exact List.cons_ne_nil _ _

theorem noInfluence_of_harmless (ops : FloatOps) (metric : MetricType)
    (readable : Readable data storage dimension records) (nonempty : records ≠ [])
    (small : records.length < 2 ^ 64) {rand : Nat → Nat} {k : UInt64} (positive : 1 ≤ k.toNat)
    (maxIterations : UInt64) (harmless : SeedsHarmless dimension rand records k) :
    NoInfluence ops data storage dimension metric rand records k maxIterations := by
  intro calculate others same othersReadable
  apply congrArg (Option.map (List.map Cluster.returned))
  apply kmeansBuild_congr (ops.withDistance calculate) metric readable othersReadable nonempty
    small same rand positive maxIterations
  have pointsEq : livePoints (others.map (Record.trainingRow data storage dimension)) 0 =
      livePoints (records.map (Record.trainingRow data storage dimension)) 0 :=
    same.livePoints_eq 0
  have sameSeeds : ∀ seedEq : (∀ position, position < k.toNat →
        seedVector data storage dimension others (rand position % records.length) =
          seedVector data storage dimension records (rand position % records.length)),
      seedVectors rand (others.map (Record.trainingRow data storage dimension)) k.toNat =
        seedVectors rand (records.map (Record.trainingRow data storage dimension)) k.toNat := by
    intro seedEq
    apply List.map_congr_left
    intro position member
    rw [List.length_map, List.length_map, same.length_eq]
    exact seedEq position (List.mem_range.mp member)
  rcases harmless with seedsLive | flat | ⟨single, record, member, live⟩
  · rw [trainRows, trainRows, pointsEq, sameSeeds]
    intro position inside
    obtain ⟨record, found, live⟩ := (Option.any_eq_true _ _).mp (seedsLive position inside)
    have isLive : record.isDeleted = false := Bool.not_eq_true' _ ▸ live
    rw [seedVector, seedVector, List.getElem?_map, List.getElem?_map, found,
      same.found found isLive]
  · rw [trainRows, trainRows, pointsEq, sameSeeds]
    intro position inside
    rw [seedVector_flat flat, seedVector_flat flat]
  · have one : k.toNat = 1 := congrArg UInt64.toNat single
    have liveRow : record.trainingRow data storage dimension ∈
        records.map (Record.trainingRow data storage dimension) := List.mem_map_of_mem member
    have points := livePoints_ne_nil liveRow live 0
    rw [one, trainRows_single _ _ _ _ points, trainRows_single _ _ _ _ (pointsEq ▸ points),
      pointsEq]

/-! ### When a seed is left over -/

theorem nearestCentroid_far {F : Type} (ops : TrainingOps F) (vector : List F)
    {centroids : List (List F)} {dis : F}
    (far : ∀ centroid ∈ centroids, ops.less (ops.distance centroid vector) dis = false)
    (index best : Nat) : nearestCentroid ops vector centroids index dis best = best := by
  induction centroids generalizing index with
  | nil => rfl
  | cons centroid rest ih =>
      have notCloser := far centroid (List.mem_cons_self ..)
      rw [nearestCentroid, notCloser, if_neg Bool.false_ne_true]
      exact ih (fun other member => far other (List.mem_cons_of_mem centroid member)) (index + 1)

/-- A seed that no point ever chooses is a centroid of the trained index. -/
theorem trainRows_leftover {F : Type} (ops : TrainingOps F) (maxIterations : Nat)
    (rest : List (List F) → Prop) {width : Nat} {rand : Nat → Nat} {rows : List (TrainingRow F)}
    {k position : Nat} {vector : List F}
    (unchosen : ∀ centroids, centroids[position]? = some vector → rest centroids →
      ∀ point ∈ livePoints rows 0, (trainingMethod ops width).nearest centroids point.2 ≠ position)
    (keeps : ∀ centroids, centroids[position]? = some vector → rest centroids →
      rest ((Lloyd.round (trainingMethod ops width) (livePoints rows 0) centroids).map
        Lloyd.Group.centroid))
    (seed : (seedVectors rand rows k)[position]? = some vector)
    (start : rest (seedVectors rand rows k)) :
    ∃ groups, trainRows ops width rand rows k maxIterations = some groups ∧
      groups[position]? = some ⟨vector, []⟩ := by
  have stays : ∀ centroids, centroids[position]? = some vector → rest centroids →
      (Lloyd.round (trainingMethod ops width) (livePoints rows 0) centroids)[position]? =
        some ⟨vector, []⟩ :=
    fun centroids atPosition others => Lloyd.round_unchosen (trainingMethod ops width)
      (livePoints rows 0) atPosition (unchosen centroids atPosition others)
  have keepsBoth : ∀ centroids, (centroids[position]? = some vector ∧ rest centroids) →
      ((Lloyd.round (trainingMethod ops width) (livePoints rows 0) centroids).map
        Lloyd.Group.centroid)[position]? = some vector ∧
      rest ((Lloyd.round (trainingMethod ops width) (livePoints rows 0) centroids).map
        Lloyd.Group.centroid) := by
    rintro centroids ⟨atPosition, others⟩
    rw [List.getElem?_map, stays centroids atPosition others]
    exact ⟨rfl, keeps centroids atPosition others⟩
  obtain ⟨last, ⟨atPosition, others⟩, ended⟩ : ∃ last,
      (last[position]? = some vector ∧ rest last) ∧ _ :=
    trainRows_invariant ops maxIterations keepsBoth ⟨seed, start⟩
  exact ⟨_, ended _ (Nat.le_refl _), stays last atPosition others⟩

theorem exists_vector_not_mem {width : Nat} (wide : width ≠ 0) {avoided : List (List UInt32)}
    (few : avoided.length ≤ 3) : ∃ vector, vector.length = width ∧ vector ∉ avoided := by
  let candidates := (List.range 4).map fun value => List.replicate width (UInt32.ofNat value)
  have distinct : candidates.Nodup := by
    apply List.Nodup.map_on _ List.nodup_range
    intro first firstMember second secondMember same
    have firstSmall := List.mem_range.mp firstMember
    have secondSmall := List.mem_range.mp secondMember
    have values := congrArg UInt32.toNat ((List.replicate_right_inj wide).mp same)
    rw [UInt32.toNat_ofNat', UInt32.toNat_ofNat'] at values
    omega
  by_contra all
  have inside : candidates ⊆ avoided := by
    intro vector member
    by_contra outside
    obtain ⟨value, -, rfl⟩ := List.mem_map.mp member
    exact all ⟨_, List.length_replicate, outside⟩
  have fits := (List.subperm_of_subset distinct inside).length_le
  have four : candidates.length = 4 := rfl
  omega

section Leaks

variable (ops : FloatOps) (metric : MetricType) {rand : Nat → Nat} {k : UInt64}

/-- The training of an array whose deleted records hold a vector ends with that vector as
centroid. -/
def LeavesSeed (data : List UInt8) (storage : Storage) (dimension : UInt64) (ops : FloatOps)
    (metric : MetricType) (rand : Nat → Nat) (records : List Record) (k maxIterations : UInt64)
    (position : Nat) (vector : List UInt32) : Prop :=
  ∃ groups, trainRows (ops.training dimension metric) dimension.toNat rand
      ((fillDeleted vector records).map (Record.trainingRow data storage dimension)) k.toNat
        maxIterations.toNat = some groups ∧
    groups[position]? = some ⟨vector, []⟩

theorem fillDeleted_livePoints (vector : List UInt32) (records : List Record) :
    livePoints ((fillDeleted vector records).map (Record.trainingRow data storage dimension)) 0 =
      livePoints (records.map (Record.trainingRow data storage dimension)) 0 :=
  (sameLive_fillDeleted vector records).livePoints_eq 0

theorem seed_of_deleted {vector : List UInt32} (lengthEq : vector.length = dimension.toNat)
    {position count : Nat} (inside : position < count) {record : Record}
    (found : records[rand position % records.length]? = some record)
    (deleted : record.isDeleted = true) :
    (seedVectors rand ((fillDeleted vector records).map
      (Record.trainingRow data storage dimension)) count)[position]? = some vector := by
  obtain ⟨row, atIndex, rowVector⟩ : ∃ row, ((fillDeleted vector records).map
      (Record.trainingRow data storage dimension))[rand position % records.length]? = some row ∧
        row.vector = vector := fillDeleted_found lengthEq found deleted
  have sameLength : ((fillDeleted vector records).map
      (Record.trainingRow data storage dimension)).length = records.length := by
    rw [List.length_map, (sameLive_fillDeleted vector records).length_eq]
  rw [seedVectors_getElem? inside, sameLength, atIndex, Option.map_some, Option.getD_some,
    rowVector]

theorem seed_of_live (vector : List UInt32) {position count : Nat} (inside : position < count)
    {record : Record} (found : records[rand position % records.length]? = some record)
    (live : record.isDeleted = false) :
    (seedVectors rand ((fillDeleted vector records).map
      (Record.trainingRow data storage dimension)) count)[position]? =
        some (record.trainingRow data storage dimension).vector := by
  have same := sameLive_fillDeleted vector records
  have sameLength : ((fillDeleted vector records).map
      (Record.trainingRow data storage dimension)).length = records.length := by
    rw [List.length_map, same.length_eq]
  rw [seedVectors_getElem? inside, sameLength, List.getElem?_map, same.found found live,
    Option.map_some, Option.map_some, Option.getD_some]

/-- When all distances are alike, every point goes to the first cluster. -/
theorem leaves_later (comparable : ops.Comparable) {position : Nat} (later : position ≠ 0)
    (inside : position < k.toNat) {record : Record}
    (found : records[rand position % records.length]? = some record)
    (deleted : record.isDeleted = true) {vector : List UInt32}
    (lengthEq : vector.length = dimension.toNat) (maxIterations : UInt64) :
    LeavesSeed data storage dimension (ops.withDistance fun _ _ _ _ => ops.huge) metric rand
      records k maxIterations position vector := by
  have toFirst : ∀ centroids point,
      (trainingMethod ((ops.withDistance fun _ _ _ _ => ops.huge).training dimension metric)
        dimension.toNat).nearest centroids point = 0 := by
    intro centroids point
    exact nearestCentroid_far _ _ (fun _ _ => comparable.irrefl ops.huge) 0 0
  apply trainRows_leftover _ _ fun _ => True
  · intro centroids _ _ point _ chosen
    exact later (chosen.symm.trans (toFirst centroids point.2))
  · exact fun _ _ _ => trivial
  · exact seed_of_deleted lengthEq inside found deleted
  · trivial

/-- Without a live record the only cluster stays at its seed. -/
theorem leaves_alone (positive : 0 < k.toNat) {record : Record}
    (found : records[rand 0 % records.length]? = some record) (deleted : record.isDeleted = true)
    (noneLive : ∀ other ∈ records, other.isDeleted = true) {vector : List UInt32}
    (lengthEq : vector.length = dimension.toNat) (maxIterations : UInt64) :
    LeavesSeed data storage dimension ops metric rand records k maxIterations 0 vector := by
  apply trainRows_leftover _ _ fun _ => True
  · intro centroids _ _ point member
    rw [fillDeleted_livePoints] at member
    obtain ⟨-, row, atIndex, live, -⟩ := livePoints_bounds member
    obtain ⟨other, otherMember, rfl⟩ := List.mem_map.mp (List.mem_of_getElem? atIndex)
    exact absurd ((noneLive other otherMember).symm.trans live) Bool.noConfusion
  · exact fun _ _ _ => trivial
  · exact seed_of_deleted lengthEq positive found deleted
  · trivial

/-- A distance that is short only from `targets`. -/
def nearTargets (near far : UInt32) (targets : List (List UInt32)) :
    MetricType → UInt64 → List UInt32 → List UInt32 → UInt32 :=
  fun _ _ centroid _ => if centroid ∈ targets then near else far

theorem nearestCentroid_second {ops : FloatOps} (comparable : ops.Comparable) {near : UInt32}
    (closer : ops.less near ops.huge = true) {targets centroids : List (List UInt32)}
    {first second : List UInt32} (atFirst : centroids[0]? = some first) (outside : first ∉ targets)
    (atSecond : centroids[1]? = some second) (inside : second ∈ targets) (point : List UInt32) :
    nearestCentroid ((ops.withDistance (nearTargets near ops.huge targets)).training dimension
      metric) point centroids 0 ops.huge 0 = 1 := by
  match centroids, atFirst, atSecond with
  | _ :: _ :: others, rfl, rfl =>
      have notCloser : ops.less near near = false := comparable.irrefl near
      have farther : ops.less ops.huge near = false := comparable.asymm near ops.huge closer
      have fromFirst : ops.less (nearTargets near ops.huge targets metric dimension first point)
          ops.huge = false := by
        rw [nearTargets, if_neg outside]
        exact comparable.irrefl ops.huge
      have fromSecond : nearTargets near ops.huge targets metric dimension second point = near :=
        if_pos inside
      change (if ops.less (nearTargets near ops.huge targets metric dimension first point) ops.huge
          then _ else nearestCentroid _ point (second :: others) 1 ops.huge 0) = 1
      rw [fromFirst, if_neg Bool.false_ne_true]
      change (if ops.less (nearTargets near ops.huge targets metric dimension second point)
          ops.huge then nearestCentroid _ point others 2
            (nearTargets near ops.huge targets metric dimension second point) 1 else _) = 1
      rw [fromSecond, closer, if_pos rfl]
      apply nearestCentroid_far
      intro centroid _
      change ops.less (nearTargets near ops.huge targets metric dimension centroid point) near =
        false
      unfold nearTargets
      split
      · exact notCloser
      · exact farther

/-- When only the second seed and the mean of everything are near, every point goes to
the second cluster. -/
theorem leaves_first (comparable : ops.Comparable) (several : 1 < k.toNat)
    {record other : Record} (found : records[rand 0 % records.length]? = some record)
    (deleted : record.isDeleted = true)
    (otherFound : records[rand 1 % records.length]? = some other)
    (live : other.isDeleted = false) (maxIterations : UInt64) :
    ∃ (calculate : MetricType → UInt64 → List UInt32 → List UInt32 → UInt32)
      (avoided : List (List UInt32)), avoided.length ≤ 2 ∧ ∀ vector : List UInt32,
      vector.length = dimension.toNat → vector ∉ avoided →
        LeavesSeed data storage dimension (ops.withDistance calculate) metric rand records k
          maxIterations 0 vector := by
  obtain ⟨near, closer⟩ := comparable.nearer
  let points := livePoints (records.map (Record.trainingRow data storage dimension)) 0
  let mean := meanVector (ops.training dimension metric) dimension.toNat (points.map Prod.snd)
  let targets := [(other.trainingRow data storage dimension).vector, mean]
  apply Exists.intro (nearTargets near ops.huge targets)
  apply Exists.intro targets
  apply And.intro (Nat.le_refl 2)
  intro vector lengthEq outside
  let method := trainingMethod
    ((ops.withDistance (nearTargets near ops.huge targets)).training dimension metric)
    dimension.toNat
  have toSecond : ∀ centroids, centroids[0]? = some vector →
      (∃ second, centroids[1]? = some second ∧ second ∈ targets) →
        ∀ point, method.nearest centroids point = 1 := by
    rintro centroids atFirst ⟨second, atSecond, inside⟩ point
    exact nearestCentroid_second metric comparable closer atFirst outside atSecond inside point
  apply trainRows_leftover _ _ fun centroids =>
    ∃ second, centroids[1]? = some second ∧ second ∈ targets
  · intro centroids atFirst second point _ chosen
    exact Nat.one_ne_zero ((toSecond centroids atFirst second point.2).symm.trans chosen)
  · intro centroids atFirst hasSecond
    obtain ⟨second, atSecond, inside⟩ := hasSecond
    have all := Lloyd.round_chosen method points atSecond
      fun point _ => toSecond centroids atFirst ⟨second, atSecond, inside⟩ point.2
    apply Exists.intro (Lloyd.groupOf method second points).centroid
    constructor
    · rw [fillDeleted_livePoints, List.getElem?_map, all]
      rfl
    · unfold Lloyd.groupOf
      dsimp only
      split
      · exact inside
      · exact List.mem_cons_of_mem _ (List.mem_singleton.mpr rfl)
  · exact seed_of_deleted lengthEq (Nat.lt_trans Nat.one_pos several) found deleted
  · exact ⟨_, seed_of_live vector several otherFound live, List.mem_cons_self ..⟩

/-- A seed that is not harmless shows in the trained index, whatever it holds. -/
theorem leaves_of_not_harmless (comparable : ops.Comparable) (nonempty : records ≠ [])
    (positive : 1 ≤ k.toNat) (maxIterations : UInt64)
    (leaks : ¬SeedsHarmless dimension rand records k) :
    ∃ (calculate : MetricType → UInt64 → List UInt32 → List UInt32 → UInt32) (position : Nat)
      (avoided : List (List UInt32)), avoided.length ≤ 2 ∧ ∀ vector : List UInt32,
      vector.length = dimension.toNat → vector ∉ avoided →
        LeavesSeed data storage dimension (ops.withDistance calculate) metric rand records k
          maxIterations position vector := by
  obtain ⟨notAllLive, -, notAlone⟩ := not_or.mp leaks |>.imp_right not_or.mp
  have picked : ∀ position, ∃ record, records[rand position % records.length]? = some record := by
    intro position
    have inside : rand position % records.length < records.length :=
      Nat.mod_lt _ (List.length_pos_iff.mpr nonempty)
    exact ⟨_, List.getElem?_eq_getElem inside⟩
  obtain ⟨first, firstFound⟩ := picked 0
  by_cases laterDeleted : ∃ position record, position ≠ 0 ∧ position < k.toNat ∧
      records[rand position % records.length]? = some record ∧ record.isDeleted = true
  · obtain ⟨position, record, later, inside, found, deleted⟩ := laterDeleted
    exact ⟨_, position, [], Nat.zero_le 2, fun vector lengthEq _ =>
      leaves_later ops metric comparable later inside found deleted lengthEq maxIterations⟩
  · have laterLive : ∀ position record, position ≠ 0 → position < k.toNat →
        records[rand position % records.length]? = some record → record.isDeleted = false := by
      intro position record later inside found
      rw [← Bool.not_eq_true]
      exact fun deleted => laterDeleted ⟨position, record, later, inside, found, deleted⟩
    have firstDeleted : first.isDeleted = true := by
      by_contra live
      apply notAllLive
      intro position inside
      obtain ⟨record, found⟩ := picked position
      rw [found, Option.any_some, Bool.not_eq_true']
      by_cases start : position = 0
      · subst start
        rw [← Option.some.inj (firstFound.symm.trans found)]
        exact Bool.eq_false_iff.mpr live
      · exact laterLive position record start inside found
    by_cases several : 1 < k.toNat
    · obtain ⟨second, secondFound⟩ := picked 1
      obtain ⟨calculate, avoided, few, left⟩ := leaves_first ops metric comparable several
        firstFound firstDeleted secondFound (laterLive 1 second Nat.one_ne_zero several secondFound)
        maxIterations
      exact ⟨calculate, 0, avoided, few, left⟩
    · have single : k = 1 := by
        apply UInt64.toNat_inj.mp
        change k.toNat = 1
        omega
      have noneLive : ∀ other ∈ records, other.isDeleted = true := by
        intro other member
        by_contra live
        exact notAlone ⟨single, other, member, Bool.eq_false_iff.mpr live⟩
      exact ⟨ops.calculate, 0, [], Nat.zero_le 2, fun vector lengthEq _ =>
        leaves_alone ops metric positive firstFound firstDeleted noneLive lengthEq maxIterations⟩

/-- The seed that is left is one of the centroids that the training returns. -/
theorem LeavesSeed.returned (readable : Readable data storage dimension records)
    (nonempty : records ≠ []) (small : records.length < 2 ^ 64) {maxIterations : UInt64}
    {position : Nat} {vector : List UInt32} (lengthEq : vector.length = dimension.toNat)
    (leaves : LeavesSeed data storage dimension ops metric rand records k maxIterations position
      vector) :
    ∃ clusters, (kmeansBuild ops data storage dimension metric rand (fillDeleted vector records) k
        maxIterations).map (List.map Cluster.returned) = some clusters ∧
      (clusters[position]?).map Prod.fst = some vector := by
  obtain ⟨groups, trainedEq, atPosition⟩ := leaves
  have sameLength := (sameLive_fillDeleted vector records).length_eq
  have filledNonempty : fillDeleted vector records ≠ [] := by
    rw [← List.length_pos_iff, sameLength]
    exact List.length_pos_iff.mpr nonempty
  rw [kmeansBuild_eq ops data storage dimension metric (readable_fillDeleted readable lengthEq)
    (sameLength ▸ small) rand filledNonempty, trainedEq, Option.map_some, Option.map_some]
  apply Exists.intro _
  apply And.intro rfl
  rw [List.getElem?_map, List.getElem?_map, atPosition]
  rfl

theorem harmless_of_noInfluence (comparable : ops.Comparable)
    (readable : Readable data storage dimension records) (nonempty : records ≠ [])
    (small : records.length < 2 ^ 64) (positive : 1 ≤ k.toNat) {maxIterations : UInt64}
    (noInfluence : NoInfluence ops data storage dimension metric rand records k maxIterations) :
    SeedsHarmless dimension rand records k := by
  by_contra leaks
  obtain ⟨calculate, position, avoided, few, leaves⟩ :=
    leaves_of_not_harmless ops metric comparable nonempty positive maxIterations leaks
  have wide : dimension.toNat ≠ 0 := by
    intro flat
    exact leaks (Or.inr (Or.inl (UInt64.toNat_inj.mp flat)))
  have shown : ∀ vector : List UInt32, vector.length = dimension.toNat → vector ∉ avoided →
      ∃ clusters, (kmeansBuild (ops.withDistance calculate) data storage dimension metric rand
          records k maxIterations).map (List.map Cluster.returned) = some clusters ∧
        (clusters[position]?).map Prod.fst = some vector := by
    intro vector lengthEq outside
    rw [noInfluence calculate _ (sameLive_fillDeleted vector records)
      (readable_fillDeleted readable lengthEq)]
    exact (leaves vector lengthEq outside).returned _ metric readable nonempty small lengthEq
  obtain ⟨vector, lengthEq, outside⟩ := exists_vector_not_mem wide (Nat.le_succ_of_le few)
  obtain ⟨another, anotherLength, different⟩ :
      ∃ another : List UInt32, another.length = dimension.toNat ∧ another ∉ vector :: avoided :=
    exists_vector_not_mem wide (Nat.succ_le_succ few)
  obtain ⟨differs, anotherOutside⟩ := List.ne_and_not_mem_of_not_mem_cons different
  obtain ⟨clusters, trained, holds⟩ := shown vector lengthEq outside
  obtain ⟨others, othersTrained, othersHold⟩ := shown another anotherLength anotherOutside
  rw [Option.some.inj (trained.symm.trans othersTrained)] at holds
  exact differs (Option.some.inj (othersHold.symm.trans holds))

end Leaks

end Influence

/-- Deleted records have no influence on the training exactly when the seeds are harmless. -/
theorem deleted_records_harmless_iff (ops : FloatOps) (comparable : ops.Comparable)
    {data : List UInt8} {storage : Storage} {dimension : UInt64} {metric : MetricType}
    {records : List Record} (readable : Readable data storage dimension records)
    (nonempty : records ≠ []) (small : records.length < 2 ^ 64) (rand : Nat → Nat) {k : UInt64}
    (positive : 1 ≤ k.toNat) (maxIterations : UInt64) :
    NoInfluence ops data storage dimension metric rand records k maxIterations ↔
      SeedsHarmless dimension rand records k := by
  constructor
  · exact harmless_of_noInfluence ops metric comparable readable nonempty small positive
  · exact noInfluence_of_harmless ops metric readable nonempty small positive maxIterations

theorem gapOps_comparable : gapOps.Comparable where
  asymm := by
    intro first second less
    change decide (second < first) = false
    have before : first < second := of_decide_eq_true less
    exact decide_eq_false (UInt32.not_lt.mpr (UInt32.le_of_lt before))
  nearer := ⟨0, rfl⟩

/-- Four records whose first two are seeds, a deleted one behind them. -/
theorem deleted_records_harmless_on_four :
    NoInfluence gapOps [] (storageInit []) 1 .cosine id fourRecords 2 5 :=
  (deleted_records_harmless_iff gapOps gapOps_comparable fourRecords_readable (by decide)
    (by decide) id (by decide : 1 ≤ (2 : UInt64).toNat) 5).mpr (Or.inl (by decide))

/-- A deleted record that was picked as a seed: its vector is a centroid of the index. -/
theorem deleted_seed_shows :
    ¬∀ (ops : FloatOps) (data : List UInt8) (storage : Storage) (dimension : UInt64)
      (metric : MetricType) (rand : Nat → Nat) (records : List Record) (k maxIterations : UInt64),
      ops.Comparable → Readable data storage dimension records → 1 ≤ k.toNat →
        k.toNat ≤ records.length →
          NoInfluence ops data storage dimension metric rand records k maxIterations := by
  intro claimed
  let records := [heapRecord 50 true 0, heapRecord 10 false 32]
  let others := [heapRecord 51 true 0, heapRecord 10 false 32]
  have same : SameLive records others :=
    List.Forall₂.cons ⟨rfl, fun live => Bool.noConfusion live⟩
      (List.Forall₂.cons ⟨rfl, fun _ => rfl⟩ List.Forall₂.nil)
  have equal := claimed gapOps [] (storageInit []) 1 .cosine id records 2 5 gapOps_comparable
    (by unfold Readable; decide) (by decide) (by decide) gapOps.calculate others same
    (by unfold Readable; decide)
  revert equal
  decide

end OriginDb
