/-
The index file: what is saved is loaded, and a part of it is not.

Every field of the file is read whole or not at all, so a file that has been cut
off anywhere ends inside the field that the loader reaches last.  That the
fields themselves do no harm is another matter: a dimension or a count from the
file decides how large a buffer is and how much is read into it, and the two
computations differ when the first one wraps.
-/

import OriginDb.IvfIndex

namespace OriginDb

open Foundation

/-! ### Round trip -/

/-- The buffers of the loader have sizes that fit in 64 bits. -/
structure FitsMemory (clusters : List Cluster) (k dimension : UInt64) : Prop where
  table : k.toNat * sizeofCluster < 2 ^ 64
  centroid : 4 * dimension.toNat < 2 ^ 64
  offsets : ∀ cluster ∈ clusters, 8 * cluster.count.toNat < 2 ^ 64

section Fields

variable {width count : UInt64} {file first rest : List UInt8}

theorem readBuffer_of_fits (fits : width.toNat * count.toNat < 2 ^ 64) :
    readBuffer width count file =
      if width.toNat * count.toNat ≤ file.length then
        .ok (file.take (width.toNat * count.toNat), file.drop (width.toNat * count.toNat))
      else .error .truncated := by
  have sizeEq : (width * count).toNat = width.toNat * count.toNat := by
    rw [UInt64.toNat_mul]
    exact Nat.mod_eq_of_lt fits
  have noOverflow : ¬(width * count).toNat < min (width.toNat * count.toNat) file.length := by
    rw [sizeEq]
    exact Nat.not_lt.mpr (Nat.min_le_left _ _)
  rw [readBuffer, if_neg noOverflow]

theorem readBuffer_append (sizeEq : first.length = width.toNat * count.toNat)
    (fits : width.toNat * count.toNat < 2 ^ 64) :
    readBuffer width count (first ++ rest) = .ok (first, rest) := by
  rw [readBuffer_of_fits fits, ← sizeEq, if_pos (by rw [List.length_append]; omega),
    List.take_left, List.drop_left]

theorem readU64_append (value : UInt64) (rest : List UInt8) :
    readU64 (LittleEndian.encode 8 value.toNat ++ rest) = .ok (value, rest) := by
  have lengthEq := LittleEndian.encode_length 8 value.toNat
  have wordEq := u64At_append [] rest value
  have dropEq : (LittleEndian.encode 8 value.toNat ++ rest).drop
      (LittleEndian.encode 8 value.toNat).length = rest := List.drop_left
  rw [List.nil_append, List.length_nil] at wordEq
  rw [lengthEq] at dropEq
  rw [readU64, if_pos (by rw [List.length_append, lengthEq]; omega), wordEq, dropEq]

/-- A file that ends before it should. -/
structure CutOff (file whole : List UInt8) : Prop where
  part : file <+: whole
  shorter : file.length < whole.length

theorem CutOff.split (cut : CutOff file (first ++ rest)) :
    file.length < first.length ∨
      first.length ≤ file.length ∧ file.take first.length = first ∧
        CutOff (file.drop first.length) rest := by
  rcases Nat.lt_or_ge file.length first.length with inside | behind
  · exact Or.inl inside
  · obtain ⟨taken, dropped⟩ := take_drop_of_part cut.part behind
    have shorter := cut.shorter
    rw [List.length_append] at shorter
    refine Or.inr ⟨behind, taken, dropped, ?_⟩
    rw [List.length_drop]
    omega

/-- A cut falls into the field that is read, or behind it. -/
theorem readBuffer_of_cut (cut : CutOff file (first ++ rest))
    (sizeEq : first.length = width.toNat * count.toNat)
    (fits : width.toNat * count.toNat < 2 ^ 64) :
    readBuffer width count file = .error .truncated ∨
      ∃ left, readBuffer width count file = .ok (first, left) ∧ CutOff left rest := by
  rw [readBuffer_of_fits fits, ← sizeEq]
  rcases cut.split with inside | ⟨behind, taken, left⟩
  · rw [if_neg (Nat.not_le.mpr inside)]
    exact Or.inl rfl
  · rw [if_pos behind, taken]
    exact Or.inr ⟨_, rfl, left⟩

theorem readU64_of_cut {value : UInt64}
    (cut : CutOff file (LittleEndian.encode 8 value.toNat ++ rest)) :
    readU64 file = .error .truncated ∨
      ∃ left, readU64 file = .ok (value, left) ∧ CutOff left rest := by
  have split := cut.split
  rw [LittleEndian.encode_length] at split
  rcases split with inside | ⟨behind, -, left⟩
  · rw [readU64, if_neg (Nat.not_le.mpr inside)]
    exact Or.inl rfl
  · have read : readU64 file = .ok (u64At file 0, file.drop 8) := by
      rw [readU64, if_pos behind]
    obtain ⟨valueEq, -⟩ := readU64_of_part cut.part read
    rw [read, valueEq]
    exact Or.inr ⟨_, rfl, left⟩

end Fields

/-- The shape of one saved cluster. -/
structure ClusterShape (dimension : UInt64) (cluster : Cluster) : Prop where
  centroid : cluster.centroidVector.length = dimension.toNat
  offsets : cluster.byteOffsets.length = cluster.count.toNat
  centroidFits : 4 * dimension.toNat < 2 ^ 64
  offsetsFit : 8 * cluster.count.toNat < 2 ^ 64

namespace ClusterShape

variable {dimension : UInt64} {cluster : Cluster}

theorem centroidSize (shape : ClusterShape dimension cluster) :
    (StoredRecord.vectorBytes cluster.centroidVector).length =
      (4 : UInt64).toNat * dimension.toNat := by
  rw [vectorBytes_length, shape.centroid]
  rfl

theorem offsetsSize (shape : ClusterShape dimension cluster) :
    (offsetBytes cluster.byteOffsets).length = (8 : UInt64).toNat * cluster.count.toNat := by
  rw [offsetBytes_length, shape.offsets]
  rfl

end ClusterShape

variable {dimension : UInt64} {cluster : Cluster} {file rest : List UInt8}

theorem loadCluster_append (shape : ClusterShape dimension cluster) :
    loadCluster dimension (encodeCluster cluster ++ rest) = .ok (cluster.fromFile, rest) := by
  have floats := floatsAt_append [] [] cluster.centroidVector
  have words := offsetsAt_append [] [] cluster.byteOffsets
  rw [List.nil_append, List.append_nil, List.length_nil] at floats words
  rw [shape.centroid] at floats
  rw [shape.offsets] at words
  simp only [loadCluster, encodeCluster, List.append_assoc]
  rw [readBuffer_append shape.centroidSize shape.centroidFits]
  dsimp only [bind, Except.bind]
  rw [readU64_append]
  dsimp only
  rw [readU64_append]
  dsimp only
  rw [readBuffer_append shape.offsetsSize shape.offsetsFit]
  dsimp only [pure, Except.pure]
  rw [floats, words]
  rfl

theorem loadCluster_of_cut (shape : ClusterShape dimension cluster)
    (cut : CutOff file (encodeCluster cluster ++ rest)) :
    loadCluster dimension file = .error .truncated ∨
      ∃ found left, loadCluster dimension file = .ok (found, left) ∧ CutOff left rest := by
  simp only [encodeCluster, List.append_assoc] at cut
  unfold loadCluster
  rcases readBuffer_of_cut cut shape.centroidSize shape.centroidFits with
    ended | ⟨afterCentroid, read, cut⟩
  · rw [ended]
    exact Or.inl rfl
  · rw [read]
    dsimp only [bind, Except.bind]
    rcases readU64_of_cut cut with ended | ⟨afterCount, read, cut⟩
    · rw [ended]
      exact Or.inl rfl
    · rw [read]
      dsimp only
      rcases readU64_of_cut cut with ended | ⟨afterCapacity, read, cut⟩
      · rw [ended]
        exact Or.inl rfl
      · rw [read]
        dsimp only
        rcases readBuffer_of_cut cut shape.offsetsSize shape.offsetsFit with
          ended | ⟨afterOffsets, read, cut⟩
        · rw [ended]
          exact Or.inl rfl
        · rw [read]
          exact Or.inr ⟨_, _, rfl, cut⟩

theorem loadClusters_encoded {clusters : List Cluster}
    (shapes : ∀ cluster ∈ clusters, ClusterShape dimension cluster) :
    loadClusters dimension clusters.length (clusters.flatMap encodeCluster) =
      .ok (clusters.map Cluster.fromFile) := by
  induction clusters with
  | nil => rfl
  | cons cluster clusters ih =>
      have later := ih fun other member => shapes other (List.mem_cons_of_mem cluster member)
      rw [List.length_cons, List.flatMap_cons, loadClusters,
        loadCluster_append (shapes cluster (List.mem_cons_self ..))]
      dsimp only [bind, Except.bind]
      rw [later]
      rfl

theorem loadClusters_of_cut {clusters : List Cluster}
    (shapes : ∀ cluster ∈ clusters, ClusterShape dimension cluster)
    (cut : CutOff file (clusters.flatMap encodeCluster)) :
    loadClusters dimension clusters.length file = .error .truncated := by
  induction clusters generalizing file with
  | nil => exact absurd cut.shorter (Nat.not_lt_zero _)
  | cons cluster clusters ih =>
      rw [List.flatMap_cons] at cut
      rw [List.length_cons, loadClusters]
      rcases loadCluster_of_cut (shapes cluster (List.mem_cons_self ..)) cut with
        ended | ⟨found, left, loaded, laterCut⟩
      · rw [ended]
        rfl
      · have later := ih (fun other member => shapes other (List.mem_cons_of_mem cluster member))
          laterCut
        rw [loaded]
        dsimp only [bind, Except.bind]
        rw [later]

/-- A saved index is loaded as it was, and no part of its file is loaded. -/
theorem index_file_round_trip {clusters : List Cluster} {k dimension : UInt64}
    (writable : Writable clusters k dimension) (fits : FitsMemory clusters k dimension)
    (before : Option (List UInt8)) (outK outDimension : UInt64) :
    ∃ file, saveIvfIndex .ok clusters k dimension before = some (0, some file) ∧
      loadIvfIndex (some file) outK outDimension =
        some (some (clusters.map Cluster.fromFile), k, dimension) ∧
      ∀ length < file.length, ∃ k' dimension',
        loadIvfIndex (some (file.take length)) outK outDimension = some (none, k', dimension') := by
  obtain ⟨lengthEq, shapesEq⟩ := writable
  have shapes : ∀ cluster ∈ clusters, ClusterShape dimension cluster := fun cluster member =>
    ⟨(shapesEq cluster member).1, (shapesEq cluster member).2, fits.centroid,
      fits.offsets cluster member⟩
  have callocs : ¬2 ^ 64 ≤ k.toNat * sizeofCluster := Nat.not_le.mpr fits.table
  refine ⟨encodeIvfIndex clusters k dimension, ?_, ?_, ?_⟩
  · rw [saveIvfIndex, if_pos ⟨lengthEq, shapesEq⟩]
  · simp only [loadIvfIndex, encodeIvfIndex, readU64_append, if_neg callocs]
    rw [← lengthEq, loadClusters_encoded shapes]
  · intro length shorter
    have cut : CutOff ((encodeIvfIndex clusters k dimension).take length)
        (encodeIvfIndex clusters k dimension) := by
      refine ⟨List.take_prefix _ _, ?_⟩
      rw [List.length_take]
      omega
    generalize (encodeIvfIndex clusters k dimension).take length = file at cut ⊢
    unfold encodeIvfIndex at cut
    rcases readU64_of_cut cut with ended | ⟨afterK, readK, cutAfterK⟩
    · exact ⟨outK, outDimension, by simp only [loadIvfIndex, ended]⟩
    · rcases readU64_of_cut cutAfterK with ended | ⟨body, readDimension, cutBody⟩
      · exact ⟨k, outDimension, by simp only [loadIvfIndex, readK, ended]⟩
      · refine ⟨k, dimension, ?_⟩
        simp only [loadIvfIndex, readK, readDimension, if_neg callocs]
        rw [← lengthEq, loadClusters_of_cut shapes cutBody]

/-- Two clusters in one dimension, the second of them without records. -/
def savedClusters : List Cluster :=
  [{ centroidVector := [1065353216], recordIndex := [], count := 2, capacity := 3,
     byteOffsets := [0, 32] },
    { centroidVector := [1073741824], recordIndex := [], count := 0, capacity := 3,
      byteOffsets := [] }]

theorem index_file_round_trip_on_two :
    ∃ file, saveIvfIndex .ok savedClusters 2 1 none = some (0, some file) ∧
      loadIvfIndex (some file) 0 0 = some (some (savedClusters.map Cluster.fromFile), 2, 1) ∧
      ∀ length < file.length, ∃ k' dimension',
        loadIvfIndex (some (file.take length)) 0 0 = some (none, k', dimension') :=
  index_file_round_trip (by decide) ⟨by decide, by decide, by decide⟩ none 0 0

/-! ### Sizes that wrap -/

/-- One `fread` into a buffer that has just been allocated: the size passed to
`malloc`, and how many bytes the read can store. -/
structure BufferRead where
  allocated : Nat
  stored : Nat
deriving DecidableEq

def bufferRead (width count : UInt64) (left : Nat) : BufferRead where
  allocated := (width * count).toNat
  stored := min (width.toNat * count.toNat) left

/-- The reads into buffers of the loop of `load_ivf_index`. -/
def clusterReads (dimension : UInt64) : Nat → List UInt8 → List BufferRead
  | 0, _ => []
  | k + 1, file =>
      let fields := 4 * dimension.toNat
      bufferRead 4 dimension file.length ::
        if file.length < fields + 16 then []
        else
          let count := u64At file fields
          let left := file.drop (fields + 16)
          bufferRead 8 count left.length ::
            if left.length < 8 * count.toNat then []
            else clusterReads dimension k (left.drop (8 * count.toNat))

def indexReads (file : List UInt8) : List BufferRead :=
  if file.length < 16 then []
  else if 2 ^ 64 ≤ (u64At file 0).toNat * sizeofCluster then []
  else clusterReads (u64At file 8) (u64At file 0).toNat (file.drop 16)

/-- No read of the loader stores more than was allocated for it. -/
def ReadsFit (file : List UInt8) : Prop := ∀ read ∈ indexReads file, read.stored ≤ read.allocated

/-- Where the fields of the cluster at an index begin, if those before it are whole. -/
def clusterStart (file : List UInt8) (dimension : UInt64) : Nat → Nat
  | 0 => 16
  | index + 1 =>
      let fields := clusterStart file dimension index + 4 * dimension.toNat
      fields + 16 + 8 * (u64At file fields).toNat

/-- A size in bytes does not wrap, or wraps to one that covers what is left of the file. -/
def SizeCovers (width field : UInt64) (left : Nat) : Prop :=
  width.toNat * field.toNat < 2 ^ 64 ∨ left ≤ width.toNat * field.toNat % 2 ^ 64

/-- The sizes of one cluster that begins in the file. -/
structure ClusterCovers (file : List UInt8) (dimension : UInt64) (start : Nat) : Prop where
  centroid : SizeCovers 4 dimension (file.length - start)
  offsets : start + 4 * dimension.toNat + 16 ≤ file.length →
    SizeCovers 8 (u64At file (start + 4 * dimension.toNat))
      (file.length - (start + 4 * dimension.toNat + 16))

/-- The dimension and the counts that the loader comes to. -/
def SizesCover (file : List UInt8) : Prop :=
  16 ≤ file.length → (u64At file 0).toNat * sizeofCluster < 2 ^ 64 →
    ∀ index < (u64At file 0).toNat, clusterStart file (u64At file 8) index ≤ file.length →
      ClusterCovers file (u64At file 8) (clusterStart file (u64At file 8) index)

theorem bufferRead_fits_iff (width count : UInt64) (left : Nat) :
    (bufferRead width count left).stored ≤ (bufferRead width count left).allocated ↔
      SizeCovers width count left := by
  unfold bufferRead SizeCovers
  dsimp only
  rw [UInt64.toNat_mul]
  by_cases fits : width.toNat * count.toNat < 2 ^ 64
  · refine iff_of_true ?_ (Or.inl fits)
    rw [Nat.mod_eq_of_lt fits]
    exact Nat.min_le_left _ _
  · have wrapped := Nat.mod_lt (width.toNat * count.toNat) (Nat.two_pow_pos 64)
    constructor
    · intro stored
      exact Or.inr (by omega)
    · intro covers
      rcases covers with small | enough
      · exact absurd small fits
      · omega

theorem u64At_drop (file : List UInt8) (start offset : Nat) :
    u64At (file.drop start) offset = u64At file (start + offset) := by
  unfold u64At bytesAt
  rw [List.drop_drop]

theorem clusterStart_mono (file : List UInt8) (dimension : UInt64) (first more : Nat) :
    clusterStart file dimension first ≤ clusterStart file dimension (first + more) := by
  induction more with
  | zero => exact Nat.le_refl _
  | succ more ih =>
      rw [← Nat.add_assoc, clusterStart]
      omega

/-- The clusters from one on: that one, and those behind it. -/
theorem clustersCover_succ {file : List UInt8} {dimension : UInt64} {k index : Nat}
    (inside : clusterStart file dimension index ≤ file.length) :
    (∀ more < k + 1, clusterStart file dimension (index + more) ≤ file.length →
        ClusterCovers file dimension (clusterStart file dimension (index + more))) ↔
      ClusterCovers file dimension (clusterStart file dimension index) ∧
        ∀ more < k, clusterStart file dimension (index + 1 + more) ≤ file.length →
          ClusterCovers file dimension (clusterStart file dimension (index + 1 + more)) := by
  constructor
  · intro all
    constructor
    · exact all 0 (Nat.succ_pos k) inside
    · intro more below reached
      rw [Nat.add_assoc, Nat.add_comm 1] at reached ⊢
      exact all (more + 1) (Nat.succ_lt_succ below) reached
  · rintro ⟨here, later⟩ more below reached
    cases more with
    | zero => exact here
    | succ more =>
        rw [Nat.add_comm more, ← Nat.add_assoc] at reached ⊢
        exact later more (Nat.lt_of_succ_lt_succ below) reached

/-- Behind a cluster that is cut off nothing is reached. -/
theorem clustersCover_of_beyond (file : List UInt8) (dimension : UInt64) (k index : Nat)
    (beyond : file.length < clusterStart file dimension index) :
    ∀ more < k, clusterStart file dimension (index + more) ≤ file.length →
      ClusterCovers file dimension (clusterStart file dimension (index + more)) := by
  intro more _ reached
  have mono := clusterStart_mono file dimension index more
  omega

/-- The reads from the cluster at `index` on; the induction is on how many clusters
are left. -/
theorem clusterReads_fit_iff (file : List UInt8) (dimension : UInt64) (k index : Nat)
    (inside : clusterStart file dimension index ≤ file.length) :
    (∀ read ∈ clusterReads dimension k (file.drop (clusterStart file dimension index)),
        read.stored ≤ read.allocated) ↔
      ∀ more < k, clusterStart file dimension (index + more) ≤ file.length →
        ClusterCovers file dimension (clusterStart file dimension (index + more)) := by
  induction k generalizing index with
  | zero =>
      refine iff_of_true ?_ ?_
      · intro read member
        cases member
      · intro more impossible
        exact absurd impossible (Nat.not_lt_zero _)
  | succ k ih =>
      let start := clusterStart file dimension index
      let fields := start + 4 * dimension.toNat
      have nextEq : clusterStart file dimension (index + 1) =
          fields + 16 + 8 * (u64At file fields).toNat := rfl
      have laterVacuous := clustersCover_of_beyond file dimension k (index + 1)
      rw [clustersCover_succ inside, clusterReads]
      dsimp only
      rw [List.forall_mem_cons, bufferRead_fits_iff, List.length_drop, u64At_drop]
      by_cases short : file.length - start < 4 * dimension.toNat + 16
      · rw [if_pos short]
        constructor
        · rintro ⟨centroid, -⟩
          refine ⟨⟨centroid, ?_⟩, laterVacuous (by omega)⟩
          intro fieldsIn
          omega
        · rintro ⟨here, -⟩
          refine ⟨here.centroid, ?_⟩
          intro read member
          cases member
      · rw [if_neg short, List.forall_mem_cons, bufferRead_fits_iff, List.drop_drop,
          List.length_drop, ← Nat.add_assoc]
        by_cases cutOff : file.length - (fields + 16) < 8 * (u64At file fields).toNat
        · rw [if_pos cutOff]
          constructor
          · rintro ⟨centroid, offsets, -⟩
            exact ⟨⟨centroid, fun _ => offsets⟩, laterVacuous (by omega)⟩
          · rintro ⟨here, -⟩
            refine ⟨here.centroid, here.offsets (by omega), ?_⟩
            intro read member
            cases member
        · rw [if_neg cutOff, List.drop_drop, ← nextEq, ih (index + 1) (by omega)]
          constructor
          · rintro ⟨centroid, offsets, later⟩
            exact ⟨⟨centroid, fun _ => offsets⟩, later⟩
          · rintro ⟨here, later⟩
            exact ⟨here.centroid, here.offsets (by omega), later⟩

theorem readBuffer_overflow {width count : UInt64} {file : List UInt8}
    (overflows : ¬(bufferRead width count file.length).stored ≤
      (bufferRead width count file.length).allocated) :
    readBuffer width count file = .error .overflow := if_pos (Nat.not_le.mp overflows)

theorem readBuffer_fitting {width count : UInt64} {file : List UInt8}
    (fits : (bufferRead width count file.length).stored ≤
      (bufferRead width count file.length).allocated) :
    readBuffer width count file =
      if width.toNat * count.toNat ≤ file.length then
        .ok (file.take (width.toNat * count.toNat), file.drop (width.toNat * count.toNat))
      else .error .truncated := if_neg (Nat.not_lt.mpr fits)

/-- One cluster of the loader: its two buffers, and the fields between them. -/
theorem loadCluster_eq (dimension : UInt64) (file : List UInt8) :
    let fields := 4 * dimension.toNat
    let count := u64At file fields
    let left := file.drop (fields + 16)
    loadCluster dimension file =
      if ¬(bufferRead 4 dimension file.length).stored ≤
          (bufferRead 4 dimension file.length).allocated then .error .overflow
      else if file.length < fields + 16 then .error .truncated
      else if ¬(bufferRead 8 count left.length).stored ≤
          (bufferRead 8 count left.length).allocated then .error .overflow
      else if left.length < 8 * count.toNat then .error .truncated
      else .ok (
        { centroidVector := floatsAt (file.take fields) 0 dimension.toNat
          recordIndex := []
          count := count
          capacity := u64At file (fields + 8)
          byteOffsets := offsetsAt (left.take (8 * count.toNat)) 0 count.toNat },
        left.drop (8 * count.toNat)) := by
  intro fields count left
  by_cases centroidFits : (bufferRead 4 dimension file.length).stored ≤
      (bufferRead 4 dimension file.length).allocated
  · have readCentroid : readBuffer 4 dimension file =
        if fields ≤ file.length then .ok (file.take fields, file.drop fields)
        else .error .truncated := readBuffer_fitting centroidFits
    rw [if_neg (not_not.mpr centroidFits), loadCluster, readCentroid]
    by_cases centroidIn : fields ≤ file.length
    · rw [if_pos centroidIn]
      dsimp only [bind, Except.bind]
      have countEq : u64At (file.drop fields) 0 = count := u64At_drop file fields 0
      have capacityEq : u64At (file.drop (fields + 8)) 0 = u64At file (fields + 8) :=
        u64At_drop file (fields + 8) 0
      by_cases countIn : 8 ≤ file.length - fields
      · rw [readU64, List.length_drop, if_pos countIn, countEq, List.drop_drop]
        dsimp only
        by_cases capacityIn : 8 ≤ file.length - (fields + 8)
        · rw [readU64, List.length_drop, if_pos capacityIn, if_neg (by omega), capacityEq,
            List.drop_drop]
          dsimp only
          by_cases offsetsFit : (bufferRead 8 count left.length).stored ≤
              (bufferRead 8 count left.length).allocated
          · have readOffsets : readBuffer 8 count left =
                if 8 * count.toNat ≤ left.length then
                  .ok (left.take (8 * count.toNat), left.drop (8 * count.toNat))
                else .error .truncated := readBuffer_fitting offsetsFit
            rw [if_neg (not_not.mpr offsetsFit), readOffsets]
            by_cases offsetsIn : 8 * count.toNat ≤ left.length
            · rw [if_pos offsetsIn, if_neg (Nat.not_lt.mpr offsetsIn)]
              rfl
            · rw [if_neg offsetsIn, if_pos (Nat.not_le.mp offsetsIn)]
          · rw [if_pos offsetsFit, readBuffer_overflow offsetsFit]
        · rw [readU64, List.length_drop, if_neg capacityIn, if_pos (by omega)]
      · rw [readU64, List.length_drop, if_neg countIn, if_pos (by omega)]
    · rw [if_neg centroidIn, if_pos (by omega)]
      rfl
  · rw [if_pos centroidFits, loadCluster, readBuffer_overflow centroidFits]
    rfl

/-- The modelled loader stops with an overflow at the first read that does not fit. -/
theorem loadClusters_overflow_iff (dimension : UInt64) (k : Nat) (file : List UInt8) :
    loadClusters dimension k file = .error .overflow ↔
      ¬∀ read ∈ clusterReads dimension k file, read.stored ≤ read.allocated := by
  induction k generalizing file with
  | zero =>
      refine iff_of_false nofun (not_not.mpr ?_)
      intro read member
      cases member
  | succ k ih =>
      rw [loadClusters, loadCluster_eq, clusterReads]
      dsimp only
      rw [List.forall_mem_cons]
      by_cases centroidFits : (bufferRead 4 dimension file.length).stored ≤
          (bufferRead 4 dimension file.length).allocated
      · rw [if_neg (not_not.mpr centroidFits), and_iff_right centroidFits]
        by_cases short : file.length < 4 * dimension.toNat + 16
        · rw [if_pos short, if_pos short]
          exact iff_of_false nofun (not_not.mpr nofun)
        · rw [if_neg short, if_neg short, List.forall_mem_cons]
          generalize u64At file (4 * dimension.toNat) = count
          generalize file.drop (4 * dimension.toNat + 16) = left
          by_cases offsetsFit : (bufferRead 8 count left.length).stored ≤
              (bufferRead 8 count left.length).allocated
          · rw [if_neg (not_not.mpr offsetsFit), and_iff_right offsetsFit]
            by_cases cutOff : left.length < 8 * count.toNat
            · rw [if_pos cutOff, if_pos cutOff]
              exact iff_of_false nofun (not_not.mpr nofun)
            · rw [if_neg cutOff, if_neg cutOff, ← ih]
              dsimp only [bind, Except.bind]
              cases loadClusters dimension k (left.drop (8 * count.toNat)) with
              | error problem => rfl
              | ok rest => exact iff_of_false nofun nofun
          · rw [if_pos offsetsFit]
            exact iff_of_true rfl fun both => offsetsFit both.1
      · rw [if_pos centroidFits]
        exact iff_of_true rfl fun both => centroidFits both.1

/-- Loading is defined when, and only when, every read fits. -/
theorem loadIvfIndex_isSome_iff (file : List UInt8) (outK outDimension : UInt64) :
    (loadIvfIndex (some file) outK outDimension).isSome = true ↔ ReadsFit file := by
  unfold ReadsFit indexReads
  rw [loadIvfIndex]
  by_cases short : file.length < 8
  · rw [readU64, if_neg (Nat.not_le.mpr short), if_pos (by omega)]
    exact iff_of_true rfl fun _ member => absurd member List.not_mem_nil
  · rw [readU64, if_pos (Nat.not_lt.mp short)]
    dsimp only
    by_cases noDimension : file.length < 16
    · rw [readU64, List.length_drop, if_neg (by omega), if_pos noDimension]
      exact iff_of_true rfl fun _ member => absurd member List.not_mem_nil
    · rw [readU64, List.length_drop, if_pos (by omega), if_neg noDimension, u64At_drop,
        List.drop_drop]
      dsimp only
      by_cases refused : 2 ^ 64 ≤ (u64At file 0).toNat * sizeofCluster
      · rw [if_pos refused, if_pos refused]
        exact iff_of_true rfl fun _ member => absurd member List.not_mem_nil
      · rw [if_neg refused, if_neg refused]
        have overflowIff := loadClusters_overflow_iff (u64At file 8) (u64At file 0).toNat
          (file.drop 16)
        rw [← not_iff_not, ← overflowIff, Option.not_isSome_iff_eq_none]
        split
        · rename_i overflowed
          exact iff_of_true rfl overflowed
        · rename_i truncated
          rw [truncated]
          refine iff_of_false (Option.some_ne_none _) ?_
          intro same
          cases same
        · rename_i clusters loaded
          rw [loaded]
          refine iff_of_false (Option.some_ne_none _) ?_
          intro same
          cases same

/-- The loader stores inside its buffers exactly when every size that it computes
from the file covers what it reads. -/
theorem index_reads_fit_iff (file : List UInt8) : ReadsFit file ↔ SizesCover file := by
  unfold ReadsFit SizesCover indexReads
  by_cases short : file.length < 16
  · rw [if_pos short]
    refine iff_of_true ?_ ?_
    · intro read member
      cases member
    · intro long
      omega
  · rw [if_neg short]
    by_cases refused : 2 ^ 64 ≤ (u64At file 0).toNat * sizeofCluster
    · rw [if_pos refused]
      refine iff_of_true ?_ ?_
      · intro read member
        cases member
      · intro _ small
        omega
    · have reads := clusterReads_fit_iff file (u64At file 8) (u64At file 0).toNat 0
        (Nat.not_lt.mp short)
      simp only [Nat.zero_add] at reads
      rw [if_neg refused, ← Nat.not_le]
      change (∀ read ∈ clusterReads _ _ (file.drop (clusterStart file (u64At file 8) 0)), _) ↔ _
      rw [reads]
      constructor
      · exact fun covers _ _ => covers
      · exact fun covers => covers (Nat.not_lt.mp short) refused

/-- One cluster of dimension 2^62: a buffer of no bytes, and one byte to store. -/
def hugeDimensionFile : List UInt8 :=
  LittleEndian.encode 8 1 ++ LittleEndian.encode 8 (2 ^ 62) ++ [0]

theorem huge_dimension_overflows :
    indexReads hugeDimensionFile = [{ allocated := 0, stored := 1 }] ∧
      ¬ReadsFit hugeDimensionFile := by
  have reads : indexReads hugeDimensionFile = [{ allocated := 0, stored := 1 }] := by
    decide +kernel
  refine ⟨reads, ?_⟩
  intro fit
  have stored :=
    fit { allocated := 0, stored := 1 } (by rw [reads]; exact List.mem_singleton_self _)
  exact absurd stored (by decide)

end OriginDb
