/-
The index file of a table: `save_ivf_index` and `load_ivf_index`.

The file holds the number of clusters, the dimension, and for each cluster its
centroid, count, capacity and offsets.  Every buffer of the loader is allocated
with a size computed in wrapping 64-bit arithmetic; a read that stores past its
buffer is undefined behaviour.  Whatever part of a saved file is left, loading
it gives the saved clusters or nothing.
-/

import OriginDb.Kmeans

namespace OriginDb

open Foundation

/-! ### Saving -/

def offsetBytes (offsets : List UInt64) : List UInt8 :=
  offsets.flatMap fun offset => LittleEndian.encode 8 offset.toNat

def encodeCluster (cluster : Cluster) : List UInt8 :=
  StoredRecord.vectorBytes cluster.centroidVector ++
    (LittleEndian.encode 8 cluster.count.toNat ++
      (LittleEndian.encode 8 cluster.capacity.toNat ++ offsetBytes cluster.byteOffsets))

def encodeIvfIndex (clusters : List Cluster) (k dimension : UInt64) : List UInt8 :=
  LittleEndian.encode 8 k.toNat ++ (LittleEndian.encode 8 dimension.toNat ++
    clusters.flatMap encodeCluster)

/-- The arrays that the writes of `save_ivf_index` read from are long enough. -/
def Writable (clusters : List Cluster) (k dimension : UInt64) : Prop :=
  clusters.length = k.toNat ∧ ∀ cluster ∈ clusters,
    cluster.centroidVector.length = dimension.toNat ∧
      cluster.byteOffsets.length = cluster.count.toNat

instance (clusters : List Cluster) (k dimension : UInt64) :
    Decidable (Writable clusters k dimension) := by
  unfold Writable
  infer_instance

/-- Outcome of the file operations of `save_ivf_index`: the file does not open,
a write fails after `written` bytes, or everything succeeds. -/
inductive SaveIO where
  | ok
  | openFailed
  | failed (written : Nat)
deriving DecidableEq

/-- `save_ivf_index`: return value and index file. -/
def saveIvfIndex (io : SaveIO) (clusters : List Cluster) (k dimension : UInt64)
    (ivfIndex : Option (List UInt8)) : Option (Int × Option (List UInt8)) :=
  if Writable clusters k dimension then
    match io with
    | .ok => some (0, some (encodeIvfIndex clusters k dimension))
    | .openFailed => some (-1, ivfIndex)
    | .failed written => some (-1, some ((encodeIvfIndex clusters k dimension).take written))
  else none

/-! ### Loading -/

inductive LoadError where
  | overflow
  | truncated
deriving DecidableEq

/-- One `fread` of `count` items into a buffer made by `malloc(width * count)`. -/
def readBuffer (width count : UInt64) (file : List UInt8) :
    Except LoadError (List UInt8 × List UInt8) :=
  let wanted := width.toNat * count.toNat
  if (width * count).toNat < min wanted file.length then .error .overflow
  else if wanted ≤ file.length then .ok (file.take wanted, file.drop wanted)
  else .error .truncated

def readU64 (file : List UInt8) : Except LoadError (UInt64 × List UInt8) :=
  if 8 ≤ file.length then .ok (u64At file 0, file.drop 8) else .error .truncated

/-- `count` consecutive offsets. -/
def offsetsAt (data : List UInt8) (offset : Nat) : Nat → List UInt64
  | 0 => []
  | count + 1 => u64At data offset :: offsetsAt data (offset + 8) count

def loadCluster (dimension : UInt64) (file : List UInt8) :
    Except LoadError (Cluster × List UInt8) := do
  let (centroid, file) ← readBuffer 4 dimension file
  let (count, file) ← readU64 file
  let (capacity, file) ← readU64 file
  let (offsets, file) ← readBuffer 8 count file
  return (
    { centroidVector := floatsAt centroid 0 dimension.toNat
      recordIndex := []
      count := count
      capacity := capacity
      byteOffsets := offsetsAt offsets 0 count.toNat },
    file)

def loadClusters (dimension : UInt64) : Nat → List UInt8 → Except LoadError (List Cluster)
  | 0, _ => return []
  | k + 1, file => do
      let (cluster, file) ← loadCluster dimension file
      let rest ← loadClusters dimension k file
      return cluster :: rest

/-- `sizeof(cluster_t)`. -/
def sizeofCluster : Nat := 40

/-- `load_ivf_index`: the clusters (or NULL), `*out_k` and `*out_dimension`.
`calloc` refuses a size that does not fit in 64 bits. -/
def loadIvfIndex (ivfIndex : Option (List UInt8)) (outK outDimension : UInt64) :
    Option (Option (List Cluster) × UInt64 × UInt64) :=
  match ivfIndex with
  | none => some (none, outK, outDimension)
  | some file =>
      match readU64 file with
      | .error _ => some (none, outK, outDimension)
      | .ok (k, afterK) =>
          match readU64 afterK with
          | .error _ => some (none, k, outDimension)
          | .ok (dimension, body) =>
              if 2 ^ 64 ≤ k.toNat * sizeofCluster then some (none, k, dimension)
              else
                match loadClusters dimension k.toNat body with
                | .error .overflow => none
                | .error .truncated => some (none, k, dimension)
                | .ok clusters => some (some clusters, k, dimension)

/-! ### Loading what was saved -/

theorem offsetsAt_append (before after : List UInt8) (offsets : List UInt64) :
    offsetsAt (before ++ (offsetBytes offsets ++ after)) before.length offsets.length =
      offsets := by
  induction offsets generalizing before with
  | nil => rfl
  | cons offset rest ih =>
      have split : before ++ (offsetBytes (offset :: rest) ++ after) =
          before ++ (LittleEndian.encode 8 offset.toNat ++ (offsetBytes rest ++ after)) := by
        simp only [offsetBytes, List.flatMap_cons, List.append_assoc]
      have later := ih (before ++ LittleEndian.encode 8 offset.toNat)
      rw [List.append_assoc, List.length_append, LittleEndian.encode_length] at later
      rw [split, List.length_cons, offsetsAt, u64At_append, later]

theorem offsetBytes_length (offsets : List UInt64) :
    (offsetBytes offsets).length = 8 * offsets.length := by
  induction offsets with
  | nil => rfl
  | cons offset rest ih =>
      simp only [offsetBytes, List.flatMap_cons, List.length_append, LittleEndian.encode_length,
        List.length_cons] at ih ⊢
      omega

/-- A whole part read from what is left of a file is that part of the file. -/
theorem take_drop_of_part {file first rest : List UInt8} (part : file <+: first ++ rest)
    (enough : first.length ≤ file.length) :
    file.take first.length = first ∧ file.drop first.length <+: rest := by
  rcases part with ⟨lost, whole⟩
  have taken := congrArg (List.take first.length) whole
  have dropped := congrArg (List.drop first.length) whole
  rw [List.take_append_of_le_length enough, List.take_left] at taken
  rw [List.drop_append_of_le_length enough, List.drop_left] at dropped
  exact ⟨taken, lost, dropped⟩

theorem readBuffer_of_part {width count : UInt64} {file first rest taken left : List UInt8}
    (part : file <+: first ++ rest) (sizeEq : first.length = width.toNat * count.toNat)
    (read : readBuffer width count file = .ok (taken, left)) : taken = first ∧ left <+: rest := by
  simp only [readBuffer, ← sizeEq] at read
  split at read
  · cases read
  · split at read
    · rename_i enough
      cases read
      exact take_drop_of_part part enough
    · cases read

theorem readU64_of_part {file rest left : List UInt8} {value word : UInt64}
    (part : file <+: LittleEndian.encode 8 value.toNat ++ rest)
    (read : readU64 file = .ok (word, left)) : word = value ∧ left <+: rest := by
  unfold readU64 at read
  split at read
  · rename_i enough
    cases read
    have lengthEq := LittleEndian.encode_length 8 value.toNat
    obtain ⟨taken, dropped⟩ := take_drop_of_part part (by rw [lengthEq]; exact enough)
    rw [lengthEq] at taken dropped
    constructor
    · have alone := u64At_append [] [] value
      rw [List.append_nil, List.nil_append, List.length_nil, ← taken] at alone
      simpa only [u64At, bytesAt, List.drop_zero, List.take_take, Nat.min_self] using alone
    · exact dropped
  · cases read

/-- What the loader makes of a saved cluster: the indices are not in the file. -/
def Cluster.fromFile (cluster : Cluster) : Cluster := { cluster with recordIndex := [] }

theorem except_bind_ok {ε α β : Type} {first : Except ε α} {next : α → Except ε β} {result : β}
    (ran : first >>= next = .ok result) :
    ∃ value, first = .ok value ∧ next value = .ok result := by
  cases first with
  | error problem => cases ran
  | ok value => exact ⟨value, rfl, ran⟩

theorem loadCluster_of_part {dimension : UInt64} {file rest left : List UInt8}
    {cluster found : Cluster}
    (centroidLength : cluster.centroidVector.length = dimension.toNat)
    (offsetsLength : cluster.byteOffsets.length = cluster.count.toNat)
    (part : file <+: encodeCluster cluster ++ rest)
    (loaded : loadCluster dimension file = .ok (found, left)) :
    found = cluster.fromFile ∧ left <+: rest := by
  obtain ⟨⟨centroid, afterCentroid⟩, readCentroid, loaded⟩ := except_bind_ok loaded
  obtain ⟨⟨count, afterCount⟩, readCount, loaded⟩ := except_bind_ok loaded
  obtain ⟨⟨capacity, afterCapacity⟩, readCapacity, loaded⟩ := except_bind_ok loaded
  obtain ⟨⟨offsets, afterOffsets⟩, readOffsets, loaded⟩ := except_bind_ok loaded
  simp only [encodeCluster, List.append_assoc] at part
  have centroidSize : (StoredRecord.vectorBytes cluster.centroidVector).length =
      (4 : UInt64).toNat * dimension.toNat := by
    rw [vectorBytes_length, centroidLength]
    rfl
  have offsetsSize : (offsetBytes cluster.byteOffsets).length =
      (8 : UInt64).toNat * cluster.count.toNat := by
    rw [offsetBytes_length, offsetsLength]
    rfl
  obtain ⟨rfl, part⟩ := readBuffer_of_part part centroidSize readCentroid
  obtain ⟨rfl, part⟩ := readU64_of_part part readCount
  obtain ⟨rfl, part⟩ := readU64_of_part part readCapacity
  obtain ⟨rfl, part⟩ := readBuffer_of_part part offsetsSize readOffsets
  have floats := floatsAt_append [] [] cluster.centroidVector
  have words := offsetsAt_append [] [] cluster.byteOffsets
  rw [List.nil_append, List.append_nil, List.length_nil] at floats words
  rw [centroidLength] at floats
  rw [offsetsLength] at words
  cases loaded
  constructor
  · rw [floats, words]
    rfl
  · exact part

theorem loadClusters_of_part {dimension : UInt64} {file : List UInt8}
    {clusters found : List Cluster}
    (shapes : ∀ cluster ∈ clusters, cluster.centroidVector.length = dimension.toNat ∧
      cluster.byteOffsets.length = cluster.count.toNat)
    (part : file <+: clusters.flatMap encodeCluster)
    (loaded : loadClusters dimension clusters.length file = .ok found) :
    found = clusters.map Cluster.fromFile := by
  induction clusters generalizing file found with
  | nil =>
      cases loaded
      rfl
  | cons cluster clusters ih =>
      obtain ⟨⟨first, afterFirst⟩, loadedFirst, loaded⟩ := except_bind_ok loaded
      obtain ⟨rest, loadedRest, loaded⟩ := except_bind_ok loaded
      obtain ⟨centroidLength, offsetsLength⟩ := shapes cluster (List.mem_cons_self ..)
      rw [List.flatMap_cons] at part
      obtain ⟨rfl, later⟩ :=
        loadCluster_of_part centroidLength offsetsLength part loadedFirst
      have restEq := ih (fun other member => shapes other (List.mem_cons_of_mem _ member))
        later loadedRest
      cases loaded
      rw [restEq, List.map_cons]

/-- Any part of a saved file loads as the saved clusters, if it loads at all. -/
theorem loadIvfIndex_of_part {clusters found : List Cluster} {k dimension : UInt64}
    {file : List UInt8} (writable : Writable clusters k dimension)
    (part : file <+: encodeIvfIndex clusters k dimension) {outK outDimension k' dimension' : UInt64}
    (loaded : loadIvfIndex (some file) outK outDimension = some (some found, k', dimension')) :
    found = clusters.map Cluster.fromFile := by
  rcases writable with ⟨lengthEq, shapes⟩
  simp only [loadIvfIndex] at loaded
  split at loaded
  · cases loaded
  · rename_i readK afterK readFirst
    obtain ⟨kEq, afterPart⟩ := readU64_of_part part readFirst
    split at loaded
    · cases loaded
    · rename_i readDimension body readSecond
      obtain ⟨dimensionEq, bodyPart⟩ := readU64_of_part afterPart readSecond
      split at loaded
      · cases loaded
      · split at loaded
        · cases loaded
        · cases loaded
        · rename_i result loadedBody
          cases loaded
          rw [kEq, dimensionEq, ← lengthEq] at loadedBody
          exact loadClusters_of_part shapes bodyPart loadedBody

end OriginDb
