/-
Probing search: `ivf_search` of `kmeans.c` and `db_ann_search` of `db.c`.

The clusters nearest to the query are kept in an array of `nprobe` places, their
offsets are collected, and each record is read from the mapping of the data file.
An access outside an array, or through a pointer that cannot be read, returns
`none`.
-/

import OriginDb.Kmeans

namespace OriginDb

/-- `cluster_dist_t`. -/
structure ClusterDist where
  dis : UInt32
  clusterIdx : Nat
deriving DecidableEq

section Search

variable (ops : FloatOps)

/-- The `while` loop that makes room for a cluster: the place that is free then,
and the array. -/
def shiftClusters (dis : UInt32) : Nat → List ClusterDist → Nat × List ClusterDist
  | 0, best => (0, best)
  | insertPos + 1, best =>
      match best[insertPos]? with
      | none => (insertPos + 1, best)
      | some before =>
          if ops.less dis before.dis then
            shiftClusters dis insertPos (best.set (insertPos + 1) before)
          else (insertPos + 1, best)

def offerCluster (index : Nat) (dis : UInt32) (best : List ClusterDist) :
    Option (List ClusterDist) :=
  match best.getLast? with
  | none => none
  | some worst =>
      if ops.less dis worst.dis then
        let (insertPos, shifted) := shiftClusters ops dis (best.length - 1) best
        some (shifted.set insertPos { dis := dis, clusterIdx := index })
      else some best

/-- The loop over the clusters. -/
def nearestClusters (dimension : UInt64) (metric : MetricType) (query : List UInt32) :
    List Cluster → Nat → List ClusterDist → Option (List ClusterDist)
  | [], _, best => some best
  | cluster :: rest, index, best =>
      match offerCluster ops index
        (ops.calculate metric dimension cluster.centroidVector query) best with
      | none => none
      | some next => nearestClusters dimension metric query rest (index + 1) next

/-- The offsets of one chosen cluster. -/
def clusterIds (clusters : List Cluster) (chosen : ClusterDist) : Option (List UInt64) :=
  match clusters[chosen.clusterIdx]? with
  | none => none
  | some cluster =>
      if cluster.count.toNat ≤ cluster.byteOffsets.length then
        some (cluster.byteOffsets.take cluster.count.toNat)
      else none

/-- `ivf_search`: the offsets to fetch. -/
def ivfSearch (clusters : List Cluster) (query : List UInt32) (nprobe k dimension : UInt64)
    (metric : MetricType) : Option (List UInt64) :=
  if clusters.length < k.toNat then none
  else
    match nearestClusters ops dimension metric query (clusters.take k.toNat) 0
      (List.replicate nprobe.toNat { dis := ops.huge, clusterIdx := 0 }) with
    | none => none
    | some best => (best.mapM (clusterIds clusters)).map List.flatten

/-- The loop over the fetched offsets. -/
def annSearchLoop (data : List UInt8) (storage : Storage) (dimension : UInt64)
    (metric : MetricType) (query : List UInt32) (topK : UInt64)
    (pending : Option (List UInt64)) (pendingCount : Nat) :
    List UInt64 → List (SearchResult UInt32) → Option (List (SearchResult UInt32))
  | [], results => some results
  | byteOffset :: rest, results =>
      match storageFetchByOffset data storage byteOffset Record.blank dimension with
      | .error _ =>
          annSearchLoop data storage dimension metric query topK pending pendingCount rest results
      | .ok record =>
          if record.isDeleted || isPendingDelete record.id pending pendingCount then
            annSearchLoop data storage dimension metric query topK pending pendingCount rest
              results
          else
            match readVector data storage dimension record.vector with
            | none => none
            | some vector =>
                match offerResult ops.toDistances topK results record.id record.metadata
                  (ops.calculate metric dimension vector.val query) with
                | none => none
                | some next =>
                    annSearchLoop data storage dimension metric query topK pending pendingCount
                      rest next

/-- `db_ann_search`: return value and the result array.  The handlers call it
with a `top_k` of at least 1. -/
def dbAnnSearch (data : List UInt8) (db : FlatDb) (query : List UInt32) (topK nprobe : UInt64)
    (clusters : List Cluster) (numClusters : UInt64) :
    Option (Int × List (SearchResult UInt32)) :=
  match ivfSearch ops clusters query nprobe numClusters db.dimension db.calculateDistance with
  | none => none
  | some fetched =>
      (annSearchLoop ops data db.storage db.dimension db.calculateDistance query topK
        db.pendingDeletes db.pendingCount fetched
        (List.replicate topK.toNat (SearchResult.empty ops.toDistances))).map
          fun results => (0, results)

end Search

end OriginDb
