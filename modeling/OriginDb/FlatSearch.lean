/-
Exhaustive search: `baseline-flat.c`.

Distances are floating-point numbers of which the search uses only the
comparison, so they are values of an arbitrary type with a strict comparison
about which nothing is assumed.  A search that follows a vector pointer it
cannot read, or writes outside the result array, returns `none`.

What a search returns depends on the live records alone, and on nothing but
their contents.
-/

import OriginDb.TableAgreement

namespace OriginDb

/-- The floating-point side of a search: the distance functions of
`distance.c`, the comparison `<` and `FLT_MAX`. -/
structure Distances (δ : Type) where
  calculate : MetricType → UInt64 → List UInt32 → List UInt32 → δ
  less : δ → δ → Bool
  fltMax : δ

structure SearchResult (δ : Type) where
  id : UInt64
  metadata : Option CString
  calculatedDistance : δ
deriving DecidableEq

section Search

variable {δ : Type} (distances : Distances δ)

def SearchResult.empty : SearchResult δ :=
  { id := 0
    metadata := none
    calculatedDistance := distances.fltMax }

/-- The `while` loop that walks `insert_idx` down past the worse results. -/
def insertIdx (results : List (SearchResult δ)) (dis : δ) : Nat → Nat
  | 0 => 0
  | index + 1 =>
      match results[index]? with
      | none => index + 1
      | some result =>
          if distances.less dis result.calculatedDistance then insertIdx results dis index
          else index + 1

/-- The `for` loop that moves the results from `target` on one place down. -/
def shiftDown (target : Nat) : Nat → List (SearchResult δ) → List (SearchResult δ)
  | 0, results => results
  | index + 1, results =>
      if target < index + 1 then
        let moved := results.set (index + 1) ((results[index]?).getD (SearchResult.empty distances))
        shiftDown target index (moved.modify index fun result => { result with metadata := none })
      else results

/-- One candidate of the search loop.  `insert_idx` is an `int`: for a `top_k`
beyond its range the first store falls outside the array. -/
def offerResult (topK : UInt64) (results : List (SearchResult δ)) (id : UInt64)
    (metadata : Option CString) (dis : δ) : Option (List (SearchResult δ)) :=
  let worst := (results[(topK - 1).toNat]?).getD (SearchResult.empty distances)
  if distances.less dis worst.calculatedDistance then
    let start := asInt (topK - 1).toNat
    if start < 0 then none
    else
      let target := insertIdx distances results dis start.toNat
      let shifted := shiftDown distances target start.toNat results
      some (shifted.set target { id := id, metadata := metadata, calculatedDistance := dis })
  else some results

def flatSearchLoop (data : List UInt8) (storage : Storage) (dimension : UInt64)
    (metric : MetricType) (query : List UInt32) (topK : UInt64)
    (pending : Option (List UInt64)) (pendingCount : Nat) :
    List Record → List (SearchResult δ) → Option (List (SearchResult δ))
  | [], results => some results
  | record :: rest, results =>
      if record.isDeleted || isPendingDelete record.id pending pendingCount then
        flatSearchLoop data storage dimension metric query topK pending pendingCount rest results
      else
        match readVector data storage dimension record.vector with
        | none => none
        | some vector =>
            match offerResult distances topK results record.id record.metadata
              (distances.calculate metric dimension vector.val query) with
            | none => none
            | some next =>
                flatSearchLoop data storage dimension metric query topK pending pendingCount
                  rest next

/-- `flat_search` on an open table: return value and the result array. -/
def flatSearch (data : List UInt8) (db : FlatDb) (query : List UInt32) (topK : UInt64) :
    Option (Int × List (SearchResult δ)) :=
  if topK = 0 then some (-1, [])
  else
    (flatSearchLoop distances data db.storage db.dimension db.calculateDistance query topK
      db.pendingDeletes db.pendingCount db.records
      (List.replicate topK.toNat (SearchResult.empty distances))).map fun results => (0, results)

/-! ### A search sees the live records -/

variable {dimension : UInt64}

/-- The search loop over record values: what the table's search computes once
its pointers have been followed. -/
def searchStored (metric : MetricType) (query : List UInt32) (topK : UInt64)
    (pending : Option (List UInt64)) (pendingCount : Nat) :
    List (StoredRecord dimension) → List (SearchResult δ) → Option (List (SearchResult δ))
  | [], results => some results
  | stored :: rest, results =>
      if isPendingDelete stored.id pending pendingCount then
        searchStored metric query topK pending pendingCount rest results
      else
        match offerResult distances topK results stored.id stored.metadata
          (distances.calculate metric dimension stored.vector query) with
        | none => none
        | some next => searchStored metric query topK pending pendingCount rest next

theorem readVector_of_contents {data : List UInt8} {storage : Storage} {record : Record}
    {stored : StoredRecord dimension}
    (found : record.contents data storage dimension = some stored) :
    readVector data storage dimension record.vector =
      some ⟨stored.vector, stored.vector_length⟩ := by
  obtain ⟨values, readEq, rfl⟩ := Option.map_eq_some_iff.mp found
  exact readEq

theorem flatSearchLoop_eq {data : List UInt8} {storage : Storage} {records : List Record}
    {stored : List (StoredRecord dimension)}
    (copyable : List.Forall₂ (Copyable data storage) records stored) (metric : MetricType)
    (query : List UInt32) (topK : UInt64) (pending : Option (List UInt64)) (pendingCount : Nat)
    (results : List (SearchResult δ)) :
    flatSearchLoop distances data storage dimension metric query topK pending pendingCount
        records results =
      searchStored distances metric query topK pending pendingCount (liveOf stored) results := by
  induction copyable generalizing results with
  | nil => rfl
  | @cons record first records stored head tail ih =>
      cases flag : first.isDeleted with
      | true =>
          have skipped : liveOf (first :: stored) = liveOf stored :=
            List.filter_cons_of_neg (by simp [flag])
          rw [skipped, flatSearchLoop, head.1, flag, Bool.true_or, if_pos rfl, ih]
      | false =>
          have keptFirst : liveOf (first :: stored) = first :: liveOf stored :=
            List.filter_cons_of_pos (by simp [flag])
          have found := head.2 flag
          obtain ⟨idEq, metadataEq, -⟩ := contents_fields found
          rw [keptFirst, flatSearchLoop, searchStored, head.1, flag, Bool.false_or, idEq,
            metadataEq, readVector_of_contents found]
          split
          · exact ih results
          · dsimp only
            split
            · rfl
            · exact ih _

/-- The index of the last result, as a `uint64_t` and as an `int`. -/
theorem lastIndex_eq {topK : UInt64} (positive : topK ≠ 0) :
    (topK - 1).toNat = topK.toNat - 1 := by
  have nonzero : topK.toNat ≠ 0 := fun zero => positive (UInt64.toNat_inj.mp zero)
  have atLeastOne : 1 ≤ topK := by
    rw [UInt64.le_iff_toNat_le]
    change 1 ≤ topK.toNat
    omega
  rw [UInt64.toNat_sub_of_le _ _ atLeastOne]
  rfl

theorem asInt_lastIndex {topK : UInt64} (positive : topK ≠ 0) (small : topK.toNat ≤ 2 ^ 31) :
    asInt (topK - 1).toNat = (topK.toNat - 1 : Nat) := by
  have nonzero : topK.toNat ≠ 0 := fun zero => positive (UInt64.toNat_inj.mp zero)
  rw [lastIndex_eq positive, asInt]
  split <;> omega

theorem offerResult_isSome (topK : UInt64) (results : List (SearchResult δ)) (id : UInt64)
    (metadata : Option CString) (dis : δ) (positive : topK ≠ 0) (small : topK.toNat ≤ 2 ^ 31) :
    (offerResult distances topK results id metadata dis).isSome = true := by
  have notNegative : ¬asInt (topK - 1).toNat < 0 := by
    rw [asInt_lastIndex positive small]
    omega
  simp only [offerResult, if_neg notNegative]
  split <;> rfl

theorem searchStored_isSome (metric : MetricType) (query : List UInt32) (topK : UInt64)
    (pending : Option (List UInt64)) (pendingCount : Nat) (positive : topK ≠ 0)
    (small : topK.toNat ≤ 2 ^ 31) (stored : List (StoredRecord dimension))
    (results : List (SearchResult δ)) :
    (searchStored distances metric query topK pending pendingCount stored results).isSome =
      true := by
  induction stored generalizing results with
  | nil => rfl
  | cons first rest ih =>
      rw [searchStored]
      split
      · exact ih results
      · have offered := offerResult_isSome distances topK results first.id first.metadata
          (distances.calculate metric dimension first.vector query) positive small
        obtain ⟨next, nextEq⟩ := Option.isSome_iff_exists.mp offered
        rw [nextEq]
        exact ih next

end Search

/-- Two states of a table give every query the same answer, and there is one
as long as `top_k` fits an `int`. -/
def SameSearches (data : List UInt8) (db : FlatDb) (file : List UInt8) (next : FlatDb) : Prop :=
  ∀ (δ : Type) (distances : Distances δ) (query : List UInt32) (topK : UInt64),
    flatSearch distances data db query topK = flatSearch distances file next query topK ∧
      (topK.toNat ≤ 2 ^ 31 → (flatSearch distances data db query topK).isSome = true)

/-- Tables with the same live records answer every query alike. -/
theorem sameSearches_of_live {dimension : UInt64} {data file : List UInt8} {db next : FlatDb}
    {before after : List (StoredRecord dimension)}
    (dimensionEq : db.dimension = dimension) (sameDimension : next.dimension = db.dimension)
    (sameMetric : next.calculateDistance = db.calculateDistance)
    (samePending : next.pendingDeletes = db.pendingDeletes)
    (sameCount : next.pendingCount = db.pendingCount)
    (copyable : List.Forall₂ (Copyable data db.storage) db.records before)
    (copyableNext : List.Forall₂ (Copyable file next.storage) next.records after)
    (sameLive : liveOf after = liveOf before) :
    SameSearches data db file next := by
  subst dimensionEq
  intro δ distances query topK
  unfold flatSearch
  rw [sameDimension, sameMetric, samePending, sameCount,
    flatSearchLoop_eq distances copyable, flatSearchLoop_eq distances copyableNext, sameLive]
  refine ⟨rfl, ?_⟩
  intro small
  split
  · rfl
  · rename_i positive
    rw [Option.isSome_map]
    exact searchStored_isSome distances _ query topK _ _ positive small _ _

end OriginDb
