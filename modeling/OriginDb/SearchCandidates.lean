/-
The candidates of a search.

Both searches offer what they find to one array, one after the other.  Offers
are bounded only by the array: as long as it has an empty place, a candidate
that is closer than `FLT_MAX` takes one, and none that stands in the array falls
out.  Nothing is asked of the comparison for that.
-/

import OriginDb.Responses
import OriginDb.ResultArray

namespace OriginDb

section Candidates

variable {δ : Type} (distances : Distances δ)

/-- The candidates that `flat_search` offers, in their order. -/
def flatCandidates (data : List UInt8) (storage : Storage)
    (dimension : UInt64) (metric : MetricType) (query : List UInt32)
    (pending : Option (List UInt64)) (pendingCount : Nat) :
    List Record → Option (List (SearchResult δ))
  | [] => some []
  | record :: rest =>
      if record.isDeleted || isPendingDelete record.id pending pendingCount then
        flatCandidates data storage dimension metric query pending pendingCount rest
      else
        match readVector data storage dimension record.vector with
        | none => none
        | some vector =>
            (flatCandidates data storage dimension metric query pending pendingCount
              rest).map fun candidates =>
                { id := record.id
                  metadata := record.metadata
                  calculatedDistance := distances.calculate metric dimension vector.val query } ::
                candidates

/-- The candidates that `db_ann_search` offers, in their order. -/
def annCandidates (ops : FloatOps) (data : List UInt8) (storage : Storage) (dimension : UInt64)
    (metric : MetricType) (query : List UInt32) (pending : Option (List UInt64))
    (pendingCount : Nat) : List UInt64 → Option (List (SearchResult UInt32))
  | [] => some []
  | byteOffset :: rest =>
      match storageFetchByOffset data storage byteOffset Record.blank dimension with
      | .error _ =>
          annCandidates ops data storage dimension metric query pending pendingCount rest
      | .ok record =>
          if record.isDeleted || isPendingDelete record.id pending pendingCount then
            annCandidates ops data storage dimension metric query pending pendingCount rest
          else
            match readVector data storage dimension record.vector with
            | none => none
            | some vector =>
                (annCandidates ops data storage dimension metric query pending pendingCount
                  rest).map fun candidates =>
                    { id := record.id
                      metadata := record.metadata
                      calculatedDistance := ops.calculate metric dimension vector.val query } ::
                    candidates

/-- One candidate after the other. -/
def offerEach (topK : UInt64) (candidates results : List (SearchResult δ)) :
    Option (List (SearchResult δ)) :=
  candidates.foldlM (fun results candidate =>
    offerResult distances topK results candidate.id candidate.metadata
      candidate.calculatedDistance) results

end Candidates

section Loops

variable {δ : Type} {distances : Distances δ} {topK : UInt64} {data : List UInt8}
  {storage : Storage} {dimension : UInt64} {metric : MetricType} {query : List UInt32}
  {pending : Option (List UInt64)} {pendingCount : Nat}

theorem offerEach_cons (candidate : SearchResult δ) (rest results : List (SearchResult δ)) :
    offerEach distances topK (candidate :: rest) results =
      (offerResult distances topK results candidate.id candidate.metadata
        candidate.calculatedDistance).bind fun next => offerEach distances topK rest next := rfl

/-- A search is its candidates, offered one after the other. -/
theorem flatSearchLoop_offers {records : List Record} {candidates : List (SearchResult δ)}
    (found : flatCandidates distances data storage dimension metric query pending pendingCount
      records = some candidates) (results : List (SearchResult δ)) :
    flatSearchLoop distances data storage dimension metric query topK pending pendingCount records
      results = offerEach distances topK candidates results := by
  induction records generalizing candidates results with
  | nil =>
      cases found
      rfl
  | cons record rest ih =>
      rw [flatCandidates] at found
      rw [flatSearchLoop]
      by_cases skipped : (record.isDeleted ||
          isPendingDelete record.id pending pendingCount) = true
      · rw [if_pos skipped] at found ⊢
        exact ih found results
      · rw [if_neg skipped] at found ⊢
        cases followed : readVector data storage dimension record.vector with
        | none =>
            rw [followed] at found
            cases found
        | some vector =>
            rw [followed] at found
            obtain ⟨others, foundRest, rfl⟩ := Option.map_eq_some_iff.mp found
            rw [offerEach_cons]
            dsimp only
            cases offerResult distances topK results record.id record.metadata
                (distances.calculate metric dimension vector.val query) with
            | none => rfl
            | some next => exact ih foundRest next

/-- A search that ends has followed all its vectors. -/
theorem flatCandidates_of_searched {records : List Record} {results after : List (SearchResult δ)}
    (searched : flatSearchLoop distances data storage dimension metric query topK pending
      pendingCount records results = some after) :
    ∃ candidates, flatCandidates distances data storage dimension metric query pending
      pendingCount records = some candidates := by
  induction records generalizing results with
  | nil => exact ⟨[], rfl⟩
  | cons record rest ih =>
      rw [flatSearchLoop] at searched
      rw [flatCandidates]
      by_cases skipped : (record.isDeleted ||
          isPendingDelete record.id pending pendingCount) = true
      · rw [if_pos skipped] at searched ⊢
        exact ih searched
      · rw [if_neg skipped] at searched ⊢
        cases followed : readVector data storage dimension record.vector with
        | none =>
            rw [followed] at searched
            cases searched
        | some vector =>
            rw [followed] at searched
            dsimp only at searched ⊢
            split at searched
            · cases searched
            · obtain ⟨others, foundRest⟩ := ih searched
              rw [foundRest]
              exact ⟨_, rfl⟩

theorem flatCandidates_length {records : List Record} {candidates : List (SearchResult δ)}
    (found : flatCandidates distances data storage dimension metric query pending pendingCount
      records = some candidates) : candidates.length ≤ records.length := by
  induction records generalizing candidates with
  | nil =>
      cases found
      exact Nat.le_refl 0
  | cons record rest ih =>
      rw [flatCandidates] at found
      split at found
      · exact Nat.le_succ_of_le (ih found)
      · split at found
        · cases found
        · obtain ⟨others, foundRest, rfl⟩ := Option.map_eq_some_iff.mp found
          exact Nat.succ_le_succ (ih foundRest)

end Loops

/-- The array of an accepted request is neither empty nor beyond an `int`. -/
theorem topK_of_accepted {db : FlatDb} {req : SearchReq} (accepted : searchRefusal db req = none) :
    UInt64.ofNat req.topK.toNat ≠ 0 ∧ (UInt64.ofNat req.topK.toNat).toNat ≤ 2 ^ 31 := by
  unfold searchRefusal at accepted
  split at accepted
  · cases accepted
  · split at accepted
    · cases accepted
    · rename_i notOutside
      obtain ⟨notZero, notBeyond⟩ := not_or.mp notOutside
      have bound : req.topK.toNat ≤ 10000 := UInt32.le_iff_toNat_le.mp (UInt32.not_lt.mp notBeyond)
      have back : (UInt64.ofNat req.topK.toNat).toNat = req.topK.toNat :=
        UInt64.toNat_ofNat_of_lt' (Nat.lt_of_le_of_lt bound (by decide))
      refine ⟨?_, by omega⟩
      intro zero
      apply notZero
      apply UInt32.toNat_inj.mp
      rw [← back, zero]
      rfl

/-! ### An array with room -/

section Room

variable {δ : Type} {distances : Distances δ} {topK : UInt64}

/-- A candidate that a search can list. -/
def Distances.near (distances : Distances δ) (candidate : SearchResult δ) : Bool :=
  distances.less candidate.calculatedDistance distances.fltMax

/-- Where the array has an empty place, a near candidate takes it. -/
theorem offerResult_into_empty {filled : List (SearchResult δ)} {left : Nat}
    (sizeEq : topK.toNat = filled.length + (left + 1)) (small : topK.toNat ≤ 2 ^ 31)
    {candidate : SearchResult δ} (near : distances.near candidate = true) :
    ∃ target ≤ filled.length,
      offerResult distances topK
          (filled ++ List.replicate (left + 1) (SearchResult.empty distances)) candidate.id
          candidate.metadata candidate.calculatedDistance =
        some (filled.take target ++ candidate :: filled.drop target ++
          List.replicate left (SearchResult.empty distances)) := by
  have positive : topK ≠ 0 := by
    rintro rfl
    change 0 = _ at sizeEq
    omega
  have fullLength : (filled ++ List.replicate (left + 1) (SearchResult.empty distances)).length =
      filled.length + left + 1 := by
    rw [List.length_append, List.length_replicate]
    omega
  have lastEq : topK.toNat - 1 = filled.length + left := by omega
  have emptyAt : ∀ index, filled.length ≤ index → index ≤ filled.length + left →
      (filled ++ List.replicate (left + 1) (SearchResult.empty distances))[index]? =
        some (SearchResult.empty distances) := by
    intro index behind inside
    rw [List.getElem?_append_right behind, List.getElem?_replicate, if_pos (by omega)]
  obtain ⟨reach, -, stopped⟩ := insertIdx_spec distances candidate.calculatedDistance
    (by omega : filled.length + left ≤
      (filled ++ List.replicate (left + 1) (SearchResult.empty distances)).length)
  have enters : distances.less candidate.calculatedDistance
      (SearchResult.empty distances).calculatedDistance = true := near
  unfold offerResult
  dsimp only
  rw [asInt_lastIndex positive small, lastIndex_eq positive, lastEq,
    emptyAt _ (by omega) (Nat.le_refl _), Option.getD_some, if_pos enters,
    if_neg (Int.not_lt.mpr (Int.natCast_nonneg _)), Int.toNat_natCast]
  generalize insertIdx distances
    (filled ++ List.replicate (left + 1) (SearchResult.empty distances))
    candidate.calculatedDistance (filled.length + left) = target at reach stopped ⊢
  -- The walk passes every empty place.
  have before : target ≤ filled.length := by
    by_contra beyond
    obtain ⟨previous, rfl⟩ : ∃ previous, target = previous + 1 := ⟨target - 1, by omega⟩
    exact stopped previous _ rfl (emptyAt previous (by omega) (by omega)) near
  refine ⟨target, before, ?_⟩
  rw [shiftDown_set distances fullLength reach candidate, List.take_append_of_le_length before,
    List.drop_append_of_le_length before]
  congr 1
  have taken : (filled.take target ++ candidate :: (filled.drop target ++
      List.replicate (left + 1) (SearchResult.empty distances))) =
      (filled.take target ++ candidate :: filled.drop target ++
        List.replicate left (SearchResult.empty distances)) ++ [SearchResult.empty distances] := by
    rw [List.replicate_succ']
    simp only [List.append_assoc, List.cons_append]
  have size : (filled.take target ++ candidate :: filled.drop target ++
      List.replicate left (SearchResult.empty distances)).length = filled.length + left + 1 := by
    simp only [List.length_append, List.length_cons, List.length_take, List.length_drop,
      List.length_replicate]
    omega
  rw [taken, ← size, List.take_left]

/-- With a place for each, the near candidates are all in the array, and each once. -/
theorem offerEach_keeps {filled candidates : List (SearchResult δ)} {empties : Nat}
    (sizeEq : topK.toNat = filled.length + empties) (small : topK.toNat ≤ 2 ^ 31)
    (room : candidates.length ≤ empties) :
    ∃ after left, offerEach distances topK candidates
        (filled ++ List.replicate empties (SearchResult.empty distances)) =
          some (after ++ List.replicate left (SearchResult.empty distances)) ∧
      after.Perm (filled ++ candidates.filter distances.near) := by
  induction candidates generalizing filled empties with
  | nil =>
      refine ⟨filled, empties, rfl, ?_⟩
      rw [List.filter_nil, List.append_nil]
  | cons candidate rest ih =>
      obtain ⟨left, rfl⟩ : ∃ left, empties = left + 1 := by
        rw [List.length_cons] at room
        exact ⟨empties - 1, by omega⟩
      have roomRest : rest.length ≤ left := Nat.le_of_succ_le_succ room
      rw [offerEach_cons]
      cases near : distances.near candidate with
      | true =>
          obtain ⟨target, before, offered⟩ := offerResult_into_empty sizeEq small near
          have inserted : (filled.take target ++ candidate :: filled.drop target).Perm
              (candidate :: filled) := by
            apply List.perm_middle.trans
            rw [List.take_append_drop]
          have nextSize : topK.toNat =
              (filled.take target ++ candidate :: filled.drop target).length + left := by
            rw [inserted.length_eq, List.length_cons]
            omega
          obtain ⟨after, remaining, ran, same⟩ := ih nextSize roomRest
          rw [offered, Option.bind_some]
          refine ⟨after, remaining, ran, same.trans ?_⟩
          rw [List.filter_cons_of_pos near]
          apply (inserted.append_right _).trans
          exact List.perm_middle.symm
      | false =>
          obtain ⟨after, remaining, ran, same⟩ :=
            ih sizeEq (Nat.le_succ_of_le roomRest)
          have positive : topK ≠ 0 := by
            rintro rfl
            change 0 = _ at sizeEq
            omega
          have worst : (filled ++ List.replicate (left + 1) (SearchResult.empty distances))[
              (topK - 1).toNat]? = some (SearchResult.empty distances) := by
            rw [lastIndex_eq positive, List.getElem?_append_right (by omega),
              List.getElem?_replicate, if_pos (by omega)]
          have offered : offerResult distances topK
              (filled ++ List.replicate (left + 1) (SearchResult.empty distances)) candidate.id
              candidate.metadata candidate.calculatedDistance =
                some (filled ++ List.replicate (left + 1) (SearchResult.empty distances)) := by
            unfold offerResult
            dsimp only
            rw [worst, Option.getD_some]
            exact if_neg (Bool.eq_false_iff.mp near)
          rw [offered, Option.bind_some]
          refine ⟨after, remaining, ran, ?_⟩
          rw [List.filter_cons_of_neg (Bool.eq_false_iff.mp near)]
          exact same

/-- A search with a place for every record lists exactly the near candidates, whatever the
comparison. -/
theorem flatSearch_lists_all {data : List UInt8} {db : FlatDb} {query : List UInt32}
    {found : List (SearchResult δ)} (positive : topK ≠ 0) (small : topK.toNat ≤ 2 ^ 31)
    (room : db.records.length ≤ topK.toNat)
    (searched : flatSearch distances data db query topK = some (0, found)) :
    ∃ candidates listed left,
      flatCandidates distances data db.storage db.dimension db.calculateDistance query
        db.pendingDeletes db.pendingCount db.records = some candidates ∧
      found = listed ++ List.replicate left (SearchResult.empty distances) ∧
      listed.Perm (candidates.filter distances.near) := by
  unfold flatSearch at searched
  rw [if_neg positive] at searched
  obtain ⟨results, ran, pairEq⟩ := Option.map_eq_some_iff.mp searched
  cases pairEq
  obtain ⟨candidates, offered⟩ := flatCandidates_of_searched ran
  have enough := (flatCandidates_length offered).trans room
  have sizeEq : topK.toNat = ([] : List (SearchResult δ)).length + topK.toNat :=
    (Nat.zero_add _).symm
  obtain ⟨listed, left, listing, same⟩ := offerEach_keeps sizeEq small enough
  rw [flatSearchLoop_offers offered] at ran
  rw [List.nil_append] at listing same
  rw [listing] at ran
  exact ⟨candidates, listed, left, offered, (Option.some.inj ran).symm, same⟩

end Room

end OriginDb
