/-
The result array of the two searches.

`flat_search` and `db_ann_search` each have a copy of one bounded insertion sort.
Where the comparison of the distances that occur is that of a linear order, it
keeps the `top_k` best candidates: offering a candidate is placing it and cutting
the array off at `top_k`.
-/

import OriginDb.AnnSearch
import OriginDb.Foundation.TopK

namespace OriginDb

open Foundation

section Array

variable {δ : Type} (distances : Distances δ)

/-! ### The loops over the array -/

/-- What the `while` loop finds: the candidate is closer than everything from
the target on, and not closer than what stands before it. -/
theorem insertIdx_spec {results : List (SearchResult δ)} (dis : δ) {start : Nat}
    (inside : start ≤ results.length) :
    insertIdx distances results dis start ≤ start ∧
      (∀ position result, insertIdx distances results dis start ≤ position → position < start →
        results[position]? = some result →
        distances.less dis result.calculatedDistance = true) ∧
      (∀ before result, insertIdx distances results dis start = before + 1 →
        results[before]? = some result →
        ¬distances.less dis result.calculatedDistance = true) := by
  induction start with
  | zero =>
      refine ⟨Nat.le_refl 0, ?_, ?_⟩
      · intro position result _ impossible
        omega
      · intro before result impossible
        cases impossible
  | succ index ih =>
      obtain ⟨low, closer, notCloser⟩ := ih (by omega)
      have found : results[index]? = some results[index] := List.getElem?_eq_getElem inside
      rw [insertIdx, found]
      dsimp only
      by_cases passes : distances.less dis results[index].calculatedDistance = true
      · rw [if_pos passes]
        refine ⟨by omega, ?_, notCloser⟩
        intro position result above below at_position
        by_cases last : position = index
        · subst last
          cases Option.some.inj (found.symm.trans at_position)
          exact passes
        · exact closer position result above (by omega) at_position
      · rw [if_neg passes]
        refine ⟨Nat.le_refl _, ?_, ?_⟩
        · intro position result above below
          omega
        · intro before result same at_before
          cases Nat.succ.inj same
          cases Option.some.inj (found.symm.trans at_before)
          exact passes

/-- Away from the target the `for` loop only moves results. -/
theorem shiftDown_getElem? (target : Nat) {start : Nat} {results : List (SearchResult δ)}
    (inside : start < results.length) (position : Nat) (elsewhere : position ≠ target) :
    (shiftDown distances target start results)[position]? =
      if target < position ∧ position ≤ start then results[position - 1]?
      else results[position]? := by
  induction start generalizing results with
  | zero => rw [shiftDown, if_neg (by omega)]
  | succ index ih =>
      rw [shiftDown]
      by_cases moves : target < index + 1
      · rw [if_pos moves]
        have found : results[index]? = some results[index] :=
          List.getElem?_eq_getElem (by omega)
        let filled := results.set (index + 1)
          ((results[index]?).getD (SearchResult.empty distances))
        let moved := filled.modify index fun result => { result with metadata := none }
        have untouched : ∀ other, other ≠ index → other ≠ index + 1 →
            moved[other]? = results[other]? := by
          intro other notIndex notNext
          have movedEq := List.getElem?_modify
            (fun result : SearchResult δ => { result with metadata := none }) index filled other
          rw [movedEq, List.getElem?_set_ne (Ne.symm notNext)]
          simp only [if_neg (Ne.symm notIndex), Option.map_eq_map, Option.map_id']
        have filledIn : moved[index + 1]? = results[index]? := by
          have movedEq := List.getElem?_modify
            (fun result : SearchResult δ => { result with metadata := none }) index filled
            (index + 1)
          rw [movedEq, List.getElem?_set_self inside, found]
          simp
        have lengthEq : moved.length = results.length := by
          rw [List.length_modify, List.length_set]
        have shifted := @ih moved (by omega)
        rw [shifted]
        by_cases last : position = index + 1
        · subst last
          rw [if_neg (by omega), if_pos ⟨moves, Nat.le_refl _⟩, filledIn, Nat.add_sub_cancel]
        · by_cases between : target < position ∧ position ≤ index
          · rw [if_pos between, if_pos (by omega), untouched _ (by omega) (by omega)]
          · rw [if_neg between, if_neg (by omega), untouched _ (by omega) last]
      · rw [if_neg moves, if_neg (by omega)]

theorem shiftDown_length (target start : Nat) (results : List (SearchResult δ)) :
    (shiftDown distances target start results).length = results.length := by
  induction start generalizing results with
  | zero => rfl
  | succ index ih =>
      rw [shiftDown]
      split
      · rw [ih, List.length_modify, List.length_set]
      · rfl

/-- The loops and the store put the candidate at the target and drop the last
result. -/
theorem shiftDown_set {target start : Nat} {results : List (SearchResult δ)}
    (full : results.length = start + 1) (inside : target ≤ start) (candidate : SearchResult δ) :
    (shiftDown distances target start results).set target candidate =
      (results.take target ++ candidate :: results.drop target).take (start + 1) :=
  TopK.set_eq_insert full (shiftDown_length distances target start results) inside
    (shiftDown_getElem? distances target (by omega)) candidate

/-- Whatever the comparison, a candidate that enters drops the last result. -/
theorem offerResult_inserts {topK : UInt64} {front : List (SearchResult δ)}
    {worst : SearchResult δ} (sizeEq : topK.toNat = front.length + 1)
    (small : topK.toNat ≤ 2 ^ 31) (candidate : SearchResult δ) :
    offerResult distances topK (front ++ [worst]) candidate.id candidate.metadata
        candidate.calculatedDistance = some (front ++ [worst]) ∨
      ∃ target ≤ front.length,
        offerResult distances topK (front ++ [worst]) candidate.id candidate.metadata
            candidate.calculatedDistance =
          some (front.take target ++ candidate :: front.drop target) := by
  have positive : topK ≠ 0 := by
    rintro rfl
    cases sizeEq
  have fullLength : (front ++ [worst]).length = front.length + 1 := by
    rw [List.length_append, List.length_singleton]
  have lastEq : topK.toNat - 1 = front.length := by omega
  unfold offerResult
  dsimp only
  rw [asInt_lastIndex positive small, Int.toNat_natCast, lastEq]
  split
  · rw [if_neg (by omega)]
    obtain ⟨inside, -, -⟩ := insertIdx_spec distances candidate.calculatedDistance
      (by omega : front.length ≤ (front ++ [worst]).length)
    refine Or.inr ⟨_, inside, ?_⟩
    rw [shiftDown_set distances fullLength inside candidate, TopK.insert_drop_last inside]
  · exact Or.inl rfl

/-! ### One candidate -/

variable {α : Type} [LinearOrder α]

/-- On the distances that occur, the comparison is that of a linear order. -/
def Compares (occurs : δ → Prop) (value : δ → α) : Prop :=
  ∀ first second, occurs first → occurs second →
    (distances.less first second = true ↔ value first < value second)

def SearchResult.key (value : δ → α) (result : SearchResult δ) : α :=
  value result.calculatedDistance

variable {distances} {occurs : δ → Prop} {value : δ → α} {topK : UInt64}

theorem offerResult_eq (compares : Compares distances occurs value) (positive : topK ≠ 0)
    (small : topK.toNat ≤ 2 ^ 31) {results : List (SearchResult δ)}
    (full : results.length = topK.toNat)
    (sorted : TopK.Sorted (SearchResult.key value) results)
    (occurring : ∀ result ∈ results, occurs result.calculatedDistance)
    (candidate : SearchResult δ) (occursHere : occurs candidate.calculatedDistance) :
    offerResult distances topK results candidate.id candidate.metadata
        candidate.calculatedDistance =
      some (TopK.offer (SearchResult.key value) topK.toNat candidate results) := by
  have nonzero : topK.toNat ≠ 0 := fun zero => positive (UInt64.toNat_inj.mp zero)
  have closer : ∀ result ∈ results,
      distances.less candidate.calculatedDistance result.calculatedDistance = true ↔
        SearchResult.key value candidate < SearchResult.key value result :=
    fun result member => compares _ _ occursHere (occurring result member)
  have lastInside : topK.toNat - 1 < results.length := by omega
  have lastFound : (results[(topK - 1).toNat]?).getD (SearchResult.empty distances) =
      results[topK.toNat - 1] := by
    rw [lastIndex_eq positive, List.getElem?_eq_getElem lastInside, Option.getD_some]
  unfold offerResult
  dsimp only
  rw [lastFound, asInt_lastIndex positive small, Int.toNat_natCast]
  by_cases enters : distances.less candidate.calculatedDistance
      results[topK.toNat - 1].calculatedDistance = true
  · rw [if_pos enters, if_neg (by omega)]
    obtain ⟨inside, passed, stopped⟩ := insertIdx_spec distances candidate.calculatedDistance
      (Nat.le_of_lt lastInside)
    generalize insertIdx distances results candidate.calculatedDistance (topK.toNat - 1) = target
      at inside passed stopped ⊢
    have placed : TopK.place (SearchResult.key value) candidate results =
        results.take target ++ candidate :: results.drop target := by
      apply TopK.place_at _ sorted
      · intro before other targetEq found
        rw [← closer other (List.mem_of_getElem? found)]
        exact stopped before other targetEq found
      · omega
      · intro other found
        rw [← closer other (List.mem_of_getElem? found)]
        rcases Nat.eq_or_lt_of_le inside with last | earlier
        · rw [last, List.getElem?_eq_getElem lastInside] at found
          cases Option.some.inj found
          exact enters
        · exact passed target other (Nat.le_refl _) earlier found
    rw [shiftDown_set distances (by omega) inside candidate, TopK.offer, placed,
      Nat.sub_add_cancel (by omega)]
  · have lastEq : results.getLast? = some results[topK.toNat - 1] := by
      rw [List.getLast?_eq_getElem?, full, List.getElem?_eq_getElem lastInside]
    rw [closer _ (List.getElem_mem lastInside)] at enters
    rw [if_neg (by rw [closer _ (List.getElem_mem lastInside)]; exact enters),
      TopK.offer_of_last _ sorted full lastEq enters]

/-! ### One search -/

variable {dimension : UInt64} (distances) (metric : MetricType) (query : List UInt32)

/-- The result that a search makes of a record. -/
def StoredRecord.asResult (stored : StoredRecord dimension) : SearchResult δ where
  id := stored.id
  metadata := stored.metadata
  calculatedDistance := distances.calculate metric dimension stored.vector query

/-- What a search offers to its array: the records whose ids are not queued. -/
def searchCandidates (pending : Option (List UInt64)) (pendingCount : Nat)
    (stored : List (StoredRecord dimension)) : List (SearchResult δ) :=
  (stored.filter fun record => !isPendingDelete record.id pending pendingCount).map
    (StoredRecord.asResult distances metric query)

variable {distances metric query} {pending : Option (List UInt64)} {pendingCount : Nat}

theorem searchStored_of_offered {first : StoredRecord dimension}
    {rest : List (StoredRecord dimension)} {results next : List (SearchResult δ)}
    (kept : isPendingDelete first.id pending pendingCount = false)
    (offered : offerResult distances topK results first.id first.metadata
      (distances.calculate metric dimension first.vector query) = some next) :
    searchStored distances metric query topK pending pendingCount (first :: rest) results =
      searchStored distances metric query topK pending pendingCount rest next := by
  rw [searchStored, kept, if_neg Bool.false_ne_true, offered]

theorem searchStored_eq (compares : Compares distances occurs value) (positive : topK ≠ 0)
    (small : topK.toNat ≤ 2 ^ 31) {stored : List (StoredRecord dimension)}
    (occursAll : ∀ record ∈ stored,
      occurs (distances.calculate metric dimension record.vector query))
    {results : List (SearchResult δ)} (full : results.length = topK.toNat)
    (sorted : TopK.Sorted (SearchResult.key value) results)
    (occurring : ∀ result ∈ results, occurs result.calculatedDistance) :
    searchStored distances metric query topK pending pendingCount stored results =
      some (TopK.offerAll (SearchResult.key value) topK.toNat
        (searchCandidates distances metric query pending pendingCount stored) results) := by
  induction stored generalizing results with
  | nil => rfl
  | cons first rest ih =>
      have occursFirst := occursAll first (List.mem_cons_self ..)
      have occursRest := fun record member => occursAll record (List.mem_cons_of_mem first member)
      cases queued : isPendingDelete first.id pending pendingCount with
      | true =>
          have skipped : searchCandidates distances metric query pending pendingCount
              (first :: rest) =
                searchCandidates distances metric query pending pendingCount rest := by
            unfold searchCandidates
            rw [List.filter_cons_of_neg (by simp [queued])]
          rw [searchStored, if_pos queued, skipped]
          exact ih occursRest full sorted occurring
      | false =>
          have offeredFirst : searchCandidates distances metric query pending pendingCount
              (first :: rest) =
                first.asResult distances metric query ::
                  searchCandidates distances metric query pending pendingCount rest := by
            unfold searchCandidates
            rw [List.filter_cons_of_pos (by simp [queued]), List.map_cons]
          have offered := offerResult_eq compares positive small full sorted occurring
            (first.asResult distances metric query) occursFirst
          have occurringNext : ∀ result ∈ TopK.offer (SearchResult.key value) topK.toNat
              (first.asResult distances metric query) results,
              occurs result.calculatedDistance := by
            intro result member
            rcases TopK.mem_of_mem_offer _ member with rfl | earlier
            · exact occursFirst
            · exact occurring result earlier
          have later := ih occursRest (TopK.offer_length _ _ full) (TopK.offer_sorted _ _ _ sorted)
            occurringNext
          rw [searchStored_of_offered queued offered, offeredFirst]
          exact later

/-- A slot of the array that holds a record. -/
def SearchResult.filled (distances : Distances δ) (result : SearchResult δ) : Bool :=
  distances.less result.calculatedDistance distances.fltMax

/-- Two answers to one query have the same distances and fill the same number
of slots, and the records closer than any slot of the first are the same. -/
structure SameAnswer (distances : Distances δ) (value : δ → α)
    (first second : List (SearchResult δ)) : Prop where
  sameDistances : first.map (SearchResult.key value) = second.map (SearchResult.key value)
  sameFilled : first.countP (SearchResult.filled distances) =
    second.countP (SearchResult.filled distances)
  sameCloser : ∀ last ∈ first,
    let isCloser := fun result : SearchResult δ =>
      distances.less result.calculatedDistance last.calculatedDistance
    ((first.filter isCloser).map fun result => (result.id, result.metadata)).Perm
      ((second.filter isCloser).map fun result => (result.id, result.metadata))

theorem emptyResults_sorted (k : Nat) :
    TopK.Sorted (SearchResult.key value) (List.replicate k (SearchResult.empty distances)) :=
  List.pairwise_replicate.mpr (Or.inr (le_refl _))

theorem Compares.less_eq (compares : Compares distances occurs value) {result : SearchResult δ}
    {bound : δ} (occursHere : occurs result.calculatedDistance) (occursBound : occurs bound) :
    distances.less result.calculatedDistance bound =
      decide (SearchResult.key value result < value bound) := by
  rw [Bool.eq_iff_iff, decide_eq_true_iff]
  exact compares _ _ occursHere occursBound

theorem countP_filled (compares : Compares distances occurs value)
    (occursMax : occurs distances.fltMax) {results : List (SearchResult δ)}
    (occurring : ∀ result ∈ results, occurs result.calculatedDistance) :
    results.countP (SearchResult.filled distances) =
      (results.map (SearchResult.key value)).countP fun key => key < value distances.fltMax := by
  rw [List.countP_map]
  apply List.countP_congr
  intro result member
  unfold SearchResult.filled
  rw [compares.less_eq (occurring result member) occursMax, Function.comp_apply]

theorem filter_closer (compares : Compares distances occurs value) {bound : δ}
    (occursBound : occurs bound) {results : List (SearchResult δ)}
    (occurring : ∀ result ∈ results, occurs result.calculatedDistance) :
    results.filter (fun result => distances.less result.calculatedDistance bound) =
      results.filter fun result => SearchResult.key value result < value bound :=
  List.filter_congr fun result member =>
    compares.less_eq (occurring result member) occursBound

/-- The order in which the records come does not matter. -/
theorem searchStored_agree (compares : Compares distances occurs value) (positive : topK ≠ 0)
    (small : topK.toNat ≤ 2 ^ 31) {first second : List (StoredRecord dimension)}
    (same : first.Perm second)
    (occursAll : ∀ record ∈ first,
      occurs (distances.calculate metric dimension record.vector query))
    (occursMax : occurs distances.fltMax) :
    ∃ one other,
      searchStored distances metric query topK pending pendingCount first
          (List.replicate topK.toNat (SearchResult.empty distances)) = some one ∧
        searchStored distances metric query topK pending pendingCount second
            (List.replicate topK.toNat (SearchResult.empty distances)) = some other ∧
          SameAnswer distances value one other := by
  let k := topK.toNat
  let empty := List.replicate k (SearchResult.empty distances)
  let offeredFirst := searchCandidates distances metric query pending pendingCount first
  let offeredSecond := searchCandidates distances metric query pending pendingCount second
  have full : empty.length = k := List.length_replicate
  have sorted : TopK.Sorted (SearchResult.key value) empty := emptyResults_sorted k
  have occurring : ∀ result ∈ empty, occurs result.calculatedDistance := by
    intro result member
    rw [List.eq_of_mem_replicate member]
    exact occursMax
  have sameOffered : offeredFirst.Perm offeredSecond := (same.filter _).map _
  have occursOffered : ∀ result ∈ offeredFirst, occurs result.calculatedDistance := by
    intro result member
    obtain ⟨record, kept, rfl⟩ := List.mem_map.mp member
    exact occursAll record (List.mem_of_mem_filter kept)
  have occursSecond : ∀ record ∈ second,
      occurs (distances.calculate metric dimension record.vector query) :=
    fun record member => occursAll record (same.mem_iff.mpr member)
  have occursOne : ∀ result ∈ TopK.offerAll (SearchResult.key value) k offeredFirst empty,
      occurs result.calculatedDistance := by
    intro result member
    rcases TopK.mem_of_mem_offerAll _ member with offered | initial
    · exact occursOffered result offered
    · exact occurring result initial
  have occursOther : ∀ result ∈ TopK.offerAll (SearchResult.key value) k offeredSecond empty,
      occurs result.calculatedDistance := by
    intro result member
    rcases TopK.mem_of_mem_offerAll _ member with offered | initial
    · exact occursOffered result (sameOffered.mem_iff.mpr offered)
    · exact occurring result initial
  have sameKeys := TopK.offerAll_keys_eq sameOffered sorted full
  refine ⟨_, _, searchStored_eq compares positive small occursAll full sorted occurring,
    searchStored_eq compares positive small occursSecond full sorted occurring, sameKeys, ?_, ?_⟩
  · rw [countP_filled compares occursMax occursOne, countP_filled compares occursMax occursOther]
    exact congrArg _ sameKeys
  · intro last lastMember isCloser
    have occursLast := occursOne last lastMember
    have below := TopK.offerAll_below_perm sameOffered sorted full lastMember
      (le_refl (SearchResult.key value last))
    rw [filter_closer compares occursLast occursOne, filter_closer compares occursLast occursOther]
    exact below.map _

end Array

end OriginDb
