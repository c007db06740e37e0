/-
Who frees the metadata of a search.

The result array points at copies that `strdup` makes.  When results move down,
the one that falls off the end is freed first; but a candidate that enters at
the last place is stored over what stands there, and that copy is freed by
nobody.  The searches are written here once more with their pointers and a heap:
they compute what they compute on values, free nothing twice, read nothing that
is freed, and leave behind exactly the copies that were stored over.

A failing `malloc` or `strdup` is not modelled.
-/

import OriginDb.Foundation.Heap
import OriginDb.Responses
import OriginDb.SearchCandidates

namespace OriginDb

open Foundation

/-- `SearchResult_t` with its pointer. -/
structure OwnedResult (δ : Type) where
  id : UInt64
  metadata : Option Nat
  calculatedDistance : δ
deriving DecidableEq

section Owned

variable {δ : Type} (distances : Distances δ)

namespace OwnedResult

def empty : OwnedResult δ where
  id := 0
  metadata := none
  calculatedDistance := distances.fltMax

/-- What a reader of the pointer sees. -/
def view (heap : Heap CString) (result : OwnedResult δ) : SearchResult δ where
  id := result.id
  metadata := result.metadata.bind heap.read
  calculatedDistance := result.calculatedDistance

end OwnedResult

/-- The copies that the array points at. -/
def heldBy (results : List (OwnedResult δ)) : List Nat := results.filterMap OwnedResult.metadata

/-- The `for` loop that moves the results down, with its `free`. -/
def shiftOwned (target : Nat) :
    Nat → Heap CString → List (OwnedResult δ) → Option (Heap CString × List (OwnedResult δ))
  | 0, heap, results => some (heap, results)
  | index + 1, heap, results =>
      if target < index + 1 then
        match heap.release ((results[index + 1]?).bind OwnedResult.metadata) with
        | none => none
        | some next =>
            let moved := results.set (index + 1)
              ((results[index]?).getD (OwnedResult.empty distances))
            shiftOwned target index next
              (moved.modify index fun result => { result with metadata := none })
      else some (heap, results)

/-- One candidate; the `while` loop looks at distances only. -/
def offerOwned (topK : UInt64) (heap : Heap CString) (results : List (OwnedResult δ))
    (id : UInt64) (metadata : Option CString) (dis : δ) :
    Option (Heap CString × List (OwnedResult δ)) :=
  let worst := (results[(topK - 1).toNat]?).getD (OwnedResult.empty distances)
  if distances.less dis worst.calculatedDistance then
    let start := asInt (topK - 1).toNat
    if start < 0 then none
    else
      let target := insertIdx distances (results.map (OwnedResult.view heap)) dis start.toNat
      match shiftOwned distances target start.toNat heap results with
      | none => none
      | some (shiftedHeap, shifted) =>
          let (next, copied) := shiftedHeap.copy metadata
          some (next, shifted.set target
            { id := id, metadata := copied, calculatedDistance := dis })
  else some (heap, results)

/-- `flat_search` with its copies. -/
def flatSearchOwned (data : List UInt8) (storage : Storage) (dimension : UInt64)
    (metric : MetricType) (query : List UInt32) (topK : UInt64)
    (pending : Option (List UInt64)) (pendingCount : Nat) :
    List Record → Heap CString → List (OwnedResult δ) →
      Option (Heap CString × List (OwnedResult δ))
  | [], heap, results => some (heap, results)
  | record :: rest, heap, results =>
      if record.isDeleted || isPendingDelete record.id pending pendingCount then
        flatSearchOwned data storage dimension metric query topK pending pendingCount rest heap
          results
      else
        match readVector data storage dimension record.vector with
        | none => none
        | some vector =>
            match offerOwned distances topK heap results record.id record.metadata
              (distances.calculate metric dimension vector.val query) with
            | none => none
            | some (next, offered) =>
                flatSearchOwned data storage dimension metric query topK pending pendingCount
                  rest next offered

end Owned

/-- The loop of `db_ann_search`: `storage_fetch_by_offset` makes a copy of its own, which is
freed on every path. -/
def annSearchOwned (ops : FloatOps) (data : List UInt8) (storage : Storage) (dimension : UInt64)
    (metric : MetricType) (query : List UInt32) (topK : UInt64)
    (pending : Option (List UInt64)) (pendingCount : Nat) :
    List UInt64 → Heap CString → List (OwnedResult UInt32) →
      Option (Heap CString × List (OwnedResult UInt32))
  | [], heap, results => some (heap, results)
  | byteOffset :: rest, heap, results =>
      match storageFetchByOffset data storage byteOffset Record.blank dimension with
      | .error _ =>
          annSearchOwned ops data storage dimension metric query topK pending pendingCount rest
            heap results
      | .ok record =>
          let (fetched, temp) := heap.copy record.metadata
          if record.isDeleted || isPendingDelete record.id pending pendingCount then
            match fetched.release temp with
            | none => none
            | some next =>
                annSearchOwned ops data storage dimension metric query topK pending pendingCount
                  rest next results
          else
            match readVector data storage dimension record.vector with
            | none => none
            | some vector =>
                match fetched.follow temp with
                | none => none
                | some metadata =>
                    match offerOwned ops.toDistances topK fetched results record.id metadata
                      (ops.calculate metric dimension vector.val query) with
                    | none => none
                    | some (offeredHeap, offered) =>
                        match offeredHeap.release temp with
                        | none => none
                        | some next =>
                            annSearchOwned ops data storage dimension metric query topK pending
                              pendingCount rest next offered

/-- The array as `serialize_search_results` reads it. -/
def readResults {δ : Type} (heap : Heap CString) :
    List (OwnedResult δ) → Option (List (SearchResult δ))
  | [] => some []
  | result :: rest =>
      match heap.follow result.metadata, readResults heap rest with
      | some metadata, some values =>
          some ({ id := result.id
                  metadata := metadata
                  calculatedDistance := result.calculatedDistance } :: values)
      | _, _ => none

/-- The search of the handler, behind its checks: the array with its copies, or the error. -/
def searchFoundOwned {δ ν : Type} [DecidableEq δ] (env : ServerEnv δ ν) (data : List UInt8)
    (ivfIndex : Option (List UInt8)) (table : OpenTable) (req : SearchReq) (heap : Heap CString) :
    Option (Heap CString × Except Response (List (OwnedResult UInt32))) :=
  let topK := UInt64.ofNat req.topK.toNat
  let cleared := List.replicate topK.toNat (OwnedResult.empty env.floats.toDistances)
  if req.useAnn then
    match loadIndexOnDemand ivfIndex table with
    | none => none
    | some loaded =>
        match loaded.ivfIndex with
        | none =>
            some (heap,
              .error (.error .invalidParameter "Index not trained. Call /train or use ENN."))
        | some clusters =>
            match ivfSearch env.floats clusters req.queryVector (UInt64.ofNat req.nprobe.toNat)
                loaded.ivfK loaded.db.dimension loaded.db.calculateDistance with
            | none => none
            | some fetched =>
                (annSearchOwned env.floats data loaded.db.storage loaded.db.dimension
                  loaded.db.calculateDistance req.queryVector topK loaded.db.pendingDeletes
                  loaded.db.pendingCount fetched heap cleared).map
                    fun (next, results) => (next, .ok results)
  else if topK = 0 then some (heap, .ok [])
  else
    (flatSearchOwned env.floats.toDistances data table.db.storage table.db.dimension
      table.db.calculateDistance req.queryVector topK table.db.pendingDeletes
      table.db.pendingCount table.db.records heap cleared).map
        fun (next, results) => (next, .ok results)

/-- The handler of `/search` under the table's lock, up to the end of `search_cleanup`. -/
def searchAnswerOwned {δ ν : Type} [DecidableEq δ] (env : ServerEnv δ ν) (texts : NumberTexts)
    (io : AnswerIO) (data : List UInt8) (ivfIndex : Option (List UInt8)) (table : OpenTable)
    (req : SearchReq) (heap : Heap CString) : Option (Heap CString × Answer) :=
  match searchRefusal table.db req with
  | some response => some (heap, .fixed response)
  | none =>
      if io.allocates then
        match searchFoundOwned env data ivfIndex table req heap with
        | none => none
        | some (next, .error response) => some (next, .fixed response)
        | some (searched, .ok results) =>
            match readResults searched results, searched.freeAll (heldBy results) with
            | some found, some next =>
                some (next,
                  if (serializeSearchResults texts io.prints found).isSome then .results found
                  else .fixed (.error .internalError "Failed to serialize search results."))
            | _, _ => none
      else some (heap, .fixed (.error .internalError "Out of memory allocating search results."))

/-! ### Accounting for the copies -/

section Accounting

variable {δ : Type} {distances : Distances δ} {before heap : Heap CString}
  {others lost : List Nat} {values : List (SearchResult δ)} {results : List (OwnedResult δ)}

/-- After some steps: the copies in the array, those that are lost and the blocks of the others
are live, a reader of the array sees `values`, and the others' blocks hold what they held. -/
structure Accounted (before : Heap CString) (others lost : List Nat)
    (values : List (SearchResult δ)) (heap : Heap CString) (results : List (OwnedResult δ)) :
    Prop where
  owns : heap.Owns (heldBy results ++ (lost ++ others))
  view : results.map (OwnedResult.view heap) = values
  kept : ∀ address ∈ others, heap.read address = before.read address

theorem heldBy_cons (result : OwnedResult δ) (results : List (OwnedResult δ)) :
    heldBy (result :: results) = result.metadata.toList ++ heldBy results := by
  unfold heldBy
  cases copied : result.metadata with
  | none =>
      rw [List.filterMap_cons_none copied]
      rfl
  | some address =>
      rw [List.filterMap_cons_some copied]
      rfl

theorem heldBy_append (first second : List (OwnedResult δ)) :
    heldBy (first ++ second) = heldBy first ++ heldBy second := List.filterMap_append ..

/-- A store exchanges one pointer for another. -/
theorem heldBy_set {index : Nat} (inside : index < results.length) (result : OwnedResult δ) :
    (results[index].metadata.toList ++ heldBy (results.set index result)).Perm
      (result.metadata.toList ++ heldBy results) := by
  have split : results = results.take index ++ results[index] :: results.drop (index + 1) := by
    rw [← List.drop_eq_getElem_cons inside, List.take_append_drop]
  have stored : results.set index result =
      results.take index ++ result :: results.drop (index + 1) :=
    List.set_eq_take_append_cons_drop.trans (if_pos inside)
  have held : heldBy results = heldBy (results.take index) ++
      (results[index].metadata.toList ++ heldBy (results.drop (index + 1))) := by
    conv => lhs; rw [split]
    rw [heldBy_append, heldBy_cons]
  rw [stored, held, heldBy_append, heldBy_cons]
  calc
    _ = results[index].metadata.toList ++ (heldBy (results.take index) ++
          (result.metadata.toList ++ heldBy (results.drop (index + 1)))) := rfl
    _ |>.Perm (heldBy (results.take index) ++ (results[index].metadata.toList ++
          (result.metadata.toList ++ heldBy (results.drop (index + 1))))) :=
        List.perm_append_comm_assoc ..
    _ |>.Perm (heldBy (results.take index) ++ (result.metadata.toList ++
          (results[index].metadata.toList ++ heldBy (results.drop (index + 1))))) :=
        (List.perm_append_comm_assoc ..).append_left _
    _ |>.Perm (result.metadata.toList ++ (heldBy (results.take index) ++
          (results[index].metadata.toList ++ heldBy (results.drop (index + 1))))) :=
        List.perm_append_comm_assoc ..

theorem view_congr {next : Heap CString}
    (same : ∀ address ∈ heldBy results, next.read address = heap.read address) :
    results.map (OwnedResult.view next) = results.map (OwnedResult.view heap) := by
  apply List.map_congr_left
  intro result member
  unfold OwnedResult.view
  cases copied : result.metadata with
  | none => rfl
  | some address =>
      have held : address ∈ heldBy results := List.mem_filterMap.mpr ⟨result, member, copied⟩
      rw [Option.bind_some, Option.bind_some, same address held]

/-- One round of the `for` loop frees what the next result is moved onto. -/
theorem shiftOwned_step (distances : Distances δ) {index : Nat}
    (inside : index + 1 < results.length)
    (accounted : Accounted before others lost values heap results) :
    ∃ next, heap.release ((results[index + 1]?).bind OwnedResult.metadata) = some next ∧
      Accounted before others lost
        ((values.set (index + 1) ((values[index]?).getD (SearchResult.empty distances))).modify
          index fun result => { result with metadata := none })
        next
        ((results.set (index + 1)
            ((results[index]?).getD (OwnedResult.empty distances))).modify index fun result =>
          { result with metadata := none }) := by
  have insideIndex : index < results.length := by omega
  have source : (results[index]?).getD (OwnedResult.empty distances) = results[index] := by
    rw [List.getElem?_eq_getElem insideIndex, Option.getD_some]
  let moved := results.set (index + 1) results[index]
  have insideMoved : index < moved.length := by
    rw [List.length_set]
    exact insideIndex
  have movedAt : moved[index] = results[index] := by
    rw [List.getElem_set_ne (by omega)]
  let cleared : OwnedResult δ := { results[index] with metadata := none }
  have clearedEq : (moved.modify index fun result => { result with metadata := none }) =
      moved.set index cleared := by
    rw [List.modify_eq_set_get _ insideMoved]
    change moved.set index { moved[index] with metadata := none } = _
    rw [movedAt]
  -- The freed pointer is the only one that is not in the new array.
  have held : (results[index + 1].metadata.toList ++ heldBy (moved.set index cleared)).Perm
      (heldBy results) := by
    have overwritten := heldBy_set inside results[index]
    have emptied := heldBy_set insideMoved cleared
    rw [movedAt] at emptied
    apply (List.perm_append_left_iff results[index].metadata.toList).mp
    exact (List.perm_append_comm_assoc ..).trans ((emptied.append_left _).trans overwritten)
  have owns := accounted.owns.perm (held.symm.append_right (lost ++ others))
  rw [List.append_assoc] at owns
  obtain ⟨next, released, ownsNext, kept⟩ := owns.release
  have pointer : (results[index + 1]?).bind OwnedResult.metadata = results[index + 1].metadata := by
    rw [List.getElem?_eq_getElem inside]
    rfl
  refine ⟨next, ?_, ?_⟩
  · rw [pointer]
    exact released
  · rw [source, clearedEq]
    refine ⟨ownsNext, ?_, ?_⟩
    · rw [view_congr fun address member => kept address (List.mem_append_left _ member)]
      have valuesAt : (values[index]?).getD (SearchResult.empty distances) =
          results[index].view heap := by
        rw [← accounted.view, List.getElem?_map, List.getElem?_eq_getElem insideIndex]
        rfl
      rw [valuesAt, ← accounted.view, List.map_set, List.map_set, ← List.map_set]
      have insideView : index < (moved.map (OwnedResult.view heap)).length := by
        rw [List.length_map]
        exact insideMoved
      have viewAt : (moved.map (OwnedResult.view heap)).get ⟨index, insideView⟩ =
          results[index].view heap := by
        rw [List.get_eq_getElem, List.getElem_map, movedAt]
      rw [List.modify_eq_set_get _ insideView, viewAt]
      rfl
    · intro address member
      have inRest := List.mem_append_right (heldBy (moved.set index cleared))
        (List.mem_append_right lost member)
      exact (kept address inRest).trans (accounted.kept address member)

theorem shiftOwned_accounted (distances : Distances δ) (target : Nat) {start : Nat}
    (inside : start < results.length)
    (accounted : Accounted before others lost values heap results) :
    ∃ next shifted, shiftOwned distances target start heap results = some (next, shifted) ∧
      Accounted before others lost (shiftDown distances target start values) next shifted ∧
      shifted.length = results.length ∧
      (target < start → (shifted[target]?).bind OwnedResult.metadata = none) ∧
      (start ≤ target → shifted = results) := by
  induction start generalizing heap results values with
  | zero => exact ⟨heap, results, rfl, accounted, rfl, nofun, fun _ => rfl⟩
  | succ index ih =>
      rw [shiftOwned, shiftDown]
      by_cases moves : target < index + 1
      · rw [if_pos moves, if_pos moves]
        obtain ⟨middle, released, accountedMiddle⟩ :=
          shiftOwned_step distances inside accounted
        rw [released]
        have lengthEq : ((results.set (index + 1)
            ((results[index]?).getD (OwnedResult.empty distances))).modify index fun result =>
              { result with metadata := none }).length = results.length := by
          rw [List.length_modify, List.length_set]
        obtain ⟨next, shifted, ran, accountedNext, shiftedLength, emptied, unmoved⟩ :=
          ih (by rw [lengthEq]; omega) accountedMiddle
        refine ⟨next, shifted, ran, accountedNext, shiftedLength.trans lengthEq, ?_, ?_⟩
        · intro _
          rcases Nat.lt_or_ge target index with earlier | last
          · exact emptied earlier
          · have here : target = index := by omega
            rw [unmoved last, here, List.getElem?_modify_eq]
            cases (results.set (index + 1)
                ((results[index]?).getD (OwnedResult.empty distances)))[index]? with
            | none => rfl
            | some result => rfl
        · intro beyond
          omega
      · rw [if_neg moves, if_neg moves]
        exact ⟨heap, results, rfl, accounted, rfl, fun less => (moves less).elim, fun _ => rfl⟩

/-- The copies that one candidate leaves behind: that of the last place, if it enters there. -/
def offerLeaks (distances : Distances δ) (topK : UInt64) (results : List (SearchResult δ))
    (dis : δ) : Nat :=
  let worst := (results[(topK - 1).toNat]?).getD (SearchResult.empty distances)
  if distances.less dis worst.calculatedDistance = true ∧
      insertIdx distances results dis (topK - 1).toNat = (topK - 1).toNat ∧
      worst.metadata.isSome = true then 1
  else 0

/-- A pointer of the array can be followed. -/
theorem Accounted.view_metadata (accounted : Accounted before others lost values heap results)
    {result : OwnedResult δ} (member : result ∈ results) :
    (result.view heap).metadata.isSome = result.metadata.isSome := by
  unfold OwnedResult.view
  cases copied : result.metadata with
  | none => rfl
  | some address =>
      have held : address ∈ heldBy results := List.mem_filterMap.mpr ⟨result, member, copied⟩
      exact (accounted.owns.live address).mp (List.mem_append_left _ held)

/-- The store of a candidate at its place: the pointer that stood there is lost. -/
theorem Accounted.store (accounted : Accounted before others lost values heap results)
    {target : Nat} (inside : target < results.length) (id : UInt64) (metadata : Option CString)
    (dis : δ) :
    Accounted before others (results[target].metadata.toList ++ lost)
      (values.set target { id := id, metadata := metadata, calculatedDistance := dis })
      (heap.copy metadata).1
      (results.set target
        { id := id, metadata := (heap.copy metadata).2, calculatedDistance := dis }) := by
  obtain ⟨ownsCopy, readCopy, kept⟩ := accounted.owns.copy metadata
  have exchanged := heldBy_set inside
    { id := id, metadata := (heap.copy metadata).2, calculatedDistance := dis }
  refine ⟨?_, ?_, ?_⟩
  · apply ownsCopy.perm
    rw [← List.append_assoc]
    apply (exchanged.symm.append_right _).trans
    rw [List.append_assoc, List.append_assoc]
    exact List.perm_append_comm_assoc ..
  · rw [List.map_set]
    have stored : OwnedResult.view (heap.copy metadata).1
        ({ id := id, metadata := (heap.copy metadata).2, calculatedDistance := dis } :
          OwnedResult δ) = { id := id, metadata := metadata, calculatedDistance := dis } := by
      unfold OwnedResult.view
      rw [readCopy]
    rw [stored, view_congr fun address member => kept address (List.mem_append_left _ member),
      accounted.view]
  · intro address member
    have inRest := List.mem_append_right (heldBy results) (List.mem_append_right lost member)
    exact (kept address inRest).trans (accounted.kept address member)

theorem offerOwned_accounted {topK : UInt64} (positive : topK ≠ 0) (small : topK.toNat ≤ 2 ^ 31)
    (full : results.length = topK.toNat)
    (accounted : Accounted before others lost values heap results) (id : UInt64)
    (metadata : Option CString) (dis : δ) :
    ∃ next offered more after, offerOwned distances topK heap results id metadata dis =
        some (next, offered) ∧
      offerResult distances topK values id metadata dis = some after ∧
      Accounted before others (more ++ lost) after next offered ∧
      more.length = offerLeaks distances topK values dis ∧ offered.length = topK.toNat := by
  have lastEq := lastIndex_eq positive
  have nonzero : topK.toNat ≠ 0 := fun zero => positive (UInt64.toNat_inj.mp zero)
  have lastInside : topK.toNat - 1 < results.length := by omega
  have fullValues : values.length = topK.toNat := by
    rw [← accounted.view, List.length_map]
    exact full
  have worstOwned : (results[(topK - 1).toNat]?).getD (OwnedResult.empty distances) =
      results[topK.toNat - 1] := by
    rw [lastEq, List.getElem?_eq_getElem lastInside, Option.getD_some]
  have worstValue : (values[(topK - 1).toNat]?).getD (SearchResult.empty distances) =
      results[topK.toNat - 1].view heap := by
    rw [lastEq, ← accounted.view, List.getElem?_map, List.getElem?_eq_getElem lastInside]
    rfl
  unfold offerOwned offerResult offerLeaks
  dsimp only
  rw [worstOwned, worstValue]
  have sameDistance : (results[topK.toNat - 1].view heap).calculatedDistance =
      results[topK.toNat - 1].calculatedDistance := rfl
  rw [sameDistance]
  by_cases enters : distances.less dis results[topK.toNat - 1].calculatedDistance = true
  · rw [if_pos enters, if_pos enters, asInt_lastIndex positive small, if_neg (by omega),
      if_neg (by omega), Int.toNat_natCast, accounted.view, lastEq]
    obtain ⟨reach, -, -⟩ := insertIdx_spec distances dis
      (by omega : topK.toNat - 1 ≤ values.length)
    generalize insertIdx distances values dis (topK.toNat - 1) = target at reach ⊢
    obtain ⟨middle, shifted, ran, accountedMiddle, lengthEq, emptied, unmoved⟩ :=
      shiftOwned_accounted distances target lastInside accounted
    have inside : target < shifted.length := by omega
    have stored := accountedMiddle.store inside id metadata dis
    rw [ran]
    refine ⟨_, _, shifted[target].metadata.toList, _, rfl, rfl, stored, ?_, ?_⟩
    · rcases Nat.lt_or_ge target (topK.toNat - 1) with earlier | last
      · have none := emptied earlier
        rw [List.getElem?_eq_getElem inside, Option.bind_some] at none
        rw [none, if_neg fun all => absurd all.2.1 (by omega)]
        rfl
      · have same := unmoved last
        have here : target = topK.toNat - 1 := by omega
        subst same
        subst here
        have readable := accounted.view_metadata (List.getElem_mem lastInside)
        rw [readable]
        cases shifted[topK.toNat - 1].metadata with
        | none =>
            rw [if_neg fun all => absurd all.2.2 Bool.false_ne_true]
            rfl
        | some address =>
            rw [if_pos ⟨enters, rfl, rfl⟩]
            rfl
    · rw [List.length_set, lengthEq, full]
  · rw [if_neg enters, if_neg enters, if_neg fun all => enters all.1]
    exact ⟨heap, results, [], values, rfl, rfl, accounted, rfl, full⟩

/-! ### One search -/

/-- The copies that are stored over while the candidates are offered one after the other. -/
def leaksOf (distances : Distances δ) (topK : UInt64) :
    List (SearchResult δ) → List (SearchResult δ) → Nat
  | [], _ => 0
  | candidate :: rest, values =>
      offerLeaks distances topK values candidate.calculatedDistance +
        match offerResult distances topK values candidate.id candidate.metadata
          candidate.calculatedDistance with
        | none => 0
        | some next => leaksOf distances topK rest next

/-- A search on values and the same search with its pointers: both fail for want of a vector,
or both end, and as many copies are lost as the candidates store over. -/
def Mirrored (distances : Distances δ) (topK : UInt64) (before : Heap CString)
    (others lost : List Nat) (values : List (SearchResult δ))
    (candidates : Option (List (SearchResult δ))) (ran : Option (List (SearchResult δ)))
    (owned : Option (Heap CString × List (OwnedResult δ))) : Prop :=
  match candidates with
  | none => ran = none ∧ owned = none
  | some candidates =>
      ∃ after next offered more, ran = some after ∧ owned = some (next, offered) ∧
        Accounted before others (more ++ lost) after next offered ∧
        more.length = leaksOf distances topK candidates values ∧ offered.length = topK.toNat

/-- One more candidate in front of a search. -/
theorem Mirrored.cons {topK : UInt64} {candidate : SearchResult δ} {first : List Nat}
    {next : List (SearchResult δ)} {candidates : Option (List (SearchResult δ))}
    {ran : Option (List (SearchResult δ))} {owned : Option (Heap CString × List (OwnedResult δ))}
    (offered : offerResult distances topK values candidate.id candidate.metadata
      candidate.calculatedDistance = some next)
    (leaked : first.length = offerLeaks distances topK values candidate.calculatedDistance)
    (rest : Mirrored distances topK before others (first ++ lost) next candidates ran owned) :
    Mirrored distances topK before others lost values
      (candidates.map fun candidates => candidate :: candidates) ran owned := by
  cases candidates with
  | none => exact rest
  | some candidates =>
      obtain ⟨after, heapNext, array, more, ranEq, ownedEq, accounted, count, size⟩ := rest
      refine ⟨after, heapNext, array, more ++ first, ranEq, ownedEq, ?_, ?_, size⟩
      · rw [List.append_assoc]
        exact accounted
      · rw [List.length_append, leaksOf, offered, count, leaked, Nat.add_comm]

theorem flatSearchOwned_mirrored (distances : Distances δ) {topK : UInt64} (positive : topK ≠ 0)
    (small : topK.toNat ≤ 2 ^ 31) (data : List UInt8) (storage : Storage) (dimension : UInt64)
    (metric : MetricType) (query : List UInt32) (pending : Option (List UInt64))
    (pendingCount : Nat) (records : List Record) (full : results.length = topK.toNat)
    (accounted : Accounted before others lost values heap results) :
    Mirrored distances topK before others lost values
      (flatCandidates distances data storage dimension metric query pending pendingCount records)
      (flatSearchLoop distances data storage dimension metric query topK pending pendingCount
        records values)
      (flatSearchOwned distances data storage dimension metric query topK pending pendingCount
        records heap results) := by
  induction records generalizing lost values heap results with
  | nil => exact ⟨values, heap, results, [], rfl, rfl, accounted, rfl, full⟩
  | cons record rest ih =>
      rw [flatCandidates, flatSearchLoop, flatSearchOwned]
      by_cases skipped : (record.isDeleted ||
          isPendingDelete record.id pending pendingCount) = true
      · rw [if_pos skipped, if_pos skipped, if_pos skipped]
        exact ih full accounted
      · rw [if_neg skipped, if_neg skipped, if_neg skipped]
        cases readVector data storage dimension record.vector with
        | none => exact ⟨rfl, rfl⟩
        | some vector =>
            obtain ⟨next, offered, more, after, owned, value, accountedNext, count, size⟩ :=
              offerOwned_accounted positive small full accounted record.id record.metadata
                (distances.calculate metric dimension vector.val query)
            dsimp only
            rw [owned, value]
            exact Mirrored.cons value count (ih size accountedNext)

/-- The copy that `storage_fetch_by_offset` makes is one more block to be kept. -/
theorem Accounted.fetch (accounted : Accounted before others lost values heap results)
    (metadata : Option CString) :
    Accounted (heap.copy metadata).1 ((heap.copy metadata).2.toList ++ others) lost values
      (heap.copy metadata).1 results ∧
      (heap.copy metadata).1.follow (heap.copy metadata).2 = some metadata ∧
      ∀ address ∈ others, (heap.copy metadata).1.read address = before.read address := by
  obtain ⟨owns, readCopy, kept⟩ := accounted.owns.copy metadata
  refine ⟨⟨?_, ?_, fun _ _ => rfl⟩, ?_, ?_⟩
  · apply owns.perm
    apply (List.perm_append_comm_assoc ..).trans
    exact (List.perm_append_comm_assoc ..).append_left _
  · rw [view_congr fun address member => kept address (List.mem_append_left _ member),
      accounted.view]
  · have inside : ∀ address ∈ (heap.copy metadata).2,
        address ∈ (heap.copy metadata).2.toList ++ (heldBy results ++ (lost ++ others)) :=
      fun address member => List.mem_append_left _ (Option.mem_toList.mpr member)
    rw [owns.follow inside, readCopy]
  · intro address member
    have inRest := List.mem_append_right (heldBy results) (List.mem_append_right lost member)
    exact (kept address inRest).trans (accounted.kept address member)

/-- When it is freed again, nothing else has changed. -/
theorem Accounted.drop {fetched : Heap CString} {temp : Option Nat}
    (accounted : Accounted fetched (temp.toList ++ others) lost values heap results)
    (same : ∀ address ∈ others, fetched.read address = before.read address) :
    ∃ next, heap.release temp = some next ∧
      Accounted before others lost values next results := by
  have owns : heap.Owns (temp.toList ++ (heldBy results ++ (lost ++ others))) := by
    apply accounted.owns.perm
    apply ((List.perm_append_comm_assoc ..).append_left _).trans
    exact List.perm_append_comm_assoc ..
  obtain ⟨next, released, ownsNext, kept⟩ := owns.release
  refine ⟨next, released, ownsNext, ?_, ?_⟩
  · rw [view_congr fun address member => kept address (List.mem_append_left _ member),
      accounted.view]
  · intro address member
    have inRest := List.mem_append_right (heldBy results) (List.mem_append_right lost member)
    have there := accounted.kept address (List.mem_append_right temp.toList member)
    exact (kept address inRest).trans (there.trans (same address member))

theorem annSearchOwned_mirrored (ops : FloatOps) {topK : UInt64} (positive : topK ≠ 0)
    (small : topK.toNat ≤ 2 ^ 31) (data : List UInt8) (storage : Storage) (dimension : UInt64)
    (metric : MetricType) (query : List UInt32) (pending : Option (List UInt64))
    (pendingCount : Nat) (offsets : List UInt64) {values : List (SearchResult UInt32)}
    {results : List (OwnedResult UInt32)} (full : results.length = topK.toNat)
    (accounted : Accounted before others lost values heap results) :
    Mirrored ops.toDistances topK before others lost values
      (annCandidates ops data storage dimension metric query pending pendingCount offsets)
      (annSearchLoop ops data storage dimension metric query topK pending pendingCount offsets
        values)
      (annSearchOwned ops data storage dimension metric query topK pending pendingCount offsets
        heap results) := by
  induction offsets generalizing lost values heap results with
  | nil => exact ⟨values, heap, results, [], rfl, rfl, accounted, rfl, full⟩
  | cons byteOffset rest ih =>
      rw [annCandidates, annSearchLoop, annSearchOwned]
      cases storageFetchByOffset data storage byteOffset Record.blank dimension with
      | error left => exact ih full accounted
      | ok record =>
          obtain ⟨fetched, followed, same⟩ := accounted.fetch record.metadata
          dsimp only
          by_cases skipped : (record.isDeleted ||
              isPendingDelete record.id pending pendingCount) = true
          · rw [if_pos skipped, if_pos skipped, if_pos skipped]
            obtain ⟨next, released, accountedNext⟩ := fetched.drop same
            rw [released]
            exact ih full accountedNext
          · rw [if_neg skipped, if_neg skipped, if_neg skipped]
            cases readVector data storage dimension record.vector with
            | none => exact ⟨rfl, rfl⟩
            | some vector =>
                obtain ⟨offeredHeap, offered, more, after, owned, value, accountedOffered, count,
                    size⟩ :=
                  offerOwned_accounted positive small full fetched record.id record.metadata
                    (ops.calculate metric dimension vector.val query)
                obtain ⟨next, released, accountedNext⟩ := accountedOffered.drop same
                dsimp only
                rw [followed]
                dsimp only
                rw [owned, value]
                dsimp only
                rw [released]
                exact Mirrored.cons value count (ih size accountedNext)

/-- A whole search, which starts with nothing lost. -/
theorem Mirrored.searched {topK : UInt64} {candidates : Option (List (SearchResult δ))}
    {ran : Option (List (SearchResult δ))} {owned : Option (Heap CString × List (OwnedResult δ))}
    (mirrored : Mirrored distances topK before others [] values candidates ran owned) :
    (ran = none ∧ owned = none) ∨
      ∃ after next offered lost, ran = some after ∧ owned = some (next, offered) ∧
        Accounted before others lost after next offered ∧
        lost.length = leaksOf distances topK (candidates.getD []) values := by
  cases candidates with
  | none => exact Or.inl mirrored
  | some candidates =>
      obtain ⟨after, next, offered, more, ranEq, ownedEq, accounted, count, -⟩ := mirrored
      rw [List.append_nil] at accounted
      exact Or.inr ⟨after, next, offered, more, ranEq, ownedEq, accounted, count⟩

theorem Accounted.cleared (owns : heap.Owns others) (distances : Distances δ) (topK : Nat) :
    Accounted heap others [] (List.replicate topK (SearchResult.empty distances)) heap
      (List.replicate topK (OwnedResult.empty distances)) := by
  have nothing : heldBy (List.replicate topK (OwnedResult.empty distances)) = [] := by
    apply List.filterMap_eq_nil_iff.mpr
    intro result member
    rw [List.eq_of_mem_replicate member]
    rfl
  refine ⟨?_, List.map_replicate .., fun _ _ => rfl⟩
  rw [nothing]
  exact owns

theorem Accounted.read (accounted : Accounted before others lost values heap results) :
    readResults heap results = some values := by
  have following : ∀ result ∈ results, heap.follow result.metadata =
      some (result.view heap).metadata := by
    intro result member
    apply accounted.owns.follow
    intro address copied
    exact List.mem_append_left _ (List.mem_filterMap.mpr ⟨result, member, copied⟩)
  rw [← accounted.view]
  clear accounted
  induction results with
  | nil => rfl
  | cons result rest ih =>
      rw [readResults, following result (List.mem_cons_self ..),
        ih fun other member => following other (List.mem_cons_of_mem result member)]
      rfl

theorem Accounted.freed (accounted : Accounted before others lost values heap results) :
    ∃ next, heap.freeAll (heldBy results) = some next ∧ next.Owns (lost ++ others) ∧
      ∀ address ∈ others, next.read address = before.read address := by
  obtain ⟨next, freed, owns, kept⟩ := accounted.owns.freeAll
  refine ⟨next, freed, owns, ?_⟩
  intro address member
  exact (kept address (List.mem_append_right lost member)).trans (accounted.kept address member)

end Accounting

/-! ### The handler -/

section Handler

variable {δ ν : Type} [DecidableEq δ] (env : ServerEnv δ ν) (data : List UInt8)
  (ivfIndex : Option (List UInt8)) (table : OpenTable) (req : SearchReq)

/-- What the search of a request offers to its array. -/
def offeredBy : Option (List (SearchResult UInt32)) :=
  if req.useAnn then
    match loadIndexOnDemand ivfIndex table with
    | none => none
    | some loaded =>
        match loaded.ivfIndex with
        | none => some []
        | some clusters =>
            match ivfSearch env.floats clusters req.queryVector (UInt64.ofNat req.nprobe.toNat)
                loaded.ivfK loaded.db.dimension loaded.db.calculateDistance with
            | none => none
            | some fetched =>
                annCandidates env.floats data loaded.db.storage loaded.db.dimension
                  loaded.db.calculateDistance req.queryVector loaded.db.pendingDeletes
                  loaded.db.pendingCount fetched
  else
    flatCandidates env.floats.toDistances data table.db.storage table.db.dimension
      table.db.calculateDistance req.queryVector table.db.pendingDeletes table.db.pendingCount
      table.db.records

/-- The copies that a request leaves behind: none if it is refused before the search. -/
def searchLeaks (io : AnswerIO) : Nat :=
  let topK := UInt64.ofNat req.topK.toNat
  if (searchRefusal table.db req).isSome = true ∨ io.allocates = false then 0
  else
    leaksOf env.floats.toDistances topK ((offeredBy env data ivfIndex table req).getD [])
      (List.replicate topK.toNat (SearchResult.empty env.floats.toDistances))

variable {table req} {heap : Heap CString} {others : List Nat}

/-- The search behind the checks, with its pointers and without. -/
theorem searchFoundOwned_spec (owns : heap.Owns others)
    (accepted : searchRefusal table.db req = none) :
    (searchFound env data ivfIndex table req = none ∧
        searchFoundOwned env data ivfIndex table req heap = none) ∨
      (∃ response, searchFound env data ivfIndex table req = some (.error response) ∧
        searchFoundOwned env data ivfIndex table req heap = some (heap, .error response) ∧
        (offeredBy env data ivfIndex table req).getD [] = []) ∨
      ∃ values next results lost,
        searchFound env data ivfIndex table req = some (.ok values) ∧
        searchFoundOwned env data ivfIndex table req heap = some (next, .ok results) ∧
        Accounted heap others lost values next results ∧
        lost.length = leaksOf env.floats.toDistances (UInt64.ofNat req.topK.toNat)
          ((offeredBy env data ivfIndex table req).getD [])
          (List.replicate (UInt64.ofNat req.topK.toNat).toNat
            (SearchResult.empty env.floats.toDistances)) := by
  obtain ⟨positive, small⟩ := topK_of_accepted accepted
  have cleared := Accounted.cleared owns env.floats.toDistances
    (UInt64.ofNat req.topK.toNat).toNat
  unfold searchFound searchFoundOwned offeredBy
  dsimp only
  by_cases ann : req.useAnn = true
  · rw [if_pos ann, if_pos ann, if_pos ann]
    cases loadIndexOnDemand ivfIndex table with
    | none => exact Or.inl ⟨rfl, rfl⟩
    | some loaded =>
        dsimp only
        cases loaded.ivfIndex with
        | none => exact Or.inr (Or.inl ⟨_, rfl, rfl, rfl⟩)
        | some clusters =>
            unfold dbAnnSearch
            dsimp only
            cases ivfSearch env.floats clusters req.queryVector
                (UInt64.ofNat req.nprobe.toNat) loaded.ivfK loaded.db.dimension
                loaded.db.calculateDistance with
            | none => exact Or.inl ⟨rfl, rfl⟩
            | some fetched =>
                dsimp only
                have mirrored := annSearchOwned_mirrored env.floats positive small data
                  loaded.db.storage loaded.db.dimension loaded.db.calculateDistance
                  req.queryVector loaded.db.pendingDeletes loaded.db.pendingCount fetched
                  (List.length_replicate ..) cleared
                rcases mirrored.searched with ⟨ran, owned⟩ | ⟨after, next, results, lost, ran,
                  owned, accounted, count⟩
                · rw [ran, owned]
                  exact Or.inl ⟨rfl, rfl⟩
                · rw [ran, owned]
                  exact Or.inr (Or.inr ⟨after, next, results, lost, rfl, rfl, accounted, count⟩)
  · rw [if_neg ann, if_neg ann, if_neg ann, if_neg positive]
    unfold flatSearch
    rw [if_neg positive]
    have mirrored := flatSearchOwned_mirrored env.floats.toDistances positive small data
      table.db.storage table.db.dimension table.db.calculateDistance req.queryVector
      table.db.pendingDeletes table.db.pendingCount table.db.records (List.length_replicate ..)
      cleared
    rcases mirrored.searched with ⟨ran, owned⟩ | ⟨after, next, results, lost, ran, owned,
      accounted, count⟩
    · rw [ran, owned]
      exact Or.inl ⟨rfl, rfl⟩
    · rw [ran, owned]
      exact Or.inr (Or.inr ⟨after, next, results, lost, rfl, rfl, accounted, count⟩)

end Handler

/-! ### A closer record behind one with metadata -/

def improvedTable : OpenTable :=
  { moviesSlot with
    db :=
      { moviesSlot.db with
        records :=
          [{ id := 8
             vector := .heap [1073741824]
             metadata := some moviesName
             isDeleted := false
             byteOffset := 0
             isMmap := false },
           { id := 9
             vector := .heap [1065353216]
             metadata := none
             isDeleted := false
             byteOffset := 32
             isMmap := false }] } }

end OriginDb
