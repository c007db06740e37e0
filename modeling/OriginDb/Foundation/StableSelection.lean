/-
Bounded insertion selects from the stable sort.

An array of `k` places that starts with copies of one sentinel and is offered
items one by one ends with the first `k` of the stable sort of those items whose
keys are below the sentinel's; the sentinels that are left stand behind them.
Offering more items afterwards makes no key of the array larger.
-/

import Mathlib.Data.List.TakeDrop
import OriginDb.Foundation.TopK

namespace Foundation.TopK

variable {α ρ : Type} [LinearOrder α] (key : ρ → α)

/-- The items by key; items with equal keys stay in their order. -/
def stableSort (items : List ρ) : List ρ :=
  items.mergeSort fun first second => decide (key first ≤ key second)

theorem stableSort_perm (items : List ρ) : (stableSort key items).Perm items :=
  List.mergeSort_perm items _

theorem stableSort_length (items : List ρ) : (stableSort key items).length = items.length :=
  List.length_mergeSort items

theorem stableSort_map {β : Type} (make : β → ρ) (items : List β) :
    (stableSort (key ∘ make) items).map make = stableSort key (items.map make) :=
  List.map_mergeSort fun _ _ _ _ => rfl

/-! ### Insertion in front of equal keys -/

/-- Put an item before the items whose keys are no smaller. -/
def placeFirst (item : ρ) (items : List ρ) : List ρ :=
  items.orderedInsert (fun first second => key first ≤ key second) item

theorem placeFirst_before {item first : ρ} (rest : List ρ) (before : key item ≤ key first) :
    placeFirst key item (first :: rest) = item :: first :: rest :=
  List.orderedInsert_cons_of_le _ rest before

theorem placeFirst_behind {item first : ρ} (rest : List ρ) (behind : ¬key item ≤ key first) :
    placeFirst key item (first :: rest) = first :: placeFirst key item rest :=
  List.orderedInsert_of_not_le _ rest behind

/-- Sorting a list puts its first item before the equal ones of the sorted rest. -/
theorem stableSort_cons (item : ρ) (items : List ρ) :
    stableSort key (item :: items) = placeFirst key item (stableSort key items) := by
  have transitive : ∀ first second third : ρ, decide (key first ≤ key second) = true →
      decide (key second ≤ key third) = true → decide (key first ≤ key third) = true := by
    intro first second third
    rw [decide_eq_true_iff, decide_eq_true_iff, decide_eq_true_iff]
    exact le_trans
  have total : ∀ first second : ρ,
      (decide (key first ≤ key second) || decide (key second ≤ key first)) = true := by
    intro first second
    rw [Bool.or_eq_true, decide_eq_true_iff, decide_eq_true_iff]
    exact le_total (key first) (key second)
  obtain ⟨smaller, larger, sortedEq, restEq, below⟩ :=
    List.mergeSort_cons transitive total item items
  have ordered := List.pairwise_mergeSort transitive total (item :: items)
  rw [sortedEq] at ordered
  obtain ⟨itemLeast, -⟩ := List.pairwise_cons.mp (List.pairwise_append.mp ordered).2.1
  unfold stableSort
  rw [sortedEq, restEq]
  clear sortedEq restEq ordered
  induction smaller with
  | nil =>
      cases larger with
      | nil => rfl
      | cons first rest =>
          have least := itemLeast first (List.mem_cons_self ..)
          rw [decide_eq_true_iff] at least
          exact (placeFirst_before key rest least).symm
  | cons first rest ih =>
      have behind : ¬key item ≤ key first := by
        simpa using below first (List.mem_cons_self ..)
      have restBelow := fun other member => below other (List.mem_cons_of_mem first member)
      rw [List.cons_append, List.cons_append, placeFirst_behind key _ behind, ← ih restBelow]

/-- A later item goes behind, an earlier one before the items with its key, so
it does not matter which of them is placed first. -/
theorem place_placeFirst (later earlier : ρ) (items : List ρ) :
    place key later (placeFirst key earlier items) =
      placeFirst key earlier (place key later items) := by
  induction items with
  | nil =>
      by_cases ordered : key earlier ≤ key later
      · exact (place_behind key [] (not_lt.mpr ordered)).trans
          (placeFirst_before key [] ordered).symm
      · exact (place_before key [] (not_le.mp ordered)).trans
          (placeFirst_behind key [] ordered).symm
  | cons first rest ih =>
      by_cases early : key earlier ≤ key first
      · rw [placeFirst_before key rest early]
        by_cases ordered : key earlier ≤ key later
        · rw [place_behind key _ (not_lt.mpr ordered)]
          by_cases before : key later < key first
          · rw [place_before key rest before, placeFirst_before key _ ordered]
          · rw [place_behind key rest before, placeFirst_before key _ early]
        · have before : key later < key first := lt_of_lt_of_le (not_le.mp ordered) early
          rw [place_before key _ (not_le.mp ordered), place_before key rest before,
            placeFirst_behind key _ ordered, placeFirst_before key rest early]
      · rw [placeFirst_behind key rest early]
        by_cases before : key later < key first
        · have ordered : ¬key earlier ≤ key later :=
            not_le.mpr (lt_trans before (not_le.mp early))
          rw [place_before key _ before, place_before key rest before,
            placeFirst_behind key _ ordered, placeFirst_behind key rest early]
        · rw [place_behind key _ before, place_behind key rest before,
            placeFirst_behind key _ early, ih]

theorem placeAll_placeFirst (offered : List ρ) (earlier : ρ) (items : List ρ) :
    placeAll key offered (placeFirst key earlier items) =
      placeFirst key earlier (placeAll key offered items) := by
  induction offered generalizing items with
  | nil => rfl
  | cons item rest ih =>
      calc placeAll key rest (place key item (placeFirst key earlier items))
          = placeAll key rest (placeFirst key earlier (place key item items)) := by
            rw [place_placeFirst]
        _ = placeFirst key earlier (placeAll key rest (place key item items)) := ih _

/-- Placing items one by one, each behind its equals, is the stable sort. -/
theorem placeAll_nil (offered : List ρ) : placeAll key offered [] = stableSort key offered := by
  induction offered with
  | nil => exact List.mergeSort_nil.symm
  | cons item rest ih =>
      rw [stableSort_cons, ← ih]
      exact placeAll_placeFirst key rest item []

/-! ### Insertion around the sentinels -/

theorem place_append_of_before {item : ρ} (before : List ρ) {after : List ρ}
    (precedes : ∀ other ∈ after.head?, key item < key other) :
    place key item (before ++ after) = place key item before ++ after := by
  induction before with
  | nil => exact place_between key (fun _ impossible => absurd impossible List.not_mem_nil) precedes
  | cons first rest ih =>
      by_cases smaller : key item < key first
      · rw [List.cons_append, place_before key _ smaller, place_before key _ smaller,
          List.cons_append, List.cons_append]
      · rw [List.cons_append, place_behind key _ smaller, place_behind key _ smaller, ih,
          List.cons_append]

theorem place_append_of_behind {item : ρ} {before : List ρ} (after : List ρ)
    (behind : ∀ other ∈ before, ¬key item < key other) :
    place key item (before ++ after) = before ++ place key item after := by
  induction before with
  | nil => rfl
  | cons first rest ih =>
      have restBehind : ∀ other ∈ rest, ¬key item < key other := fun other member =>
        behind other (List.mem_cons_of_mem first member)
      rw [List.cons_append, place_behind key _ (behind first (List.mem_cons_self ..)),
        ih restBehind, List.cons_append]

/-- Items below the sentinels' key sort themselves in front of them, the others
behind. -/
theorem placeAll_around {sentinels : List ρ} {bound : α}
    (atBound : ∀ sentinel ∈ sentinels, key sentinel = bound) (offered : List ρ)
    {kept dropped : List ρ} (keptBelow : ∀ item ∈ kept, key item ≤ bound)
    (droppedAbove : ∀ item ∈ dropped, bound ≤ key item) :
    ∃ more, placeAll key offered (kept ++ (sentinels ++ dropped)) =
      placeAll key (offered.filter fun item => key item < bound) kept ++ (sentinels ++ more) := by
  induction offered generalizing kept dropped with
  | nil => exact ⟨dropped, rfl⟩
  | cons item rest ih =>
      by_cases small : key item < bound
      · have precedes : ∀ other ∈ (sentinels ++ dropped).head?, key item < key other := by
          intro other atHead
          rcases List.mem_append.mp (List.mem_of_mem_head? atHead) with sentinel | inDropped
          · rw [atBound other sentinel]
            exact small
          · exact lt_of_lt_of_le small (droppedAbove other inDropped)
        have nextBelow : ∀ other ∈ place key item kept, key other ≤ bound := by
          intro other member
          rcases List.mem_cons.mp ((place_perm key item kept).mem_iff.mp member) with rfl | earlier
          · exact le_of_lt small
          · exact keptBelow other earlier
        obtain ⟨more, restEq⟩ := ih nextBelow droppedAbove
        rw [← place_append_of_before key kept precedes] at restEq
        rw [List.filter_cons_of_pos (by simpa using small)]
        exact ⟨more, restEq⟩
      · have large : bound ≤ key item := not_lt.mp small
        have behind : ∀ other ∈ kept ++ sentinels, ¬key item < key other := by
          intro other member
          rw [not_lt]
          rcases List.mem_append.mp member with inKept | sentinel
          · exact le_trans (keptBelow other inKept) large
          · rw [atBound other sentinel]
            exact large
        have nextAbove : ∀ other ∈ place key item dropped, bound ≤ key other := by
          intro other member
          rcases List.mem_cons.mp ((place_perm key item dropped).mem_iff.mp member) with
            rfl | earlier
          · exact large
          · exact droppedAbove other earlier
        obtain ⟨more, restEq⟩ := ih keptBelow nextAbove
        have placed := place_append_of_behind key dropped behind
        rw [List.append_assoc, List.append_assoc] at placed
        rw [← placed] at restEq
        rw [List.filter_cons_of_neg (by simpa using small)]
        exact ⟨more, restEq⟩

/-- The array of a bounded insertion ends with the first `k` items of the stable
sort, padded with sentinels. -/
theorem offerAll_replicate (k : Nat) (sentinel : ρ) (offered : List ρ) :
    let sorted := stableSort key (offered.filter fun item => key item < key sentinel)
    offerAll key k offered (List.replicate k sentinel) =
      sorted.take k ++ List.replicate (k - sorted.length) sentinel := by
  intro sorted
  have atBound : ∀ other ∈ List.replicate k sentinel, key other = key sentinel := by
    intro other member
    rw [List.eq_of_mem_replicate member]
  obtain ⟨more, placedEq⟩ := placeAll_around key atBound offered
    (fun _ impossible => absurd impossible List.not_mem_nil)
    (fun _ impossible => absurd impossible List.not_mem_nil)
  rw [List.nil_append, List.append_nil, placeAll_nil] at placedEq
  rw [offerAll_eq key offered List.length_replicate, placedEq, List.take_append,
    List.take_append_of_le_length (by rw [List.length_replicate]; omega), List.take_replicate,
    Nat.min_eq_left (Nat.sub_le k _)]

/-! ### The place of an item -/

theorem stableSort_sorted (items : List ρ) : Sorted key (stableSort key items) := by
  rw [← placeAll_nil]
  exact placeAll_sorted key items List.Pairwise.nil

theorem placeFirst_perm (item : ρ) (items : List ρ) :
    (placeFirst key item items).Perm (item :: items) :=
  List.perm_orderedInsert _ item items

theorem placeFirst_append_of_before {item : ρ} (before : List ρ) {after : List ρ}
    (precedes : ∀ other ∈ after.head?, key item ≤ key other) :
    placeFirst key item (before ++ after) = placeFirst key item before ++ after := by
  induction before with
  | nil =>
      cases after with
      | nil => rfl
      | cons first rest => exact placeFirst_before key rest (precedes first rfl)
  | cons first rest ih =>
      by_cases smaller : key item ≤ key first
      · rw [List.cons_append, placeFirst_before key _ smaller, placeFirst_before key _ smaller,
          List.cons_append, List.cons_append]
      · rw [List.cons_append, placeFirst_behind key _ smaller, placeFirst_behind key _ smaller, ih,
          List.cons_append]

theorem placeFirst_append_of_behind {item : ρ} {before : List ρ} (after : List ρ)
    (behind : ∀ other ∈ before, ¬key item ≤ key other) :
    placeFirst key item (before ++ after) = before ++ placeFirst key item after := by
  induction before with
  | nil => rfl
  | cons first rest ih =>
      have restBehind : ∀ other ∈ rest, ¬key item ≤ key other := fun other member =>
        behind other (List.mem_cons_of_mem first member)
      rw [List.cons_append, placeFirst_behind key _ (behind first (List.mem_cons_self ..)),
        ih restBehind, List.cons_append]

/-- A sorted list opens where an item is placed first. -/
theorem placeFirst_split (item : ρ) {items : List ρ} (sorted : Sorted key items) :
    ∃ before after, items = before ++ after ∧
      placeFirst key item items = before ++ item :: after ∧
      (∀ other ∈ before, key other < key item) ∧ ∀ other ∈ after, key item ≤ key other := by
  induction items with
  | nil => exact ⟨[], [], rfl, rfl, fun _ none => absurd none List.not_mem_nil,
      fun _ none => absurd none List.not_mem_nil⟩
  | cons first rest ih =>
      obtain ⟨firstLeast, restSorted⟩ := List.pairwise_cons.mp sorted
      by_cases smaller : key item ≤ key first
      · have atLeast : ∀ other ∈ first :: rest, key item ≤ key other := by
          intro other member
          rcases List.mem_cons.mp member with rfl | later
          · exact smaller
          · exact le_trans smaller (firstLeast other later)
        exact ⟨[], first :: rest, rfl, placeFirst_before key rest smaller,
          fun _ none => absurd none List.not_mem_nil, atLeast⟩
      · obtain ⟨before, after, split, placed, below, above⟩ := ih restSorted
        have firstBelow : ∀ other ∈ first :: before, key other < key item := by
          intro other member
          rcases List.mem_cons.mp member with rfl | later
          · exact not_le.mp smaller
          · exact below other later
        exact ⟨first :: before, after, congrArg (List.cons first) split,
          (placeFirst_behind key rest smaller).trans (congrArg (List.cons first) placed),
          firstBelow, above⟩

/-- How many items the stable sort puts before an item that stands between `front` and
`back`. -/
def rank (front : List ρ) (item : ρ) (back : List ρ) : Nat :=
  (front.countP fun other => key other ≤ key item) +
    back.countP fun other => key other < key item

theorem rank_cons (first : ρ) (front : List ρ) (item : ρ) (back : List ρ) :
    rank key (first :: front) item back =
      rank key front item back + if key first ≤ key item then 1 else 0 := by
  simp only [rank, List.countP_cons, decide_eq_true_iff]
  omega

theorem stableSort_split (front : List ρ) (item : ρ) (back : List ρ) :
    ∃ before after, stableSort key (front ++ item :: back) = before ++ item :: after ∧
      before.length = rank key front item back ∧
      ∀ other ∈ before, key other ≤ key item ∧ (other ∈ front ∨ key other < key item) := by
  induction front with
  | nil =>
      obtain ⟨before, after, split, placed, below, above⟩ :=
        placeFirst_split key item (stableSort_sorted key back)
      have counted : back.countP (fun other => key other < key item) = before.length := by
        rw [← (stableSort_perm key back).countP_eq, split, List.countP_append,
          List.countP_eq_length.mpr fun other member => decide_eq_true (below other member),
          List.countP_eq_zero.mpr fun other member closer =>
            not_lt.mpr (above other member) (of_decide_eq_true closer), Nat.add_zero]
      apply Exists.intro before
      apply Exists.intro after
      rw [List.nil_append, stableSort_cons, rank, List.countP_nil, Nat.zero_add, counted]
      exact ⟨placed, rfl, fun other member => ⟨le_of_lt (below other member),
        Or.inr (below other member)⟩⟩
  | cons first front ih =>
      obtain ⟨before, after, sortEq, lengthEq, below⟩ := ih
      have nextBelow : ∀ other ∈ before, key other ≤ key item ∧
          (other ∈ first :: front ∨ key other < key item) := fun other member =>
        ⟨(below other member).1, (below other member).2.imp_left (List.mem_cons_of_mem first)⟩
      rw [List.cons_append, stableSort_cons, sortEq]
      by_cases close : key first ≤ key item
      · have precedes : ∀ other ∈ (item :: after).head?, key first ≤ key other :=
          fun other atHead => Option.some.inj atHead ▸ close
        have placed := placeFirst_append_of_before key before precedes
        have perm := placeFirst_perm key first before
        have lengthNext : (placeFirst key first before).length =
            rank key (first :: front) item back := by
          rw [perm.length_eq, List.length_cons, lengthEq, rank_cons, if_pos close]
        have belowNext : ∀ other ∈ placeFirst key first before, key other ≤ key item ∧
            (other ∈ first :: front ∨ key other < key item) := by
          intro other member
          rcases List.mem_cons.mp (perm.mem_iff.mp member) with rfl | earlier
          · exact ⟨close, Or.inl (List.mem_cons_self ..)⟩
          · exact nextBelow other earlier
        exact ⟨_, after, placed, lengthNext, belowNext⟩
      · have behind : ∀ other ∈ before ++ [item], ¬key first ≤ key other := by
          intro other member far
          rcases List.mem_append.mp member with earlier | last
          · exact close (le_trans far (below other earlier).1)
          · exact close (List.mem_singleton.mp last ▸ far)
        have placed := placeFirst_append_of_behind key after behind
        rw [List.append_assoc, List.append_assoc, List.singleton_append,
          List.singleton_append] at placed
        have rankEq : rank key (first :: front) item back = rank key front item back := by
          rw [rank_cons, if_neg close, Nat.add_zero]
        exact ⟨before, _, placed, lengthEq.trans rankEq.symm, nextBelow⟩

/-- The first `k` of the stable sort hold an item of some kind exactly when one of that
kind has less than `k` items before it. -/
theorem exists_mem_take_stableSort_iff (kind : ρ → Prop) (items : List ρ) (k : Nat) :
    (∃ item ∈ (stableSort key items).take k, kind item) ↔
      ∃ front item back, items = front ++ item :: back ∧ kind item ∧
        rank key front item back < k := by
  constructor
  · rintro ⟨item, member, isKind⟩
    have inItems := (stableSort_perm key items).mem_iff.mp (List.mem_of_mem_take member)
    obtain ⟨front, back, split, firstOne⟩ := List.eq_append_cons_of_mem inItems
    obtain ⟨before, after, sortEq, lengthEq, below⟩ := stableSort_split key front item back
    have notBefore : item ∉ before := by
      intro earlier
      rcases (below item earlier).2 with inFront | smaller
      · exact firstOne inFront
      · exact lt_irrefl _ smaller
    have near : before.length < k := by
      by_contra far
      rw [split, sortEq, List.take_append_of_le_length (Nat.le_of_not_lt far)] at member
      exact notBefore (List.mem_of_mem_take member)
    exact ⟨front, item, back, split, isKind, lengthEq ▸ near⟩
  · rintro ⟨front, item, back, rfl, isKind, near⟩
    obtain ⟨before, after, sortEq, lengthEq, -⟩ := stableSort_split key front item back
    rw [← lengthEq] at near
    have place : ((stableSort key (front ++ item :: back)).take k)[before.length]? = some item := by
      rw [List.getElem?_take_of_lt near, sortEq, List.getElem?_append_right (Nat.le_refl _),
        Nat.sub_self, List.getElem?_cons_zero]
    exact ⟨item, List.mem_of_getElem? place, isKind⟩

/-! ### More items -/

/-- Place by place, the keys of one array are no larger than those of another. -/
def NoFarther (next items : List ρ) : Prop :=
  List.Forall₂ (fun first second => key first ≤ key second) next items

theorem noFarther_refl (items : List ρ) : NoFarther key items items :=
  List.forall₂_same.mpr fun _ _ => le_refl _

variable {key}

theorem NoFarther.trans {first second third : List ρ} (closer : NoFarther key first second)
    (close : NoFarther key second third) : NoFarther key first third := by
  induction closer generalizing third with
  | nil => exact close
  | cons head _ ih =>
      cases close with
      | cons headNext tailNext => exact List.Forall₂.cons (le_trans head headNext) (ih tailNext)

/-- A sorted list moved one place back is nowhere farther. -/
theorem noFarther_shift {first : ρ} {rest : List ρ} (sorted : Sorted key (first :: rest)) :
    NoFarther key ((first :: rest).take rest.length) rest := by
  induction rest generalizing first with
  | nil => exact List.Forall₂.nil
  | cons second rest ih =>
      obtain ⟨firstLeast, restSorted⟩ := List.pairwise_cons.mp sorted
      rw [List.length_cons, List.take_succ_cons]
      exact List.Forall₂.cons (firstLeast second (List.mem_cons_self ..)) (ih restSorted)

theorem offer_noFarther {k : Nat} (item : ρ) {items : List ρ} (sorted : Sorted key items)
    (full : items.length = k) : NoFarther key (offer key k item items) items := by
  subst full
  induction items with
  | nil => exact List.Forall₂.nil
  | cons first rest ih =>
      rw [offer, List.length_cons]
      by_cases before : key item < key first
      · rw [place_before key rest before, List.take_succ_cons]
        exact List.Forall₂.cons (le_of_lt before) (noFarther_shift sorted)
      · rw [place_behind key rest before, List.take_succ_cons]
        exact List.Forall₂.cons (le_refl _) (ih (List.pairwise_cons.mp sorted).2)

theorem offerAll_noFarther {k : Nat} (offered : List ρ) {items : List ρ}
    (sorted : Sorted key items) (full : items.length = k) :
    NoFarther key (offerAll key k offered items) items := by
  induction offered generalizing items with
  | nil => exact noFarther_refl key items
  | cons item rest ih =>
      exact (ih (offer_sorted key k item sorted) (offer_length key item full)).trans
        (offer_noFarther item sorted full)

theorem offerAll_append (k : Nat) (first second items : List ρ) :
    offerAll key k (first ++ second) items =
      offerAll key k second (offerAll key k first items) :=
  List.foldl_append

end Foundation.TopK
