/-
The k best of a stream of items under a key, kept by bounded insertion.

An item goes behind the items whose keys are no larger, and what no longer fits
is dropped.  Which of several items with the largest kept key stay depends on
the order of the stream; the keys do not, and neither do the items whose keys
are below another kept key.
-/

import Mathlib.Data.List.Sort
import Mathlib.Order.Defs.LinearOrder

namespace Foundation.TopK

variable {α ρ : Type} [LinearOrder α] (key : ρ → α)

/-- Put an item behind the items whose keys are no larger. -/
def place (item : ρ) (items : List ρ) : List ρ :=
  items.orderedInsert (fun first second => key first < key second) item

def placeAll (offered items : List ρ) : List ρ :=
  offered.foldl (fun kept item => place key item kept) items

def offer (k : Nat) (item : ρ) (items : List ρ) : List ρ :=
  (place key item items).take k

def offerAll (k : Nat) (offered items : List ρ) : List ρ :=
  offered.foldl (fun kept item => offer key k item kept) items

def Sorted (items : List ρ) : Prop :=
  items.Pairwise fun first second => key first ≤ key second

/-! ### Insertion -/

theorem place_before {item first : ρ} (rest : List ρ) (before : key item < key first) :
    place key item (first :: rest) = item :: first :: rest :=
  List.orderedInsert_cons_of_le _ rest before

theorem place_behind {item first : ρ} (rest : List ρ) (behind : ¬key item < key first) :
    place key item (first :: rest) = first :: place key item rest :=
  List.orderedInsert_of_not_le _ rest behind

/-- An item stands between what it must not pass and the first it precedes. -/
theorem place_between {item : ρ} {before after : List ρ}
    (behind : ∀ other ∈ before, ¬key item < key other)
    (precedes : ∀ other ∈ after.head?, key item < key other) :
    place key item (before ++ after) = before ++ item :: after := by
  induction before with
  | nil =>
      cases after with
      | nil => rfl
      | cons first rest => exact place_before key rest (precedes first rfl)
  | cons first rest ih =>
      have restBehind : ∀ other ∈ rest, ¬key item < key other := fun other member =>
        behind other (List.mem_cons_of_mem first member)
      rw [List.cons_append, place_behind key _ (behind first (List.mem_cons_self ..)),
        ih restBehind, List.cons_append]

theorem place_perm (item : ρ) (items : List ρ) : (place key item items).Perm (item :: items) :=
  List.perm_orderedInsert _ item items

theorem place_length (item : ρ) (items : List ρ) :
    (place key item items).length = items.length + 1 :=
  List.orderedInsert_length _ items item

theorem place_sorted (item : ρ) {items : List ρ} (sorted : Sorted key items) :
    Sorted key (place key item items) := by
  induction items with
  | nil => exact List.pairwise_singleton _ item
  | cons first rest ih =>
      obtain ⟨firstLeast, restSorted⟩ := List.pairwise_cons.mp sorted
      by_cases before : key item < key first
      · rw [place_before key rest before]
        refine List.pairwise_cons.mpr ⟨?_, sorted⟩
        intro other member
        rcases List.mem_cons.mp member with rfl | later
        · exact le_of_lt before
        · exact le_trans (le_of_lt before) (firstLeast other later)
      · rw [place_behind key rest before]
        refine List.pairwise_cons.mpr ⟨?_, ih restSorted⟩
        intro other member
        rcases List.mem_cons.mp ((place_perm key item rest).mem_iff.mp member) with rfl | later
        · exact not_lt.mp before
        · exact firstLeast other later

theorem placeAll_perm (offered items : List ρ) :
    (placeAll key offered items).Perm (offered ++ items) := by
  induction offered generalizing items with
  | nil => exact List.Perm.refl items
  | cons item rest ih =>
      calc (placeAll key rest (place key item items)).Perm (rest ++ place key item items) :=
            ih (place key item items)
        _ |>.Perm (rest ++ item :: items) := (place_perm key item items).append_left rest
        _ |>.Perm (item :: (rest ++ items)) := List.perm_middle

theorem placeAll_sorted (offered : List ρ) {items : List ρ} (sorted : Sorted key items) :
    Sorted key (placeAll key offered items) := by
  induction offered generalizing items with
  | nil => exact sorted
  | cons item rest ih => exact ih (place_sorted key item sorted)

theorem key_getElem_le {items : List ρ} (sorted : Sorted key items) {early late : Nat}
    (ordered : early ≤ late) (inside : late < items.length) :
    key items[early] ≤ key items[late] := by
  rcases Nat.eq_or_lt_of_le ordered with rfl | earlier
  · exact le_refl _
  · exact List.pairwise_iff_getElem.mp sorted early late (by omega) inside earlier

/-! ### Bounded insertion -/

/-- Where an item goes among the first `k` does not depend on the others. -/
theorem take_place (k : Nat) (item : ρ) (items : List ρ) :
    (place key item (items.take k)).take k = (place key item items).take k := by
  induction items generalizing k with
  | nil => rw [List.take_nil]
  | cons first rest ih =>
      cases k with
      | zero => rw [List.take_zero, List.take_zero]
      | succ k =>
          by_cases before : key item < key first
          · have shorter : ((first :: rest).take (k + 1)).take k = (first :: rest).take k := by
              rw [List.take_take, Nat.min_eq_left (Nat.le_succ k)]
            rw [List.take_succ_cons] at shorter ⊢
            rw [place_before key _ before, place_before key _ before, List.take_succ_cons,
              List.take_succ_cons, shorter]
          · rw [List.take_succ_cons]
            rw [place_behind key _ before, place_behind key _ before, List.take_succ_cons,
              List.take_succ_cons, ih k]

theorem offer_length {k : Nat} (item : ρ) {items : List ρ} (full : items.length = k) :
    (offer key k item items).length = k := by
  rw [offer, List.length_take, place_length]
  omega

theorem offer_sorted (k : Nat) (item : ρ) {items : List ρ} (sorted : Sorted key items) :
    Sorted key (offer key k item items) :=
  (place_sorted key item sorted).sublist (List.take_sublist k _)

theorem mem_of_mem_offer {k : Nat} {item other : ρ} {items : List ρ}
    (member : other ∈ offer key k item items) : other = item ∨ other ∈ items :=
  List.mem_cons.mp ((place_perm key item items).mem_iff.mp (List.mem_of_mem_take member))

theorem mem_of_mem_offerAll {k : Nat} {offered items : List ρ} {other : ρ}
    (member : other ∈ offerAll key k offered items) : other ∈ offered ∨ other ∈ items := by
  induction offered generalizing items with
  | nil => exact Or.inr member
  | cons item rest ih =>
      rcases ih member with later | kept
      · exact Or.inl (List.mem_cons_of_mem item later)
      · rcases mem_of_mem_offer key kept with rfl | earlier
        · exact Or.inl (List.mem_cons_self ..)
        · exact Or.inr earlier

theorem offerAll_take (k : Nat) (offered items : List ρ) :
    offerAll key k offered (items.take k) = (placeAll key offered items).take k := by
  induction offered generalizing items with
  | nil => rfl
  | cons item rest ih =>
      have step : offer key k item (items.take k) = (place key item items).take k :=
        take_place key k item items
      change offerAll key k rest (offer key k item (items.take k)) = _
      rw [step, ih (place key item items)]
      rfl

theorem offerAll_eq {k : Nat} (offered : List ρ) {items : List ρ} (full : items.length = k) :
    offerAll key k offered items = (placeAll key offered items).take k := by
  rw [← offerAll_take, ← full, List.take_length]

/-! ### Insertion into an array -/

omit [LinearOrder α] in
/-- Moving the items from `target` on one place down and storing an item at
`target` inserts it and drops the last one. -/
theorem set_eq_insert {items moved : List ρ} {target start : Nat}
    (full : items.length = start + 1) (lengthEq : moved.length = items.length)
    (inside : target ≤ start)
    (shifted : ∀ position, position ≠ target →
      moved[position]? =
        if target < position ∧ position ≤ start then items[position - 1]? else items[position]?)
    (item : ρ) :
    moved.set target item = (items.take target ++ item :: items.drop target).take (start + 1) := by
  have takeLength : (items.take target).length = target := List.length_take_of_le (by omega)
  apply List.ext_getElem?
  intro position
  rcases Nat.lt_trichotomy position target with before | rfl | behind
  · rw [List.getElem?_set_ne (by omega), shifted position (by omega), if_neg (by omega),
      List.getElem?_take_of_lt (by omega), List.getElem?_append_left (by omega),
      List.getElem?_take_of_lt before]
  · rw [List.getElem?_set_self (by omega), List.getElem?_take_of_lt (by omega),
      List.getElem?_append_right (by omega), takeLength, Nat.sub_self, List.getElem?_cons_zero]
  · rw [List.getElem?_set_ne (by omega), shifted position (by omega)]
    by_cases kept : position ≤ start
    · have next : position - target = (position - 1 - target) + 1 := by omega
      have fromDrop : target + (position - 1 - target) = position - 1 := by omega
      rw [if_pos ⟨behind, kept⟩, List.getElem?_take_of_lt (by omega),
        List.getElem?_append_right (by omega), takeLength, next, List.getElem?_cons_succ,
        List.getElem?_drop, fromDrop]
    · have cutOff : ((items.take target ++ item :: items.drop target).take
          (start + 1)).length ≤ position := by
        rw [List.length_take]
        omega
      rw [if_neg (by omega), List.getElem?_eq_none (by omega), List.getElem?_eq_none cutOff]

omit [LinearOrder α] in
/-- The item that is dropped is the last one. -/
theorem insert_drop_last {front : List ρ} {target : Nat} (inside : target ≤ front.length)
    (item last : ρ) :
    ((front ++ [last]).take target ++ item :: (front ++ [last]).drop target).take
        (front.length + 1) = front.take target ++ item :: front.drop target := by
  have lengthEq : (front.take target ++ item :: front.drop target).length = front.length + 1 := by
    rw [List.length_append, List.length_cons, List.length_take_of_le inside, List.length_drop]
    omega
  rw [List.take_append_of_le_length inside, List.drop_append_of_le_length inside,
    ← List.cons_append, ← List.append_assoc, ← lengthEq, List.take_left]

/-- Where the scan from the end of a sorted array stops, an item belongs. -/
theorem place_at {items : List ρ} (sorted : Sorted key items) {item : ρ} {target : Nat}
    (behind : ∀ before other, target = before + 1 → items[before]? = some other →
      ¬key item < key other)
    (inside : target ≤ items.length)
    (precedes : ∀ other, items[target]? = some other → key item < key other) :
    place key item items = items.take target ++ item :: items.drop target := by
  have placed : place key item (items.take target ++ items.drop target) =
      items.take target ++ item :: items.drop target := by
    apply place_between
    · intro other member
      obtain ⟨position, short, rfl⟩ := List.mem_iff_getElem.mp member
      rw [List.length_take] at short
      obtain ⟨before, targetEq⟩ : ∃ before, target = before + 1 := ⟨target - 1, by omega⟩
      have beforeInside : before < items.length := by omega
      have notCloser := behind before _ targetEq (List.getElem?_eq_getElem beforeInside)
      have earlier := key_getElem_le key sorted (by omega : position ≤ before) beforeInside
      rw [not_lt] at notCloser
      rw [List.getElem_take, not_lt]
      exact le_trans earlier notCloser
    · intro other atHead
      rw [Option.mem_def, List.head?_drop] at atHead
      exact precedes other atHead
  rw [List.take_append_drop] at placed
  exact placed

/-- An item that is not below the last one is not kept. -/
theorem offer_of_last {items : List ρ} (sorted : Sorted key items) {k : Nat}
    (full : items.length = k) {item last : ρ} (lastEq : items.getLast? = some last)
    (notCloser : ¬key item < key last) : offer key k item items = items := by
  have behindAll : ∀ other ∈ items, ¬key item < key other := by
    intro other member
    obtain ⟨before, split⟩ := List.getLast?_eq_some_iff.mp lastEq
    rw [not_lt] at notCloser ⊢
    rw [split] at member sorted
    rcases List.mem_append.mp member with earlier | isLast
    · have ordered := (List.pairwise_append.mp sorted).2.2 other earlier last
        (List.mem_singleton_self last)
      exact le_trans ordered notCloser
    · rw [List.mem_singleton.mp isLast]
      exact notCloser
  have placed : place key item (items ++ []) = items ++ item :: [] :=
    place_between key behindAll (fun other none => by cases none)
  rw [List.append_nil] at placed
  rw [offer, placed, ← full, List.take_left]

/-! ### The order of the stream -/

variable {key}

theorem sorted_keys_eq {first second : List ρ} (same : first.Perm second)
    (firstSorted : Sorted key first) (secondSorted : Sorted key second) :
    first.map key = second.map key := by
  have firstOrdered := List.pairwise_map.mpr firstSorted
  have secondOrdered := List.pairwise_map.mpr secondSorted
  exact (same.map key).eq_of_pairwise (fun _ _ _ _ => le_antisymm) firstOrdered secondOrdered

/-- Below a kept key nothing has been dropped. -/
theorem filter_take_of_sorted {items : List ρ} (sorted : Sorted key items) {k : Nat} {kept : ρ}
    (member : kept ∈ items.take k) {bound : α} (small : bound ≤ key kept) :
    (items.take k).filter (fun item => key item < bound) =
      items.filter fun item => key item < bound := by
  have split : items.take k ++ items.drop k = items := List.take_append_drop k items
  have ordered : ∀ first ∈ items.take k, ∀ second ∈ items.drop k, key first ≤ key second := by
    have whole : Sorted key (items.take k ++ items.drop k) := by
      rw [split]
      exact sorted
    exact (List.pairwise_append.mp whole).2.2
  have noneDropped : (items.drop k).filter (fun item => key item < bound) = [] := by
    apply List.filter_eq_nil_iff.mpr
    intro item dropped
    have larger := ordered kept member item dropped
    simpa using le_trans small larger
  conv_rhs => rw [← split, List.filter_append, noneDropped, List.append_nil]

section Streams

variable {k : Nat} {first second items : List ρ}

/-- The kept keys do not depend on the order in which the items come. -/
theorem offerAll_keys_eq (same : first.Perm second) (sorted : Sorted key items)
    (full : items.length = k) :
    (offerAll key k first items).map key = (offerAll key k second items).map key := by
  have permuted : (placeAll key first items).Perm (placeAll key second items) :=
    (placeAll_perm key first items).trans
      ((same.append_right items).trans (placeAll_perm key second items).symm)
  rw [offerAll_eq key first full, offerAll_eq key second full, List.map_take, List.map_take,
    sorted_keys_eq permuted (placeAll_sorted key first sorted) (placeAll_sorted key second sorted)]

/-- Nor do the items below a bound that some kept key reaches. -/
theorem offerAll_below_perm (same : first.Perm second) (sorted : Sorted key items)
    (full : items.length = k) {kept : ρ} (member : kept ∈ offerAll key k first items) {bound : α}
    (small : bound ≤ key kept) :
    ((offerAll key k first items).filter fun item => key item < bound).Perm
      ((offerAll key k second items).filter fun item => key item < bound) := by
  have permuted : (placeAll key first items).Perm (placeAll key second items) :=
    (placeAll_perm key first items).trans
      ((same.append_right items).trans (placeAll_perm key second items).symm)
  have keyMember : key kept ∈ (offerAll key k second items).map key := by
    rw [← offerAll_keys_eq same sorted full]
    exact List.mem_map_of_mem member
  obtain ⟨other, otherMember, otherKey⟩ := List.mem_map.mp keyMember
  rw [offerAll_eq key first full] at member ⊢
  rw [offerAll_eq key second full] at otherMember ⊢
  rw [filter_take_of_sorted (placeAll_sorted key first sorted) member small,
    filter_take_of_sorted (placeAll_sorted key second sorted) otherMember
      (le_of_le_of_eq small otherKey.symm)]
  exact permuted.filter _

end Streams

end Foundation.TopK
