/-
Sorting and searching with a comparator that returns a sign.

`Sorts` and `Searches` state what a sort and a search of an array promise as long as the
comparator is a total order.  Together they make the search of a sorted array a test of
membership in what was sorted.  Insertion sort and binary search keep the promises.
-/

import Mathlib.Data.List.Sort

namespace Foundation.Comparator

variable {α : Type}

/-- The signs are those of a total order. -/
structure TotalOrder (cmp : α → α → Int) : Prop where
  zero_iff : ∀ first second, cmp first second = 0 ↔ first = second
  reverse : ∀ first second, cmp first second < 0 ↔ 0 < cmp second first
  trans : ∀ first second third, cmp first second ≤ 0 → cmp second third ≤ 0 →
    cmp first third ≤ 0

def Ordered (cmp : α → α → Int) (items : List α) : Prop :=
  items.Pairwise fun first second => cmp first second ≤ 0

/-- The items below the key come first, then those equal to it, then those above. -/
def Partitioned (cmp : α → α → Int) (key : α) (items : List α) : Prop :=
  items.Pairwise fun first second =>
    (cmp key first ≤ 0 → cmp key second ≤ 0) ∧ (cmp key first < 0 → cmp key second < 0)

def Sorts (sort : (α → α → Int) → List α → List α) : Prop :=
  ∀ cmp, TotalOrder cmp → ∀ items, (sort cmp items).Perm items ∧ Ordered cmp (sort cmp items)

/-- The search returns the index of an item equal to the key, any one of them, or nothing
where there is none. -/
def Searches (search : (α → α → Int) → α → List α → Option Nat) : Prop :=
  ∀ cmp, TotalOrder cmp → ∀ key items, Partitioned cmp key items →
    (∀ index, search cmp key items = some index →
      ∃ item, items[index]? = some item ∧ cmp key item = 0) ∧
    (search cmp key items = none → ∀ item ∈ items, cmp key item ≠ 0)

section Order

variable {cmp : α → α → Int} (total : TotalOrder cmp)
include total

theorem TotalOrder.pos_iff (first second : α) : 0 < cmp first second ↔ cmp second first < 0 :=
  (total.reverse second first).symm

theorem TotalOrder.le_or_le (first second : α) : cmp first second ≤ 0 ∨ cmp second first ≤ 0 := by
  by_cases behind : 0 < cmp first second
  · exact Or.inr (Int.le_of_lt ((total.pos_iff first second).mp behind))
  · exact Or.inl (Int.not_lt.mp behind)

theorem TotalOrder.refl (item : α) : cmp item item = 0 :=
  (total.zero_iff item item).mpr rfl

/-- What comes before an item comes before those that are not before it. -/
theorem TotalOrder.lt_of_lt_of_le {first second third : α} (before : cmp first second < 0)
    (notBehind : cmp second third ≤ 0) : cmp first third < 0 := by
  have upTo := total.trans first second third (Int.le_of_lt before) notBehind
  have different : cmp first third ≠ 0 := by
    intro zero
    rw [← (total.zero_iff first third).mp zero] at notBehind
    exact Int.not_lt.mpr notBehind ((total.reverse first second).mp before)
  exact Int.lt_iff_le_and_ne.mpr ⟨upTo, different⟩

theorem Ordered.partitioned {items : List α} (ordered : Ordered cmp items) (key : α) :
    Partitioned cmp key items := by
  apply List.Pairwise.imp _ ordered
  intro first second notBehind
  constructor
  · exact fun upTo => total.trans key first second upTo notBehind
  · exact fun before => total.lt_of_lt_of_le before notBehind

end Order

/-! ### Search after sort -/

/-- In an ordered array the search tells membership. -/
theorem Searches.isSome_iff_mem {search : (α → α → Int) → α → List α → Option Nat}
    (searches : Searches search) {cmp : α → α → Int} (total : TotalOrder cmp) {items : List α}
    (ordered : Ordered cmp items) (key : α) :
    (search cmp key items).isSome = true ↔ key ∈ items := by
  obtain ⟨found, missed⟩ := searches cmp total key items (ordered.partitioned total key)
  cases searched : search cmp key items with
  | none =>
      apply iff_of_false Bool.false_ne_true
      intro member
      exact missed searched key member (total.refl key)
  | some index =>
      obtain ⟨item, atIndex, zero⟩ := found index searched
      rw [(total.zero_iff key item).mp zero]
      exact iff_of_true rfl (List.mem_of_getElem? atIndex)

/-- Searching what has been sorted. -/
theorem Searches.sorted_isSome_iff_mem {search : (α → α → Int) → α → List α → Option Nat}
    {sort : (α → α → Int) → List α → List α} (searches : Searches search) (sorts : Sorts sort)
    {cmp : α → α → Int} (total : TotalOrder cmp) (items : List α) (key : α) :
    (search cmp key (sort cmp items)).isSome = true ↔ key ∈ items := by
  obtain ⟨perm, ordered⟩ := sorts cmp total items
  rw [searches.isSome_iff_mem total ordered, perm.mem_iff]

/-! ### Insertion sort -/

def insertionSort (cmp : α → α → Int) (items : List α) : List α :=
  items.insertionSort fun first second => cmp first second ≤ 0

theorem insertionSort_sorts : Sorts (@insertionSort α) := by
  intro cmp total items
  have isTotal : Std.Total fun first second => cmp first second ≤ 0 := ⟨total.le_or_le⟩
  have isTrans : IsTrans α fun first second => cmp first second ≤ 0 := ⟨total.trans⟩
  constructor
  · exact List.perm_insertionSort _ items
  · exact List.pairwise_insertionSort (fun first second => cmp first second ≤ 0) items

/-! ### Binary search -/

/-- The search of the index range `[low, high)`. -/
def searchRange (cmp : α → α → Int) (key : α) (items : List α) : Nat → Nat → Nat → Option Nat
  | 0, _, _ => none
  | fuel + 1, low, high =>
      if low < high then
        let middle := (low + high) / 2
        match items[middle]? with
        | none => none
        | some item =>
            if cmp key item < 0 then searchRange cmp key items fuel low middle
            else if 0 < cmp key item then searchRange cmp key items fuel (middle + 1) high
            else some middle
      else none

def binarySearch (cmp : α → α → Int) (key : α) (items : List α) : Option Nat :=
  searchRange cmp key items (items.length + 1) 0 items.length

variable {cmp : α → α → Int} {key : α} {items : List α} {fuel low high : Nat}

theorem searchRange_sound {index : Nat}
    (found : searchRange cmp key items fuel low high = some index) :
    ∃ item, items[index]? = some item ∧ cmp key item = 0 := by
  induction fuel generalizing low high with
  | zero => cases found
  | succ fuel ih =>
      rw [searchRange] at found
      split at found
      · dsimp only at found
        split at found
        · cases found
        · next item atMiddle =>
            split at found
            · exact ih found
            · next notBefore =>
                split at found
                · exact ih found
                · next notBehind =>
                    cases found
                    exact ⟨item, atMiddle, Int.le_antisymm (Int.not_lt.mp notBehind)
                      (Int.not_lt.mp notBefore)⟩
      · cases found

/-- The range keeps every index that holds the key. -/
theorem searchRange_complete (partitioned : Partitioned cmp key items) {position : Nat} {item : α}
    (above : low ≤ position) (below : position < high) (inside : high ≤ items.length)
    (enough : high - low < fuel) (held : items[position]? = some item) (zero : cmp key item = 0) :
    (searchRange cmp key items fuel low high).isSome = true := by
  induction fuel generalizing low high with
  | zero => omega
  | succ fuel ih =>
      have middleInside : (low + high) / 2 < items.length := by omega
      have positionInside : position < items.length := by omega
      have itemEq : items[position] = item :=
        Option.some.inj ((List.getElem?_eq_getElem positionInside).symm.trans held)
      have split := List.pairwise_iff_getElem.mp partitioned
      rw [searchRange, if_pos (by omega)]
      dsimp only
      rw [List.getElem?_eq_getElem middleInside]
      dsimp only
      by_cases before : cmp key items[(low + high) / 2] < 0
      · rw [if_pos before]
        have earlier : position < (low + high) / 2 := by
          by_contra notEarlier
          rcases Nat.eq_or_lt_of_le (Nat.le_of_not_lt notEarlier) with same | later
          · simp only [same, itemEq, zero] at before
            exact Int.lt_irrefl 0 before
          · have stillBefore := (split _ position middleInside positionInside later).2 before
            rw [itemEq, zero] at stillBefore
            exact Int.lt_irrefl 0 stillBefore
        exact ih above earlier (by omega) (by omega)
      · rw [if_neg before]
        by_cases behind : 0 < cmp key items[(low + high) / 2]
        · rw [if_pos behind]
          have later : (low + high) / 2 < position := by
            by_contra notLater
            rcases Nat.eq_or_lt_of_le (Nat.le_of_not_lt notLater) with same | earlier
            · simp only [← same, itemEq, zero] at behind
              exact Int.lt_irrefl 0 behind
            · have upTo := (split position _ positionInside middleInside earlier).1
              rw [itemEq, zero] at upTo
              exact Int.not_lt.mpr (upTo (Int.le_refl 0)) behind
          exact ih (by omega) below inside (by omega)
        · rw [if_neg behind]
          rfl

theorem binarySearch_searches : Searches (@binarySearch α) := by
  intro cmp _ key items partitioned
  constructor
  · intro index found
    exact searchRange_sound found
  · intro missed item member zero
    obtain ⟨position, held⟩ := List.mem_iff_getElem?.mp member
    obtain ⟨inside, -⟩ := List.getElem?_eq_some_iff.mp held
    have found := searchRange_complete partitioned (Nat.zero_le position) inside
      (Nat.le_refl _) (by omega : items.length - 0 < items.length + 1) held zero
    rw [show searchRange cmp key items _ _ _ = none from missed] at found
    cases found

end Foundation.Comparator
