/-
A heap whose blocks are allocated, read and freed one by one.

The address of a block is the number of its allocation, so no address is used
twice.  Reading or freeing what is not live is undefined and returns `none`.
The live blocks are accounted for by a list of the addresses that somebody
holds, none of them twice: an allocation adds to the list, a free takes from
it, and what is in it when nobody is left has leaked.
-/

import Mathlib.Data.List.Perm.Basic
import Mathlib.Data.List.Nodup

namespace Foundation

structure Heap (α : Type) where
  blocks : List (Option α)
deriving DecidableEq

namespace Heap

variable {α : Type}

/-- What a live block holds. -/
def read (heap : Heap α) (address : Nat) : Option α := heap.blocks[address]?.join

def alloc (heap : Heap α) (value : α) : Heap α × Nat :=
  (⟨heap.blocks ++ [some value]⟩, heap.blocks.length)

def free (heap : Heap α) (address : Nat) : Option (Heap α) :=
  match heap.read address with
  | none => none
  | some _ => some ⟨heap.blocks.set address none⟩

/-- Free one block after the other. -/
def freeAll (heap : Heap α) : List Nat → Option (Heap α)
  | [] => some heap
  | address :: rest =>
      match heap.free address with
      | none => none
      | some next => next.freeAll rest

/-- The live blocks are those in the list, which has none of them twice. -/
structure Owns (heap : Heap α) (held : List Nat) : Prop where
  nodup : held.Nodup
  live : ∀ address, address ∈ held ↔ (heap.read address).isSome = true

variable {heap next : Heap α} {held rest : List Nat} {address other : Nat}

theorem Owns.perm {also : List Nat} (owns : heap.Owns held) (same : held.Perm also) :
    heap.Owns also := by
  constructor
  · exact same.nodup_iff.mp owns.nodup
  · intro address
    rw [← owns.live address]
    exact same.mem_iff.symm

theorem read_alloc_self (heap : Heap α) (value : α) :
    (heap.alloc value).1.read (heap.alloc value).2 = some value := by
  unfold read alloc
  dsimp only
  rw [List.getElem?_concat_length]
  rfl

theorem read_alloc_of_ne (heap : Heap α) (value : α) (apart : address ≠ (heap.alloc value).2) :
    (heap.alloc value).1.read address = heap.read address := by
  unfold read alloc at *
  dsimp only at *
  rcases Nat.lt_or_gt_of_ne apart with inside | beyond
  · rw [List.getElem?_append_left inside]
  · have old : heap.blocks[address]? = none := List.getElem?_eq_none_iff.mpr (by omega)
    have new : (heap.blocks ++ [some value])[address]? = none := by
      apply List.getElem?_eq_none_iff.mpr
      rw [List.length_append, List.length_singleton]
      omega
    rw [old, new]

/-- The address of the next block is that of no live one. -/
theorem read_next (heap : Heap α) (value : α) : heap.read (heap.alloc value).2 = none := by
  unfold read alloc
  dsimp only
  rw [List.getElem?_eq_none_iff.mpr (Nat.le_refl _)]
  rfl

theorem read_alloc_of_live (heap : Heap α) (value : α) (live : (heap.read address).isSome = true) :
    (heap.alloc value).1.read address = heap.read address := by
  apply read_alloc_of_ne
  intro same
  rw [same, read_next] at live
  cases live

theorem Owns.alloc (owns : heap.Owns held) (value : α) :
    (heap.alloc value).1.Owns ((heap.alloc value).2 :: held) := by
  constructor
  · apply List.nodup_cons.mpr
    constructor
    · intro member
      have live := (owns.live _).mp member
      rw [read_next] at live
      cases live
    · exact owns.nodup
  · intro address
    rw [List.mem_cons]
    by_cases new : address = (heap.alloc value).2
    · rw [new, read_alloc_self]
      exact ⟨fun _ => rfl, fun _ => Or.inl rfl⟩
    · rw [read_alloc_of_ne heap value new, ← owns.live address]
      exact ⟨fun either => either.resolve_left new, Or.inr⟩

theorem read_of_free (freed : heap.free address = some next) :
    next.read address = none ∧ ∀ other, other ≠ address → next.read other = heap.read other := by
  unfold free at freed
  split at freed
  · cases freed
  · rename_i value isLive
    cases freed
    unfold read at *
    dsimp only
    constructor
    · rw [List.getElem?_set]
      split
      · split
        · rfl
        · rfl
      · rename_i apart
        exact (apart rfl).elim
    · intro other apart
      rw [List.getElem?_set_ne (Ne.symm apart)]

/-- A held block can be freed, and the others are as they were. -/
theorem Owns.free (owns : heap.Owns (address :: held)) :
    ∃ next, heap.free address = some next ∧ next.Owns held ∧
      ∀ other ∈ held, next.read other = heap.read other := by
  have live := (owns.live address).mp (List.mem_cons_self ..)
  obtain ⟨value, found⟩ := Option.isSome_iff_exists.mp live
  have freed : heap.free address = some ⟨heap.blocks.set address none⟩ := by
    unfold Heap.free
    rw [found]
  obtain ⟨gone, kept⟩ := read_of_free freed
  obtain ⟨notHeld, nodup⟩ := List.nodup_cons.mp owns.nodup
  refine ⟨_, freed, ⟨nodup, ?_⟩, ?_⟩
  · intro other
    by_cases same : other = address
    · rw [same, gone]
      constructor
      · intro member
        exact (notHeld member).elim
      · intro impossible
        cases impossible
    · rw [kept other same, ← owns.live other, List.mem_cons]
      exact ⟨Or.inr, fun either => either.resolve_left same⟩
  · intro other member
    apply kept
    intro same
    exact notHeld (same ▸ member)

theorem Owns.freeAll {freed : List Nat} (owns : heap.Owns (freed ++ held)) :
    ∃ next, heap.freeAll freed = some next ∧ next.Owns held ∧
      ∀ other ∈ held, next.read other = heap.read other := by
  induction freed generalizing heap with
  | nil => exact ⟨heap, rfl, owns, fun _ _ => rfl⟩
  | cons address rest ih =>
      obtain ⟨middle, freedHead, owned, kept⟩ := Owns.free owns
      obtain ⟨next, freedRest, ownsNext, keptRest⟩ := ih owned
      refine ⟨next, ?_, ownsNext, ?_⟩
      · rw [Heap.freeAll, freedHead]
        exact freedRest
      · intro other member
        exact (keptRest other member).trans (kept other (List.mem_append_right rest member))

/-! ### Pointers that may be NULL -/

/-- `free` does nothing for NULL. -/
def release (heap : Heap α) : Option Nat → Option (Heap α)
  | none => some heap
  | some address => heap.free address

/-- Follow a pointer; NULL has nothing behind it. -/
def follow (heap : Heap α) : Option Nat → Option (Option α)
  | none => some none
  | some address => (heap.read address).map some

/-- A copy of what is there to be copied. -/
def copy (heap : Heap α) : Option α → Heap α × Option Nat
  | none => (heap, none)
  | some value => ((heap.alloc value).1, some (heap.alloc value).2)

theorem Owns.release {pointer : Option Nat} (owns : heap.Owns (pointer.toList ++ held)) :
    ∃ next, heap.release pointer = some next ∧ next.Owns held ∧
      ∀ other ∈ held, next.read other = heap.read other := by
  cases pointer with
  | none => exact ⟨heap, rfl, owns, fun _ _ => rfl⟩
  | some address => exact Owns.free owns

theorem Owns.follow {pointer : Option Nat} (owns : heap.Owns held)
    (inside : ∀ address ∈ pointer, address ∈ held) :
    heap.follow pointer = some (pointer.bind heap.read) := by
  cases pointer with
  | none => rfl
  | some address =>
      have live := (owns.live address).mp (inside address rfl)
      obtain ⟨value, found⟩ := Option.isSome_iff_exists.mp live
      rw [Heap.follow, Option.bind_some, found, Option.map_some]

theorem Owns.copy (owns : heap.Owns held) (value : Option α) :
    (heap.copy value).1.Owns ((heap.copy value).2.toList ++ held) ∧
      (heap.copy value).2.bind (heap.copy value).1.read = value ∧
      ∀ other ∈ held, (heap.copy value).1.read other = heap.read other := by
  cases value with
  | none => exact ⟨owns, rfl, fun _ _ => rfl⟩
  | some value =>
      refine ⟨owns.alloc value, read_alloc_self heap value, ?_⟩
      intro other member
      exact read_alloc_of_live heap value ((owns.live other).mp member)

end Heap

end Foundation
