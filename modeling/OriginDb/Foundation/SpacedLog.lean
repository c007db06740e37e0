/-
Frames in a log that has bytes of no frame between them.

A side table lists frames by their positions, in increasing order and without
overlap; what stands between two frames is not described.  The layout survives
whatever is appended to the log, and a change inside one frame leaves the
others alone.
-/

import OriginDb.Foundation.FramedLog

namespace Foundation.FramedLog.Codec

variable {α β γ ρ : Type} (codec : Codec α β γ) (position : ρ → Nat) (holds : α → ρ → Prop)

/-- Each row points at a frame of its item, from `low` on and in order. -/
def Spaced (log : List β) : Nat → List α → List ρ → Prop
  | low, [], [] => low ≤ log.length
  | low, item :: items, row :: rows =>
      low ≤ position row ∧ codec.encode item <+: log.drop (position row) ∧ holds item row ∧
        Spaced log (position row + codec.size item) items rows
  | _, _, _ => False

variable {codec position holds} {log : List β} {low : Nat} {items : List α} {rows : List ρ}

/-- A frame found in the log lies inside it. -/
theorem frame_inside {item : α} {start : Nat} (found : codec.encode item <+: log.drop start) :
    start + codec.size item ≤ log.length := by
  have short := found.length_le
  have positive := List.length_pos_iff.mpr (codec.encode_ne_nil item)
  rw [List.length_drop] at short
  unfold size
  omega

/-- Induction along the items and the rows together. -/
@[elab_as_elim]
theorem Spaced.induction
    {motive : ∀ low items rows, codec.Spaced position holds log low items rows → Prop}
    (nil : ∀ low (within : low ≤ log.length), motive low [] [] within)
    (cons : ∀ low item items row rows (start : low ≤ position row)
      (frame : codec.encode item <+: log.drop (position row)) (here : holds item row)
      (later : codec.Spaced position holds log (position row + codec.size item) items rows),
        motive (position row + codec.size item) items rows later →
          motive low (item :: items) (row :: rows) ⟨start, frame, here, later⟩)
    (spaced : codec.Spaced position holds log low items rows) : motive low items rows spaced := by
  induction items generalizing low rows with
  | nil =>
      cases rows with
      | nil => exact nil low spaced
      | cons row rows => cases spaced
  | cons item items ih =>
      cases rows with
      | nil => cases spaced
      | cons row rows =>
          exact cons low item items row rows spaced.1 spaced.2.1 spaced.2.2.1 spaced.2.2.2
            (ih spaced.2.2.2)

theorem Spaced.length_eq (spaced : codec.Spaced position holds log low items rows) :
    rows.length = items.length := by
  induction spaced using Spaced.induction with
  | nil low within => rfl
  | cons low item items row rows start frame here later ih => exact congrArg (· + 1) ih

theorem Spaced.low_le (spaced : codec.Spaced position holds log low items rows) :
    low ≤ log.length := by
  induction spaced using Spaced.induction with
  | nil low within => exact within
  | cons low item items row rows start frame here later ih =>
      have inside := frame_inside frame
      omega

theorem Spaced.imp {other : α → ρ → Prop} (weaken : ∀ item row, holds item row → other item row)
    (spaced : codec.Spaced position holds log low items rows) :
    codec.Spaced position other log low items rows := by
  induction spaced using Spaced.induction with
  | nil low within => exact within
  | cons low item items row rows start frame here later ih =>
      exact ⟨start, frame, weaken item row here, ih⟩

/-- Row by row: its frame is at its position. -/
theorem Spaced.forall₂ (spaced : codec.Spaced position holds log low items rows) :
    List.Forall₂ (fun row item =>
      holds item row ∧ codec.encode item <+: log.drop (position row)) rows items := by
  induction spaced using Spaced.induction with
  | nil low within => exact List.Forall₂.nil
  | cons low item items row rows start frame here later ih =>
      exact List.Forall₂.cons ⟨here, frame⟩ ih

/-- The frames one by one, each with its row, and none reaching into another. -/
theorem Spaced.pairs (spaced : codec.Spaced position holds log low items rows) :
    ∃ pairs : List (ρ × α), pairs.map Prod.fst = rows ∧ pairs.map Prod.snd = items ∧
      (∀ pair ∈ pairs, low ≤ position pair.1 ∧ holds pair.2 pair.1 ∧
        codec.encode pair.2 <+: log.drop (position pair.1)) ∧
      pairs.Pairwise fun first second =>
        position first.1 + codec.size first.2 ≤ position second.1 := by
  induction spaced using Spaced.induction with
  | nil low within => exact ⟨[], rfl, rfl, nofun, List.Pairwise.nil⟩
  | cons low item items row rows start frame here later ih =>
      obtain ⟨pairs, rowsEq, itemsEq, placed, ordered⟩ := ih
      refine ⟨(row, item) :: pairs, ?_, ?_, ?_, List.pairwise_cons.mpr ⟨?_, ordered⟩⟩
      · rw [List.map_cons, rowsEq]
      · rw [List.map_cons, itemsEq]
      · intro pair member
        rcases List.mem_cons.mp member with rfl | inRest
        · exact ⟨start, here, frame⟩
        · obtain ⟨above, rest⟩ := placed pair inRest
          exact ⟨by omega, rest⟩
      · intro other member
        exact (placed other member).1

theorem Spaced.low_le_position (spaced : codec.Spaced position holds log low items rows) :
    ∀ row ∈ rows, low ≤ position row := by
  induction spaced using Spaced.induction with
  | nil low within =>
      intro row member
      cases member
  | cons low item items first rows start frame here later ih =>
      intro row member
      rcases List.mem_cons.mp member with rfl | inRest
      · exact start
      · have beyond := ih row inRest
        omega

/-- No two rows point at the same place. -/
theorem Spaced.increasing (spaced : codec.Spaced position holds log low items rows) :
    rows.Pairwise (fun first second => position first < position second) := by
  induction spaced using Spaced.induction with
  | nil low within => exact List.Pairwise.nil
  | cons low item items row rows start frame here later ih =>
      apply List.Pairwise.cons _ ih
      intro other member
      have beyond := later.low_le_position other member
      have positive := List.length_pos_iff.mpr (codec.encode_ne_nil item)
      unfold size at beyond
      omega

/-- The frames alone are no longer than the log. -/
theorem Spaced.encodeAll_length_le (spaced : codec.Spaced position holds log low items rows) :
    low + (codec.encodeAll items).length ≤ log.length := by
  induction spaced using Spaced.induction with
  | nil low within => exact within
  | cons low item items row rows start frame here later ih =>
      have sizeEq : (codec.encode item).length = codec.size item := rfl
      rw [encodeAll_cons, List.length_append]
      omega

/-- Appending to the log changes nothing. -/
theorem Spaced.append_log (tail : List β)
    (spaced : codec.Spaced position holds log low items rows) :
    codec.Spaced position holds (log ++ tail) low items rows := by
  induction spaced using Spaced.induction with
  | nil low within =>
      change low ≤ (log ++ tail).length
      rw [List.length_append]
      exact Nat.le_add_right_of_le within
  | cons low item items row rows start frame here later ih =>
      have inside := frame_inside frame
      refine ⟨start, ?_, here, ih⟩
      rw [List.drop_append_of_le_length (by omega)]
      exact frame.trans (List.prefix_append _ _)

/-- A frame appended to the log extends the side table. -/
theorem Spaced.snoc (spaced : codec.Spaced position holds log low items rows) (item : α)
    (row : ρ) (here : holds item row) (atEnd : position row = log.length) :
    codec.Spaced position holds (log ++ codec.encode item) low (items ++ [item])
      (rows ++ [row]) := by
  induction spaced using Spaced.induction with
  | nil low within =>
      refine ⟨atEnd ▸ within, ?_, here, ?_⟩
      · rw [atEnd, List.drop_left]
      · change position row + codec.size item ≤ _
        rw [atEnd, List.length_append]
        exact Nat.le_refl _
  | cons low first items firstRow rows start frame firstHolds later ih =>
      have inside := frame_inside frame
      refine ⟨start, ?_, firstHolds, ih⟩
      rw [List.drop_append_of_le_length (by omega)]
      exact frame.trans (List.prefix_append _ _)

/-- The first rows alone. -/
theorem Spaced.take_rows {before after : List ρ}
    (spaced : codec.Spaced position holds log low items (before ++ after)) :
    ∃ first, codec.Spaced position holds log low first before := by
  induction before generalizing low items with
  | nil => exact ⟨[], spaced.low_le⟩
  | cons row before ih =>
      cases items with
      | nil => cases spaced
      | cons item items =>
          rcases spaced with ⟨start, frame, here, later⟩
          obtain ⟨first, earlier⟩ := ih later
          exact ⟨item :: first, start, frame, here, earlier⟩

/-- A row splits the items at its own. -/
theorem Spaced.split {before after : List ρ} {row : ρ}
    (spaced : codec.Spaced position holds log low items (before ++ row :: after)) :
    ∃ first item second, items = first ++ item :: second ∧ before.length = first.length ∧
      holds item row ∧ codec.encode item <+: log.drop (position row) := by
  induction before generalizing low items with
  | nil =>
      cases items with
      | nil => cases spaced
      | cons item items =>
          rcases spaced with ⟨-, frame, here, -⟩
          exact ⟨[], item, items, rfl, rfl, here, frame⟩
  | cons head before ih =>
      cases items with
      | nil => cases spaced
      | cons item items =>
          rcases spaced with ⟨-, -, -, later⟩
          obtain ⟨first, found, second, rfl, lengthEq, here, frame⟩ := ih later
          exact ⟨item :: first, found, second, rfl, congrArg (· + 1) lengthEq, here, frame⟩

/-- Frames that end before a changed symbol are still there. -/
theorem frame_of_set_after {item : α} {start index : Nat} {symbol : β}
    (found : codec.encode item <+: log.drop start) (after : start + codec.size item ≤ index) :
    codec.encode item <+: (log.set index symbol).drop start := by
  have positive := List.length_pos_iff.mpr (codec.encode_ne_nil item)
  unfold size at after
  rw [List.drop_set, if_neg (by omega), List.prefix_iff_eq_take,
    List.take_set_of_le (by omega)]
  exact List.prefix_iff_eq_take.mp found

/-- Frames that start after a changed symbol are still there. -/
theorem Spaced.set_before {index : Nat} {symbol : β} (before : index < low)
    (spaced : codec.Spaced position holds log low items rows) :
    codec.Spaced position holds (log.set index symbol) low items rows := by
  induction spaced using Spaced.induction with
  | nil low within =>
      change low ≤ (log.set index symbol).length
      rw [List.length_set]
      exact within
  | cons low item items row rows start frame here later ih =>
      refine ⟨start, ?_, here, ih (by omega)⟩
      rw [List.drop_set_of_lt (by omega)]
      exact frame

/-- A change inside one frame turns its item and its row into others of the same
place and size, and leaves the rest. -/
theorem Spaced.update {first second : List α} {item item' : α} {before after : List ρ}
    {row row' : ρ} {index : Nat} {symbol : β}
    (sameLength : before.length = first.length)
    (spaced : codec.Spaced position holds log low (first ++ item :: second)
      (before ++ row :: after))
    (inside : position row ≤ index) (insideEnd : index < position row + codec.size item)
    (samePosition : position row' = position row) (sameSize : codec.size item' = codec.size item)
    (frame' : codec.encode item' <+: (log.set index symbol).drop (position row))
    (here' : holds item' row') :
    codec.Spaced position holds (log.set index symbol) low (first ++ item' :: second)
      (before ++ row' :: after) := by
  induction first generalizing low before with
  | nil =>
      rw [List.eq_nil_of_length_eq_zero sameLength] at spaced ⊢
      rcases spaced with ⟨start, -, -, later⟩
      refine ⟨samePosition ▸ start, samePosition ▸ frame', here', ?_⟩
      rw [samePosition, sameSize]
      exact later.set_before insideEnd
  | cons head first ih =>
      cases before with
      | nil => cases sameLength
      | cons headRow before =>
          rcases spaced with ⟨start, frame, here, later⟩
          have beyond := later.low_le_position row (by simp)
          exact ⟨start, frame_of_set_after frame (by omega), here,
            ih (Nat.succ.inj sameLength) later⟩

/-- Changing a row at its place. -/
theorem Spaced.update_row {first second : List α} {item : α} {before after : List ρ}
    {row row' : ρ} (sameLength : before.length = first.length)
    (spaced : codec.Spaced position holds log low (first ++ item :: second)
      (before ++ row :: after))
    (samePosition : position row' = position row) (here' : holds item row') :
    codec.Spaced position holds log low (first ++ item :: second) (before ++ row' :: after) := by
  induction first generalizing low before with
  | nil =>
      rw [List.eq_nil_of_length_eq_zero sameLength] at spaced ⊢
      rcases spaced with ⟨start, frame, -, later⟩
      exact ⟨samePosition ▸ start, samePosition ▸ frame, here', samePosition ▸ later⟩
  | cons head first ih =>
      cases before with
      | nil => cases sameLength
      | cons headRow before =>
          rcases spaced with ⟨start, frame, here, later⟩
          exact ⟨start, frame, here, ih (Nat.succ.inj sameLength) later⟩

/-- Frames that fill the log stand without gaps. -/
theorem Spaced.tracks_of_full (spaced : codec.Spaced position holds log low items rows)
    (full : log.length = low + (codec.encodeAll items).length) :
    log.drop low = codec.encodeAll items ∧
      codec.Tracks (fun start item row => position row = start ∧ holds item row) low items
        rows := by
  induction spaced using Spaced.induction with
  | nil low within =>
      constructor
      · exact List.drop_eq_nil_of_le (Nat.le_of_eq full)
      · trivial
  | cons low item items row rows start frame here later ih =>
      have fits := later.encodeAll_length_le
      have sizeEq : (codec.encode item).length = codec.size item := rfl
      rw [encodeAll_cons, List.length_append] at full
      have atLow : position row = low := by omega
      obtain ⟨tail, tracks⟩ := ih (by omega)
      rw [atLow] at frame tail tracks
      constructor
      · rw [List.prefix_iff_eq_append, sizeEq, List.drop_drop, tail] at frame
        rw [encodeAll_cons, frame]
      · exact ⟨⟨atLow, here⟩, tracks⟩

/-- A log of frames without gaps. -/
theorem Tracks.spaced {held : Nat → α → ρ → Prop} {before : List β}
    (tracks : codec.Tracks held before.length items rows)
    (places : ∀ start item row, held start item row → position row = start ∧ holds item row) :
    codec.Spaced position holds (before ++ codec.encodeAll items) before.length items rows := by
  generalize startEq : before.length = start at tracks ⊢
  induction tracks using Tracks.induction generalizing before with
  | nil start =>
      change start ≤ (before ++ _).length
      rw [List.length_append, startEq]
      exact Nat.le_add_right _ _
  | cons start item items row rows atStart later ih =>
      obtain ⟨positionEq, here⟩ := places start item row atStart
      have lengthEq : (before ++ codec.encode item).length = start + codec.size item := by
        rw [List.length_append, startEq]
        rfl
      have rest := ih lengthEq
      rw [List.append_assoc] at rest
      refine ⟨Nat.le_of_eq positionEq.symm, ?_, here, positionEq ▸ rest⟩
      rw [positionEq, ← startEq, List.drop_left]
      exact List.prefix_append _ _

end Foundation.FramedLog.Codec
