/-
Append-only logs of self-delimiting frames.

A codec lays out every item as one frame of bytes and reads one frame at a
byte position.  Its laws say that a complete frame is read as the entry its
item makes at that position, and that nothing is read from a frame cut short
or at the end of the log.  From these laws the module derives what a
sequential scan of a log sees: the longest run of whole frames, each at the sum
of the frame sizes before it, wherever the log is cut.

Logs are only described below a fixed length `bound`; readers that compute
positions in machine words meet their laws only there.
-/

import Mathlib.Algebra.GroupWithZero.Nat
import Mathlib.Data.List.Basic
import Mathlib.Data.List.Infix

namespace Foundation.FramedLog

/-- Items of type `α` are laid out in symbols of type `β` and read as entries
of type `γ`.  A read returns the entry and the position after its frame. -/
structure Codec (α β γ : Type) where
  encode : α → List β
  entry : Nat → α → γ
  bound : Nat
  read : List β → Nat → Option (γ × Nat)
  encode_ne_nil : ∀ item, encode item ≠ []
  read_frame : ∀ before item after,
    (before ++ encode item ++ after).length < bound →
      read (before ++ encode item ++ after) before.length =
        some (entry before.length item, before.length + (encode item).length)
  read_cut : ∀ before item kept,
    kept < (encode item).length →
    (before ++ encode item).length < bound →
      read (before ++ (encode item).take kept) before.length = none
  read_end : ∀ file, file.length < bound → read file file.length = none

namespace Codec

variable {α β γ : Type} (codec : Codec α β γ)

def size (item : α) : Nat := (codec.encode item).length

def encodeAll (items : List α) : List β := items.flatMap codec.encode

def entries : Nat → List α → List γ
  | _, [] => []
  | start, item :: rest => codec.entry start item :: entries (start + codec.size item) rest

/-- The longest run of leading items whose frames fit in `room` bytes. -/
def fitting : Nat → List α → List α
  | _, [] => []
  | room, item :: rest =>
      if codec.size item ≤ room then
        item :: fitting (room - codec.size item) rest
      else []

/-- Read frames one after the other until the reader stops.  `none` is a scan
that has not stopped within the given number of reads. -/
def scan (file : List β) : Nat → Nat → Option (List γ)
  | 0, _ => none
  | fuel + 1, position =>
      match codec.read file position with
      | none => some []
      | some (entry, next) => (scan file fuel next).map (List.cons entry)

@[simp] theorem encodeAll_nil : codec.encodeAll [] = [] := rfl

@[simp] theorem encodeAll_cons (item : α) (rest : List α) :
    codec.encodeAll (item :: rest) = codec.encode item ++ codec.encodeAll rest := rfl

@[simp] theorem encodeAll_append (first second : List α) :
    codec.encodeAll (first ++ second) =
      codec.encodeAll first ++ codec.encodeAll second :=
  List.flatMap_append

theorem encodeAll_length (items : List α) :
    (codec.encodeAll items).length = (items.map codec.size).sum := by
  induction items with
  | nil => rfl
  | cons item rest ih =>
      simp only [encodeAll_cons, List.length_append, ih, List.map_cons, List.sum_cons, size]

/-- The bytes around the frame at an index. -/
theorem encodeAll_split (items : List α) (index : Nat) (item : α)
    (found : items[index]? = some item) :
    codec.encodeAll items =
      codec.encodeAll (items.take index) ++ codec.encode item ++
        codec.encodeAll (items.drop (index + 1)) := by
  have split : items = items.take index ++ item :: items.drop (index + 1) := by
    obtain ⟨inside, rfl⟩ := List.getElem?_eq_some_iff.mp found
    rw [← List.drop_eq_getElem_cons inside, List.take_append_drop]
  have encoded := congrArg codec.encodeAll split
  rw [encodeAll_append, encodeAll_cons, ← List.append_assoc] at encoded
  exact encoded

theorem encodeAll_isPrefix {first second : List α} (isPrefix : first <+: second) :
    codec.encodeAll first <+: codec.encodeAll second := by
  rcases isPrefix with ⟨rest, rfl⟩
  exact ⟨codec.encodeAll rest, (codec.encodeAll_append first rest).symm⟩

theorem size_le_encodeAll {items : List α} {item : α} (member : item ∈ items) :
    codec.size item ≤ (codec.encodeAll items).length := by
  induction items with
  | nil => cases member
  | cons head rest ih =>
      simp only [encodeAll_cons, List.length_append]
      rcases List.mem_cons.mp member with rfl | later
      · exact Nat.le_add_right _ _
      · exact Nat.le_trans (ih later) (Nat.le_add_left _ _)

/-- No frame is empty. -/
theorem length_le_encodeAll (items : List α) : items.length ≤ (codec.encodeAll items).length := by
  induction items with
  | nil => exact Nat.le_refl _
  | cons item rest ih =>
      have positive := List.length_pos_iff.mpr (codec.encode_ne_nil item)
      rw [encodeAll_cons, List.length_append, List.length_cons]
      omega

/-- Dropping items never makes a log longer. -/
theorem encodeAll_length_le_of_sublist {some all : List α} (sublist : some.Sublist all) :
    (codec.encodeAll some).length ≤ (codec.encodeAll all).length := by
  induction sublist with
  | slnil => exact Nat.le_refl _
  | cons item _ ih =>
      simp only [encodeAll_cons, List.length_append]
      omega
  | cons_cons item _ ih =>
      simp only [encodeAll_cons, List.length_append]
      omega

theorem entries_length (start : Nat) (items : List α) :
    (codec.entries start items).length = items.length := by
  induction items generalizing start with
  | nil => rfl
  | cons item rest ih => simp only [entries, List.length_cons, ih]

/-- The entry at an index is that of the item there, at the sum of the sizes
of the frames before it. -/
theorem entries_getElem? (start : Nat) (items : List α) (index : Nat) :
    (codec.entries start items)[index]? =
      items[index]?.map
        (codec.entry (start + (codec.encodeAll (items.take index)).length)) := by
  induction items generalizing start index with
  | nil => simp only [entries, List.getElem?_nil, Option.map_none]
  | cons item rest ih =>
      cases index with
      | zero => simp only [entries, List.getElem?_cons_zero, List.take_zero, encodeAll_nil,
          List.length_nil, Nat.add_zero, Option.map_some]
      | succ index =>
          simp only [entries, List.getElem?_cons_succ, ih, List.take_succ_cons, encodeAll_cons,
            List.length_append, size, Nat.add_assoc]

theorem fitting_isPrefix (room : Nat) (items : List α) :
    codec.fitting room items <+: items := by
  induction items generalizing room with
  | nil => exact List.prefix_rfl
  | cons item rest ih =>
      simp only [fitting]
      split
      · exact List.cons_prefix_cons.mpr ⟨rfl, ih _⟩
      · exact List.nil_prefix

theorem fitting_size_le (room : Nat) (items : List α) :
    (codec.encodeAll (codec.fitting room items)).length ≤ room := by
  induction items generalizing room with
  | nil => exact Nat.zero_le _
  | cons item rest ih =>
      simp only [fitting]
      split
      · rename_i fits
        have remaining := ih (room - codec.size item)
        have frameSize : (codec.encode item).length = codec.size item := rfl
        simp only [encodeAll_cons, List.length_append]
        omega
      · exact Nat.zero_le _

/-- No longer run of leading items fits. -/
theorem prefix_fitting_of_size_le (room : Nat) (items run : List α)
    (isRun : run <+: items) (fits : (codec.encodeAll run).length ≤ room) :
    run <+: codec.fitting room items := by
  induction items generalizing room run with
  | nil =>
      rw [List.prefix_nil.mp isRun]
      exact List.nil_prefix
  | cons item rest ih =>
      cases run with
      | nil => exact List.nil_prefix
      | cons first later =>
          obtain ⟨rfl, laterRun⟩ := List.cons_prefix_cons.mp isRun
          simp only [encodeAll_cons, List.length_append] at fits
          have firstFits : codec.size first ≤ room := by
            unfold size
            omega
          simp only [fitting, if_pos firstFits]
          refine List.cons_prefix_cons.mpr ⟨rfl, ih _ later laterRun ?_⟩
          unfold size
          omega

theorem fitting_of_size_le (room : Nat) (items : List α)
    (fits : (codec.encodeAll items).length ≤ room) :
    codec.fitting room items = items := by
  have whole := codec.prefix_fitting_of_size_le room items items List.prefix_rfl fits
  exact (codec.fitting_isPrefix room items).eq_of_length_le whole.length_le

/-- Frames followed by a part of one more frame fit up to that part. -/
theorem fitting_append_cut (items : List α) (torn : α) (kept : Nat)
    (cut : kept < (codec.encode torn).length) :
    codec.fitting ((codec.encodeAll items).length + kept) (items ++ [torn]) = items := by
  induction items with
  | nil =>
      have tooLong : ¬codec.size torn ≤ kept := by
        unfold size
        omega
      simp only [encodeAll_nil, List.length_nil, Nat.zero_add, List.nil_append, fitting,
        if_neg tooLong]
  | cons item rest ih =>
      have fits : codec.size item ≤
          (codec.encode item ++ codec.encodeAll rest).length + kept := by
        simp only [List.length_append, size]
        omega
      have remaining : (codec.encode item ++ codec.encodeAll rest).length + kept -
          codec.size item = (codec.encodeAll rest).length + kept := by
        simp only [List.length_append, size]
        omega
      simp only [List.cons_append, encodeAll_cons, fitting, if_pos fits, remaining, ih]

/-! ### Scanning a log that is cut anywhere -/

/-- A scan that starts at the boundary after `before` and finds the first
`room` bytes of the frames of `items` there returns the fitting items.  The
induction is on the items still ahead of the cursor. -/
theorem scan_take (before : List β) (items : List α) (room fuel : Nat)
    (cut : room ≤ (codec.encodeAll items).length)
    (short : (before ++ codec.encodeAll items).length < codec.bound)
    (enough : (codec.fitting room items).length < fuel) :
    codec.scan (before ++ (codec.encodeAll items).take room) fuel before.length =
      some (codec.entries before.length (codec.fitting room items)) := by
  induction items generalizing before room fuel with
  | nil =>
      obtain ⟨fuel, rfl⟩ := Nat.exists_eq_succ_of_ne_zero (Nat.ne_of_gt (Nat.zero_lt_of_lt enough))
      simp only [encodeAll_nil, List.take_nil, List.append_nil] at short ⊢
      simp only [scan, codec.read_end before short, fitting, entries]
  | cons item rest ih =>
      obtain ⟨fuel, rfl⟩ := Nat.exists_eq_succ_of_ne_zero (Nat.ne_of_gt (Nat.zero_lt_of_lt enough))
      by_cases fits : codec.size item ≤ room
      · have split : (codec.encodeAll (item :: rest)).take room =
            codec.encode item ++ (codec.encodeAll rest).take (room - codec.size item) := by
          rw [encodeAll_cons, List.take_append, List.take_of_length_le (by exact fits)]
          rfl
        have boundary : (before ++ codec.encode item).length =
            before.length + (codec.encode item).length :=
          List.length_append
        rw [encodeAll_cons, ← List.append_assoc] at short
        rw [split, ← List.append_assoc]
        simp only [fitting, if_pos fits, List.length_cons, Nat.succ_lt_succ_iff] at enough ⊢
        have restCut : room - codec.size item ≤ (codec.encodeAll rest).length := by
          simp only [encodeAll_cons, List.length_append] at cut
          unfold size
          omega
        have later := ih (before ++ codec.encode item) (room - codec.size item) fuel
          restCut short enough
        have head := codec.read_frame before item
          ((codec.encodeAll rest).take (room - codec.size item)) (by
            simp only [List.length_append, List.length_take] at short ⊢
            omega)
        rw [boundary] at later
        simp only [scan, head, later, Option.map_some, entries]
        rfl
      · have cutInside : (codec.encodeAll (item :: rest)).take room =
            (codec.encode item).take room := by
          rw [encodeAll_cons, List.take_append_of_le_length]
          unfold size at fits
          omega
        rw [cutInside]
        have stopped := codec.read_cut before item room (by unfold size at fits; omega) (by
          simp only [encodeAll_cons, List.length_append] at short ⊢
          omega)
        simp only [scan, stopped, fitting, if_neg fits, entries]

/-- A scan of a log with a torn frame at its end returns the whole frames. -/
theorem scan_torn (items : List α) (torn : α) (kept fuel : Nat)
    (cut : kept < (codec.encode torn).length)
    (short : (codec.encodeAll items ++ codec.encode torn).length < codec.bound)
    (enough : items.length < fuel) :
    codec.scan (codec.encodeAll items ++ (codec.encode torn).take kept) fuel 0 =
      some (codec.entries 0 items) := by
  have whole : (codec.encodeAll (items ++ [torn])).take ((codec.encodeAll items).length + kept) =
      codec.encodeAll items ++ (codec.encode torn).take kept := by
    rw [encodeAll_append, List.take_length_add_append]
    simp only [encodeAll_cons, encodeAll_nil, List.append_nil]
  have fits := codec.fitting_append_cut items torn kept cut
  have scanned := codec.scan_take [] (items ++ [torn]) ((codec.encodeAll items).length + kept)
    fuel
    (by
      simp only [encodeAll_append, encodeAll_cons, encodeAll_nil, List.append_nil,
        List.length_append]
      omega)
    (by simpa only [List.nil_append, encodeAll_append, encodeAll_cons, encodeAll_nil,
      List.append_nil] using short)
    (by rw [fits]; exact enough)
  rw [whole, fits] at scanned
  simpa only [List.nil_append, List.length_nil] using scanned

/-- A scan of a whole log returns every item, each at its offset. -/
theorem scan_encodeAll (items : List α) (fuel : Nat)
    (short : (codec.encodeAll items).length < codec.bound)
    (enough : items.length < fuel) :
    codec.scan (codec.encodeAll items) fuel 0 = some (codec.entries 0 items) := by
  have whole := codec.fitting_of_size_le (codec.encodeAll items).length items (Nat.le_refl _)
  have scanned := codec.scan_take [] items (codec.encodeAll items).length fuel (Nat.le_refl _)
    (by simpa only [List.nil_append] using short)
    (by rw [whole]; exact enough)
  simpa only [List.nil_append, List.take_length, List.length_nil, whole] using scanned

/-! ### Side tables that track a log -/

variable {ρ : Type}

/-- The rows of a side table stand, one by one and in order, in the relation
`holds` to the items of the log and the positions of their frames. -/
def Tracks (holds : Nat → α → ρ → Prop) : Nat → List α → List ρ → Prop
  | _, [], [] => True
  | start, item :: items, row :: rows =>
      holds start item row ∧ Tracks holds (start + codec.size item) items rows
  | _, _, _ => False

variable {codec} {holds other : Nat → α → ρ → Prop}

/-- Induction along the items and the rows together. -/
@[elab_as_elim]
theorem Tracks.induction {start : Nat} {items : List α} {rows : List ρ}
    {motive : ∀ start items rows, codec.Tracks holds start items rows → Prop}
    (nil : ∀ start, motive start [] [] trivial)
    (cons : ∀ start item items row rows (here : holds start item row)
      (later : codec.Tracks holds (start + codec.size item) items rows),
        motive (start + codec.size item) items rows later →
          motive start (item :: items) (row :: rows) ⟨here, later⟩)
    (tracks : codec.Tracks holds start items rows) : motive start items rows tracks := by
  induction items generalizing start rows with
  | nil =>
      cases rows with
      | nil => exact nil start
      | cons row rows => cases tracks
  | cons item items ih =>
      cases rows with
      | nil => cases tracks
      | cons row rows => exact cons start item items row rows tracks.1 tracks.2 (ih tracks.2)

theorem Tracks.length_eq {start : Nat} {items : List α} {rows : List ρ}
    (tracks : codec.Tracks holds start items rows) : rows.length = items.length := by
  induction tracks using Tracks.induction with
  | nil start => rfl
  | cons start item items row rows here later ih => exact congrArg (· + 1) ih

theorem Tracks.imp {start : Nat} {items : List α} {rows : List ρ}
    (weaken : ∀ position item row, holds position item row → other position item row)
    (tracks : codec.Tracks holds start items rows) :
    codec.Tracks other start items rows := by
  induction tracks using Tracks.induction with
  | nil start => trivial
  | cons start item items row rows here later ih => exact ⟨weaken start item row here, ih⟩

/-- Every frame lies inside the log. -/
theorem Tracks.inside {start : Nat} {items : List α} {rows : List ρ}
    (tracks : codec.Tracks holds start items rows) :
    codec.Tracks (fun position item row => holds position item row ∧
        position + codec.size item ≤ start + (codec.encodeAll items).length)
      start items rows := by
  induction tracks using Tracks.induction with
  | nil start => trivial
  | cons start item items row rows here later ih =>
      have lengthEq : (codec.encodeAll (item :: items)).length =
          codec.size item + (codec.encodeAll items).length := by
        rw [encodeAll_cons, List.length_append]
        rfl
      rw [lengthEq]
      refine ⟨⟨here, by omega⟩, ih.imp ?_⟩
      intro position other row' found
      rcases found with ⟨there, bounded⟩
      exact ⟨there, by omega⟩

/-- The row at an index stands at the end of the frames before it. -/
theorem Tracks.getElem? {start : Nat} {items : List α} {rows : List ρ}
    (tracks : codec.Tracks holds start items rows) {index : Nat} {item : α}
    (found : items[index]? = some item) :
    ∃ row, rows[index]? = some row ∧
      holds (start + (codec.encodeAll (items.take index)).length) item row := by
  induction tracks using Tracks.induction generalizing index with
  | nil start => cases found
  | cons start first items row rows here later ih =>
      cases index with
      | zero =>
          cases Option.some.inj found
          exact ⟨row, rfl, here⟩
      | succ index =>
          obtain ⟨next, nextFound, there⟩ := ih found
          refine ⟨next, nextFound, ?_⟩
          rw [List.take_succ_cons, encodeAll_cons, List.length_append, ← Nat.add_assoc]
          exact there

theorem tracks_append_iff {start : Nat} {first second : List α} {rows more : List ρ}
    (sameLength : rows.length = first.length) :
    codec.Tracks holds start (first ++ second) (rows ++ more) ↔
      codec.Tracks holds start first rows ∧
        codec.Tracks holds (start + (codec.encodeAll first).length) second more := by
  induction first generalizing start rows with
  | nil =>
      rw [List.eq_nil_of_length_eq_zero sameLength]
      simp only [List.nil_append, Tracks, true_and, encodeAll_nil, List.length_nil, Nat.add_zero]
  | cons item items ih =>
      cases rows with
      | nil => cases sameLength
      | cons row rows =>
          simp only [List.cons_append, Tracks, encodeAll_cons, List.length_append]
          rw [ih (Nat.succ.inj sameLength), and_assoc, Nat.add_assoc]
          rfl

theorem tracks_map_iff {τ : Type} {make : τ → ρ} {start : Nat} {items : List α}
    {sources : List τ} :
    codec.Tracks holds start items (sources.map make) ↔
      codec.Tracks (fun position item source => holds position item (make source))
        start items sources := by
  induction items generalizing start sources with
  | nil => cases sources <;> exact Iff.rfl
  | cons item items ih =>
      cases sources with
      | nil => exact Iff.rfl
      | cons source sources => exact and_congr Iff.rfl ih

/-- A row splits the log at the item it belongs to. -/
theorem Tracks.split {start : Nat} {items : List α} {rows more : List ρ} {row : ρ}
    (tracks : codec.Tracks holds start items (rows ++ row :: more)) :
    ∃ first item second, items = first ++ item :: second ∧ rows.length = first.length ∧
      codec.Tracks holds start first rows ∧
      holds (start + (codec.encodeAll first).length) item row ∧
      codec.Tracks holds (start + (codec.encodeAll first).length + codec.size item)
        second more := by
  induction rows generalizing start items with
  | nil =>
      cases items with
      | nil => cases tracks
      | cons item items => exact ⟨[], item, items, rfl, rfl, trivial, tracks.1, tracks.2⟩
  | cons head rows ih =>
      cases items with
      | nil => cases tracks
      | cons item items =>
          obtain ⟨first, found, second, rfl, lengthEq, before, here, after⟩ := ih tracks.2
          refine ⟨item :: first, found, second, rfl, congrArg (· + 1) lengthEq,
            ⟨tracks.1, before⟩, ?_, ?_⟩
          · simpa only [encodeAll_cons, List.length_append, size, Nat.add_assoc] using here
          · simpa only [encodeAll_cons, List.length_append, size, Nat.add_assoc] using after

end Codec

end Foundation.FramedLog
