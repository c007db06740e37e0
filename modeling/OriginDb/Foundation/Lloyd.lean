/-
Lloyd's method: points gather around the nearest of several centroids, and the
centroids move to the means of the points they have gathered.

A round depends on the centroids alone, so whatever it does with its groups can
be read off one round: each point is in one group, every group keeps the order
of the points, and a group with points has their mean as its centroid.  The
repetition only decides which round is the last.
-/

import Mathlib.Data.List.Perm.Basic

namespace Foundation.Lloyd

variable {P : Type}

/-- What the method asks about points: which centroid is the nearest, the mean of
some points, and whether a list of centroids has moved. -/
structure Method (P : Type) where
  nearest : List P → P → Nat
  mean : List P → P
  moved : List P → List P → Bool

/-- A centroid with the points it has gathered; every point has a number. -/
structure Group (P : Type) where
  centroid : P
  members : List (Nat × P)

variable (method : Method P) (points : List (Nat × P))

def membersAt (centroids : List P) (position : Nat) : List (Nat × P) :=
  points.filter fun point => method.nearest centroids point.2 == position

/-- A group without points keeps its centroid. -/
def groupOf (centroid : P) (members : List (Nat × P)) : Group P where
  centroid := if members.isEmpty then centroid else method.mean (members.map Prod.snd)
  members := members

def round (centroids : List P) : List (Group P) :=
  centroids.zipIdx.map fun entry =>
    groupOf method entry.1 (membersAt method points centroids entry.2)

/-- Rounds until no centroid moves, or `limit` of them are done. -/
def rounds (limit : Nat) : Nat → Nat → List P → Option (List (Group P))
  | 0, _, _ => none
  | fuel + 1, done, centroids =>
      let groups := round method points centroids
      if method.moved centroids (groups.map Group.centroid) then
        if limit ≤ done + 1 then some groups
        else rounds limit fuel (done + 1) (groups.map Group.centroid)
      else some groups

/-! ### One round -/

theorem membersAt_cons (point : Nat × P) (centroids : List P) (position : Nat) :
    membersAt method (point :: points) centroids position =
      if method.nearest centroids point.2 = position then
        point :: membersAt method points centroids position
      else membersAt method points centroids position := by
  unfold membersAt
  by_cases here : method.nearest centroids point.2 = position
  · rw [if_pos here]
    exact List.filter_cons_of_pos (beq_iff_eq.mpr here)
  · rw [if_neg here]
    exact List.filter_cons_of_neg fun same => here (beq_iff_eq.mp same)

theorem round_length (centroids : List P) :
    (round method points centroids).length = centroids.length := by
  rw [round, List.length_map, List.length_zipIdx]

theorem round_getElem? (centroids : List P) (position : Nat) :
    (round method points centroids)[position]? = centroids[position]?.map fun centroid =>
      groupOf method centroid (membersAt method points centroids position) := by
  rw [round, List.getElem?_map, List.getElem?_zipIdx, Option.map_map, Nat.zero_add]
  rfl

theorem mem_round {centroids : List P} {group : Group P}
    (member : group ∈ round method points centroids) :
    ∃ centroid position, centroids[position]? = some centroid ∧
      group = groupOf method centroid (membersAt method points centroids position) := by
  obtain ⟨position, inside, rfl⟩ := List.mem_iff_getElem.mp member
  have found := round_getElem? method points centroids position
  rw [List.getElem?_eq_getElem inside] at found
  obtain ⟨centroid, atPosition, groupEq⟩ := Option.map_eq_some_iff.mp found.symm
  exact ⟨centroid, position, atPosition, groupEq.symm⟩

theorem members_sublist {centroids : List P} {group : Group P}
    (member : group ∈ round method points centroids) : group.members.Sublist points := by
  obtain ⟨centroid, position, -, rfl⟩ := mem_round method points member
  exact List.filter_sublist

theorem centroid_of_members {centroids : List P} {group : Group P}
    (member : group ∈ round method points centroids) (nonempty : group.members ≠ []) :
    group.centroid = method.mean (group.members.map Prod.snd) := by
  obtain ⟨centroid, position, -, rfl⟩ := mem_round method points member
  have notEmpty : ¬(membersAt method points centroids position).isEmpty = true := by
    rw [List.isEmpty_iff]
    exact nonempty
  exact if_neg notEmpty

/-- A centroid that is nearest to no point stays where it is. -/
theorem round_unchosen {centroids : List P} {position : Nat} {centroid : P}
    (atPosition : centroids[position]? = some centroid)
    (unchosen : ∀ point ∈ points, method.nearest centroids point.2 ≠ position) :
    (round method points centroids)[position]? = some ⟨centroid, []⟩ := by
  have none : membersAt method points centroids position = [] := by
    rw [membersAt, List.filter_eq_nil_iff]
    intro point member chosen
    exact unchosen point member (beq_iff_eq.mp chosen)
  rw [round_getElem?, atPosition, Option.map_some, none]
  rfl

/-- A centroid that is nearest to every point gathers all of them. -/
theorem round_chosen {centroids : List P} {position : Nat} {centroid : P}
    (atPosition : centroids[position]? = some centroid)
    (chosen : ∀ point ∈ points, method.nearest centroids point.2 = position) :
    (round method points centroids)[position]? = some (groupOf method centroid points) := by
  have all : membersAt method points centroids position = points := by
    rw [membersAt, List.filter_eq_self]
    intro point member
    exact beq_iff_eq.mpr (chosen point member)
  rw [round_getElem?, atPosition, Option.map_some, all]

theorem round_single {centroids : List P} (single : centroids.length = 1) (nonempty : points ≠ [])
    (inside : ∀ point ∈ points, method.nearest centroids point.2 < centroids.length) :
    round method points centroids = [⟨method.mean (points.map Prod.snd), points⟩] := by
  obtain ⟨centroid, rfl⟩ := List.length_eq_one_iff.mp single
  have notEmpty : ¬points.isEmpty = true := by
    rw [List.isEmpty_iff]
    exact nonempty
  have only : round method points [centroid] =
      [groupOf method centroid (membersAt method points [centroid] 0)] := rfl
  have chosen : (round method points [centroid])[0]? = some (groupOf method centroid points) :=
    round_chosen method points rfl fun point member => Nat.lt_one_iff.mp (inside point member)
  rw [only] at chosen ⊢
  rw [Option.some.inj chosen, groupOf, if_neg notEmpty]

/-- The parts of a list that a function sends to each of its values. -/
theorem flatMap_filter_perm {α : Type} (part : α → Nat) (items : List α) (bound : Nat) :
    ((List.range bound).flatMap fun value => items.filter fun item => part item == value).Perm
      (items.filter fun item => part item < bound) := by
  induction bound with
  | zero =>
      have none : (items.filter fun item => part item < 0) = [] := by
        rw [List.filter_eq_nil_iff]
        intro item _
        simp
      rw [none]
      exact List.Perm.refl _
  | succ bound ih =>
      let upTo := items.filter fun item => part item < bound + 1
      have below : (upTo.filter fun item => part item < bound) =
          items.filter fun item => part item < bound := by
        rw [List.filter_filter]
        refine List.filter_congr fun item _ => ?_
        rw [Bool.eq_iff_iff]
        simp only [Bool.and_eq_true, decide_eq_true_iff]
        omega
      have last : (upTo.filter fun item => !decide (part item < bound)) =
          items.filter fun item => part item == bound := by
        rw [List.filter_filter]
        refine List.filter_congr fun item _ => ?_
        rw [Bool.eq_iff_iff]
        simp only [Bool.and_eq_true, Bool.not_eq_true', decide_eq_true_iff,
          decide_eq_false_iff_not, beq_iff_eq]
        omega
      have split := List.filter_append_perm (fun item => decide (part item < bound)) upTo
      rw [below, last] at split
      rw [List.range_succ, List.flatMap_append, List.flatMap_singleton]
      exact (ih.append_right _).trans split

/-- A round puts every point into one group. -/
theorem round_members_perm {centroids : List P}
    (inside : ∀ point ∈ points, method.nearest centroids point.2 < centroids.length) :
    ((round method points centroids).flatMap Group.members).Perm points := by
  have membersEq : (round method points centroids).flatMap Group.members =
      (List.range centroids.length).flatMap (membersAt method points centroids) := by
    have positions := List.zipIdx_map_snd 0 centroids
    rw [← List.range_eq_range'] at positions
    rw [round, List.flatMap_map, ← positions, List.flatMap_map]
    rfl
  have all : (points.filter fun point =>
      method.nearest centroids point.2 < centroids.length) = points := by
    rw [List.filter_eq_self]
    exact fun point member => decide_eq_true (inside point member)
  have parts := flatMap_filter_perm (fun point => method.nearest centroids point.2) points
    centroids.length
  rw [all] at parts
  rw [membersEq]
  exact parts

/-! ### The repetition -/

variable {method points} {limit : Nat}

/-- What every round keeps of the centroids holds of those that the last round
starts from. -/
theorem rounds_invariant {invariant : List P → Prop}
    (keeps : ∀ centroids, invariant centroids →
      invariant ((round method points centroids).map Group.centroid))
    {fuel done : Nat} {centroids : List P} {groups : List (Group P)} (start : invariant centroids)
    (ran : rounds method points limit fuel done centroids = some groups) :
    ∃ last, invariant last ∧ groups = round method points last := by
  induction fuel generalizing done centroids with
  | zero => cases ran
  | succ fuel ih =>
      rw [rounds] at ran
      split at ran
      · split at ran
        · exact ⟨centroids, start, (Option.some.inj ran).symm⟩
        · exact ih (keeps centroids start) ran
      · exact ⟨centroids, start, (Option.some.inj ran).symm⟩

/-- As many rounds as the limit are enough, and more make no difference. -/
theorem rounds_end {fuel done : Nat} (started : 1 ≤ fuel) (enough : limit ≤ done + fuel)
    (centroids : List P) :
    ∃ groups, ∀ more, fuel ≤ more →
      rounds method points limit more done centroids = some groups := by
  induction fuel generalizing done centroids with
  | zero => cases started
  | succ fuel ih =>
      let groups := round method points centroids
      let next := groups.map Group.centroid
      have unfolded : ∀ more, fuel + 1 ≤ more → ∃ less, fuel ≤ less ∧
          rounds method points limit more done centroids =
            if method.moved centroids next then
              if limit ≤ done + 1 then some groups
              else rounds method points limit less (done + 1) next
            else some groups := by
        intro more atLeast
        obtain ⟨less, rfl⟩ := Nat.exists_eq_add_of_lt (Nat.lt_of_succ_le atLeast)
        exact ⟨fuel + less, Nat.le_add_right fuel less, rfl⟩
      by_cases moves : method.moved centroids next = true
      · by_cases limited : limit ≤ done + 1
        · refine ⟨groups, ?_⟩
          intro more atLeast
          obtain ⟨less, -, moreEq⟩ := unfolded more atLeast
          rw [moreEq, if_pos moves, if_pos limited]
        · obtain ⟨result, ended⟩ := ih (by omega) (by omega : limit ≤ done + 1 + fuel) next
          refine ⟨result, ?_⟩
          intro more atLeast
          obtain ⟨less, lessEnough, moreEq⟩ := unfolded more atLeast
          rw [moreEq, if_pos moves, if_neg limited]
          exact ended less lessEnough
      · refine ⟨groups, ?_⟩
        intro more atLeast
        obtain ⟨less, -, moreEq⟩ := unfolded more atLeast
        rw [moreEq, if_neg moves]

end Foundation.Lloyd
