/-
Lists of bindings in which a rebound key moves to the end.

Binding a key removes the older bindings of it and adds the new one at the end.
What a sequence of bindings leaves is the last binding of each key, in the order
of these; the rank of a key in it counts the other keys whose last binding comes
before that key's.
-/

import Mathlib.Data.Finset.Card
import Mathlib.Data.List.Nodup

namespace Foundation.LatestBindings

variable {κ ν : Type} [DecidableEq κ]

def bind (bindings : List (κ × ν)) (binding : κ × ν) : List (κ × ν) :=
  bindings.filter (fun entry => entry.1 ≠ binding.1) ++ [binding]

/-- The bindings that no later one of the same key follows. -/
def latest : List (κ × ν) → List (κ × ν)
  | [] => []
  | binding :: rest =>
      if binding.1 ∈ rest.map Prod.fst then latest rest else binding :: latest rest

/-- The other keys bound in `earlier` and in nothing that follows, when what
follows is a binding of `key` and then `later`. -/
def keysBefore (earlier : List (κ × ν)) (key : κ) (later : List (κ × ν)) : Finset κ :=
  (earlier.map Prod.fst).toFinset.filter fun other => other ∉ key :: later.map Prod.fst

theorem mem_keys_latest (bindings : List (κ × ν)) (key : κ) :
    key ∈ (latest bindings).map Prod.fst ↔ key ∈ bindings.map Prod.fst := by
  induction bindings with
  | nil => exact Iff.rfl
  | cons binding rest ih =>
      rw [latest, List.map_cons, List.mem_cons]
      split
      · rename_i later
        rw [ih]
        constructor
        · exact Or.inr
        · intro bound
          rcases bound with same | inRest
          · rw [same]
            exact later
          · exact inRest
      · rw [List.map_cons, List.mem_cons, ih]

theorem mem_of_mem_latest {bindings : List (κ × ν)} {binding : κ × ν}
    (member : binding ∈ latest bindings) : binding ∈ bindings := by
  induction bindings with
  | nil => exact member
  | cons first rest ih =>
      rw [latest] at member
      split at member
      · exact List.mem_cons_of_mem _ (ih member)
      · rcases List.mem_cons.mp member with same | later
        · exact List.mem_cons.mpr (Or.inl same)
        · exact List.mem_cons_of_mem _ (ih later)

theorem latest_append (first second : List (κ × ν)) :
    latest (first ++ second) =
      (latest first).filter (fun entry => entry.1 ∉ second.map Prod.fst) ++ latest second := by
  induction first with
  | nil => rfl
  | cons binding rest ih =>
      rw [List.cons_append, latest, latest, List.map_append]
      by_cases inRest : binding.1 ∈ rest.map Prod.fst
      · rw [if_pos (List.mem_append_left _ inRest), if_pos inRest, ih]
      · rw [if_neg inRest]
        by_cases inSecond : binding.1 ∈ second.map Prod.fst
        · rw [if_pos (List.mem_append_right _ inSecond), ih,
            List.filter_cons_of_neg (by simpa using inSecond)]
        · have inNeither : binding.1 ∉ rest.map Prod.fst ++ second.map Prod.fst := by
            rw [List.mem_append]
            exact not_or.mpr ⟨inRest, inSecond⟩
          rw [if_neg inNeither, ih, List.filter_cons_of_pos (by simpa using inSecond),
            List.cons_append]

theorem nodup_keys_latest (bindings : List (κ × ν)) : ((latest bindings).map Prod.fst).Nodup := by
  induction bindings with
  | nil => exact List.nodup_nil
  | cons binding rest ih =>
      rw [latest]
      split
      · exact ih
      · rename_i lastOne
        rw [List.map_cons, List.nodup_cons, mem_keys_latest]
        exact ⟨lastOne, ih⟩

/-- Where no key is bound twice, every binding is the latest one. -/
theorem latest_of_nodup {bindings : List (κ × ν)} (distinct : (bindings.map Prod.fst).Nodup) :
    latest bindings = bindings := by
  induction bindings with
  | nil => rfl
  | cons binding rest ih =>
      rw [List.map_cons, List.nodup_cons] at distinct
      rw [latest, if_neg distinct.1, ih distinct.2]

/-- Binding one after the other leaves the latest bindings. -/
theorem foldl_bind (bindings start : List (κ × ν)) :
    bindings.foldl bind start =
      start.filter (fun entry => entry.1 ∉ bindings.map Prod.fst) ++ latest bindings := by
  induction bindings generalizing start with
  | nil => simp [latest]
  | cons binding rest ih =>
      rw [List.foldl_cons, ih, bind, List.filter_append, List.filter_filter, List.append_assoc]
      congr 1
      · apply List.filter_congr
        intro entry _
        apply Bool.eq_iff_iff.mpr
        simp only [Bool.and_eq_true, decide_eq_true_eq, List.map_cons, List.mem_cons, not_or]
        exact and_comm
      · rw [latest]
        by_cases inRest : binding.1 ∈ rest.map Prod.fst
        · rw [if_pos inRest, List.filter_cons_of_neg (by simpa using inRest), List.filter_nil,
            List.nil_append]
        · rw [if_neg inRest, List.filter_cons_of_pos (by simpa using inRest), List.filter_nil,
            List.singleton_append]

/-- A bound key has a last binding. -/
theorem exists_last_binding {bindings : List (κ × ν)} {key : κ}
    (bound : key ∈ bindings.map Prod.fst) :
    ∃ earlier value later, bindings = earlier ++ (key, value) :: later ∧
      key ∉ later.map Prod.fst := by
  induction bindings with
  | nil => cases bound
  | cons binding rest ih =>
      by_cases inRest : key ∈ rest.map Prod.fst
      · obtain ⟨earlier, value, later, rfl, lastOne⟩ := ih inRest
        exact ⟨binding :: earlier, value, later, rfl, lastOne⟩
      · have same : key = binding.1 := by
          rw [List.map_cons, List.mem_cons] at bound
          exact bound.resolve_right inRest
        subst same
        exact ⟨[], binding.2, rest, rfl, inRest⟩

/-- The last binding of a key stands behind those of the keys before it. -/
theorem latest_of_last (earlier : List (κ × ν)) {later : List (κ × ν)} {key : κ} (value : ν)
    (lastOne : key ∉ later.map Prod.fst) :
    ∃ front, latest (earlier ++ (key, value) :: later) = front ++ (key, value) :: latest later ∧
      front.length = (keysBefore earlier key later).card := by
  refine ⟨(latest earlier).filter fun entry => entry.1 ∉ key :: later.map Prod.fst, ?_, ?_⟩
  · rw [latest_append, latest, if_neg lastOne, List.map_cons]
  · have keys : ((latest earlier).filter fun entry => entry.1 ∉ key :: later.map Prod.fst).map
        Prod.fst =
          ((latest earlier).map Prod.fst).filter fun other =>
            other ∉ key :: later.map Prod.fst := by
      rw [List.filter_map]
      rfl
    have same : keysBefore earlier key later =
        (((latest earlier).filter fun entry => entry.1 ∉ key :: later.map Prod.fst).map
          Prod.fst).toFinset := by
      ext other
      rw [keys, keysBefore, Finset.mem_filter, List.mem_toFinset, List.mem_toFinset,
        List.mem_filter, mem_keys_latest]
      simp
    rw [same, List.toFinset_card_of_nodup, List.length_map]
    rw [keys]
    exact (nodup_keys_latest earlier).filter _

omit [DecidableEq κ] in
/-- Where keys are distinct, a binding is among the first `room` if fewer than
`room` stand before it. -/
theorem mem_take_of_split {front back : List (κ × ν)} {key : κ} {last value : ν} {room : Nat}
    (distinct : ((front ++ (key, last) :: back).map Prod.fst).Nodup) :
    (key, value) ∈ (front ++ (key, last) :: back).take room ↔
      value = last ∧ front.length < room := by
  rw [List.map_append, List.map_cons, List.nodup_append] at distinct
  rcases distinct with ⟨-, distinctBack, apart⟩
  have notFront : ∀ other, (key, other) ∉ front := by
    intro other member
    exact apart key (List.mem_map_of_mem member) key (List.mem_cons_self ..) rfl
  have notBack : ∀ other, (key, other) ∉ back := by
    intro other member
    have bound : (key, other).1 ∈ back.map Prod.fst := List.mem_map_of_mem member
    exact (List.nodup_cons.mp distinctBack).1 bound
  rw [List.take_append, List.mem_append]
  by_cases within : front.length < room
  · obtain ⟨more, roomEq⟩ := Nat.exists_eq_add_of_lt within
    have left : room - front.length = more + 1 := by omega
    rw [left, List.take_succ_cons, List.mem_cons]
    constructor
    · intro kept
      rcases kept with inFront | same | inBack
      · exact absurd (List.mem_of_mem_take inFront) (notFront value)
      · exact ⟨(Prod.mk.inj same).2, within⟩
      · exact absurd (List.mem_of_mem_take inBack) (notBack value)
    · intro found
      rw [found.1]
      exact Or.inr (Or.inl rfl)
  · have left : room - front.length = 0 := by omega
    rw [left, List.take_zero]
    constructor
    · intro kept
      rcases kept with inFront | impossible
      · exact absurd (List.mem_of_mem_take inFront) (notFront value)
      · cases impossible
    · intro found
      exact absurd found.2 within

/-- Looking a key up among the first `room` of the latest bindings. -/
theorem mem_take_latest_iff (bindings : List (κ × ν)) (room : Nat) (key : κ) (value : ν) :
    (key, value) ∈ (latest bindings).take room ↔
      ∃ earlier later, bindings = earlier ++ (key, value) :: later ∧
        key ∉ later.map Prod.fst ∧ (keysBefore earlier key later).card < room := by
  constructor
  · intro kept
    have bound : key ∈ bindings.map Prod.fst := by
      rw [← mem_keys_latest]
      exact List.mem_map_of_mem (List.mem_of_mem_take kept)
    obtain ⟨earlier, last, later, split, lastOne⟩ := exists_last_binding bound
    obtain ⟨front, latestEq, rank⟩ := latest_of_last earlier last lastOne
    have distinct := nodup_keys_latest bindings
    rw [split, latestEq] at kept distinct
    obtain ⟨same, within⟩ := (mem_take_of_split distinct).mp kept
    subst same
    exact ⟨earlier, later, split, lastOne, rank ▸ within⟩
  · intro found
    rcases found with ⟨earlier, later, split, lastOne, within⟩
    obtain ⟨front, latestEq, rank⟩ := latest_of_last earlier value lastOne
    have distinct := nodup_keys_latest bindings
    rw [split, latestEq] at distinct ⊢
    exact (mem_take_of_split distinct).mpr ⟨rfl, rank ▸ within⟩

/-- Where keys are distinct, the first binding of a key is the only one. -/
theorem find?_key_eq_some_iff {bindings : List (κ × ν)}
    (distinct : (bindings.map Prod.fst).Nodup) (key : κ) (value : ν) :
    bindings.find? (fun entry => entry.1 = key) = some (key, value) ↔ (key, value) ∈ bindings := by
  induction bindings with
  | nil => simp
  | cons binding rest ih =>
      rw [List.map_cons, List.nodup_cons] at distinct
      by_cases same : binding.1 = key
      · rw [List.find?_cons_of_pos (by simpa using same)]
        subst same
        constructor
        · intro found
          rw [← Option.some.inj found]
          exact List.mem_cons_self ..
        · intro member
          rcases List.mem_cons.mp member with first | later
          · rw [first]
          · exact absurd (List.mem_map_of_mem later) distinct.1
      · rw [List.find?_cons_of_neg (by simpa using same), ih distinct.2, List.mem_cons]
        constructor
        · exact Or.inr
        · intro member
          rcases member with first | later
          · exact absurd (congrArg Prod.fst first).symm same
          · exact later

end Foundation.LatestBindings
