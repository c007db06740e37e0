/-
Searching a needle in a text.

`search same needle text` is the rest of `text` from the first place on where the
characters of the needle stand, up to `same`.  What matters here is a text that
is continued: a needle that has been found stays found at its place, and one that
cannot stand across the seam is found in one of the two parts.
-/

import Mathlib.Data.List.Infix

namespace Foundation.TextSearch

variable {α β : Type} (same : α → β → Bool)

def matchesHere : List β → List α → Bool
  | [], _ => true
  | _ :: _, [] => false
  | wanted :: needle, char :: text => same char wanted && matchesHere needle text

def search [DecidableEq β] (needle : List β) : List α → Option (List α)
  | [] => if needle = [] then some [] else none
  | char :: rest =>
      if matchesHere same needle (char :: rest) then some (char :: rest) else search needle rest

/-- No character of the needle is matched by this one. -/
def Foreign (last : α) (needle : List β) : Prop :=
  ∀ wanted ∈ needle, same last wanted = false

instance (last : α) (needle : List β) : Decidable (Foreign same last needle) :=
  inferInstanceAs (Decidable (∀ wanted ∈ needle, same last wanted = false))

variable {same}

theorem length_le_of_matchesHere {needle : List β} {text : List α}
    (found : matchesHere same needle text = true) : needle.length ≤ text.length := by
  induction needle generalizing text with
  | nil => exact Nat.zero_le _
  | cons wanted needle ih =>
      cases text with
      | nil => cases found
      | cons char text =>
          rw [matchesHere, Bool.and_eq_true] at found
          exact Nat.succ_le_succ (ih found.2)

variable (same) in
/-- Only as many characters as the needle has are looked at. -/
theorem matchesHere_append {needle : List β} {text : List α} (more : List α)
    (enough : needle.length ≤ text.length) :
    matchesHere same needle (text ++ more) = matchesHere same needle text := by
  induction needle generalizing text with
  | nil => cases text <;> cases more <;> rfl
  | cons wanted needle ih =>
      cases text with
      | nil => cases enough
      | cons char text =>
          rw [List.cons_append, matchesHere, matchesHere, ih (Nat.le_of_succ_le_succ enough)]

/-- A needle without the last character of `front` does not reach over it. -/
theorem not_matchesHere_across {needle : List β} {front : List α} {last : α} (more : List α)
    (foreign : Foreign same last needle)
    (longer : front.length < needle.length) :
    matchesHere same needle (front ++ last :: more) = false := by
  induction needle generalizing front with
  | nil => cases longer
  | cons wanted needle ih =>
      cases front with
      | nil =>
          rw [List.nil_append, matchesHere, foreign wanted (List.mem_cons_self ..), Bool.false_and]
      | cons char front =>
          have foreignRest : Foreign same last needle := fun other member =>
            foreign other (List.mem_cons_of_mem _ member)
          rw [List.cons_append, matchesHere,
            ih foreignRest (Nat.lt_of_succ_lt_succ longer), Bool.and_false]

section Search

variable [DecidableEq β]

theorem search_eq_some {needle : List β} {text found : List α}
    (searched : search same needle text = some found) :
    matchesHere same needle found = true ∧ found <:+ text := by
  induction text with
  | nil =>
      rw [search] at searched
      split at searched
      · rename_i empty
        cases searched
        rw [empty]
        exact ⟨rfl, List.suffix_refl _⟩
      · cases searched
  | cons char rest ih =>
      rw [search] at searched
      split at searched
      · rename_i here
        cases searched
        exact ⟨here, List.suffix_refl _⟩
      · obtain ⟨matched, suffix⟩ := ih searched
        exact ⟨matched, suffix.trans (List.suffix_cons _ _)⟩

/-- A needle that is found in a text is found at the same place in a longer one. -/
theorem search_append_of_some {needle : List β} {text found : List α} (more : List α)
    (searched : search same needle text = some found) :
    search same needle (text ++ more) = some (found ++ more) := by
  induction text with
  | nil =>
      rw [search] at searched
      split at searched
      · rename_i empty
        cases searched
        rw [List.nil_append, empty]
        cases more <;> rfl
      · cases searched
  | cons char rest ih =>
      rw [search] at searched
      rw [List.cons_append, search]
      split at searched
      · rename_i here
        cases searched
        have stillHere := matchesHere_append same more (length_le_of_matchesHere here)
        rw [List.cons_append] at stillHere
        rw [stillHere, if_pos here, List.cons_append]
      · rename_i notHere
        have later := search_eq_some searched
        have enough : needle.length ≤ (char :: rest).length := by
          have inside := length_le_of_matchesHere later.1
          have shorter := later.2.length_le
          rw [List.length_cons]
          omega
        have stillNot := matchesHere_append same more enough
        rw [List.cons_append] at stillNot
        rw [stillNot, if_neg notHere, ih searched]

/-- A needle that first stands at the very end of a text is in no shorter text. -/
theorem search_take_of_end {needle : List β} {text found : List α} {length : Nat}
    (searched : search same needle text = some found) (atEnd : found.length = needle.length)
    (shorter : length < text.length) : search same needle (text.take length) = none := by
  cases early : search same needle (text.take length) with
  | none => rfl
  | some place =>
      have continued := search_append_of_some (text.drop length) early
      rw [List.take_append_drop, searched] at continued
      have lengths := congrArg List.length (Option.some.inj continued)
      rw [List.length_append, List.length_drop] at lengths
      have inside := length_le_of_matchesHere (search_eq_some early).1
      omega

/-- A needle that is not in a text and lacks its last character is found behind it. -/
theorem search_append_of_none {needle : List β} {front : List α} {last : α} (more : List α)
    (foreign : Foreign same last needle)
    (missing : search same needle (front ++ [last]) = none) :
    search same needle (front ++ [last] ++ more) = search same needle more := by
  rw [List.append_assoc, List.singleton_append]
  induction front with
  | nil =>
      rw [List.nil_append] at missing ⊢
      rw [search] at missing ⊢
      have notEmpty : needle ≠ [] := by
        intro empty
        rw [empty] at missing
        cases missing
      obtain ⟨wanted, rest, shape⟩ := List.exists_cons_of_ne_nil notEmpty
      have notHere : matchesHere same needle ([] ++ last :: more) = false := by
        apply not_matchesHere_across more foreign
        rw [shape]
        exact Nat.succ_pos _
      rw [List.nil_append] at notHere
      rw [notHere]
      rfl
  | cons char front ih =>
      rw [List.cons_append, search] at missing ⊢
      split at missing
      · cases missing
      · rename_i notHere
        have notAcross : matchesHere same needle (char :: (front ++ last :: more)) = false := by
          by_cases longer : (char :: front).length < needle.length
          · exact not_matchesHere_across more foreign longer
          · have enough : needle.length ≤ (char :: (front ++ [last])).length := by
              rw [List.length_cons, List.length_append, List.length_singleton]
              rw [List.length_cons] at longer
              omega
            have seen := matchesHere_append same more enough
            rw [List.cons_append, List.append_assoc, List.singleton_append] at seen
            rw [seen]
            exact Bool.eq_false_iff.mpr notHere
        rw [notAcross]
        exact ih missing

/-- A needle is found in a continued text if it is in one of the parts. -/
theorem search_append_isSome {needle : List β} {front : List α} {last : α} (more : List α)
    (foreign : Foreign same last needle) :
    (search same needle (front ++ [last] ++ more)).isSome =
      ((search same needle (front ++ [last])).isSome || (search same needle more).isSome) := by
  cases found : search same needle (front ++ [last]) with
  | some place => rw [search_append_of_some more found, Option.isSome_some, Option.isSome_some,
      Bool.true_or]
  | none => rw [search_append_of_none more foreign found, Option.isSome_none, Bool.false_or]

end Search

end Foundation.TextSearch
