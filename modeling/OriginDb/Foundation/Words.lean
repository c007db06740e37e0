/-
Words between blanks.

A scanner skips blanks and takes what follows up to the next blank.  What it takes
from a text depends only on the part up to the end of the first word.
-/

import Mathlib.Data.List.TakeWhile

namespace Foundation.Words

variable {α : Type} (blank : α → Bool)

def word (text : List α) : List α :=
  (text.dropWhile blank).takeWhile fun char => !blank char

/-- What is left behind the first word. -/
def behind (text : List α) : List α :=
  (text.dropWhile blank).dropWhile fun char => !blank char

theorem word_cons_blank {char : α} (isBlank : blank char = true) (text : List α) :
    word blank (char :: text) = word blank text := by
  rw [word, List.dropWhile_cons, if_pos isBlank, word]

theorem word_cons_solid {char : α} (solid : blank char = false) (text : List α) :
    word blank (char :: text) = char :: text.takeWhile fun next => !blank next := by
  have continues : (!blank char) = true := by rw [solid, Bool.not_false]
  rw [word, List.dropWhile_cons, solid, if_neg Bool.false_ne_true, List.takeWhile_cons,
    if_pos continues]

theorem word_eq_nil_iff {text : List α} :
    word blank text = [] ↔ ∀ char ∈ text, blank char = true := by
  induction text with
  | nil => exact ⟨fun _ char member => absurd member List.not_mem_nil, fun _ => rfl⟩
  | cons char text ih =>
      cases isBlank : blank char with
      | true =>
          rw [word_cons_blank blank isBlank, ih, List.forall_mem_cons]
          exact ⟨fun rest => ⟨isBlank, rest⟩, fun all => all.2⟩
      | false =>
          rw [word_cons_solid blank isBlank, List.forall_mem_cons, isBlank]
          exact ⟨fun none => absurd none (List.cons_ne_nil _ _),
            fun all => absurd all.1 Bool.false_ne_true⟩

/-- A word that has ended is not changed by what follows. -/
theorem takeWhile_append_of_blank {more : List α} (ended : ∀ char ∈ more.head?, blank char = true)
    (text : List α) :
    (text ++ more).takeWhile (fun char => !blank char) =
      text.takeWhile fun char => !blank char := by
  induction text with
  | nil =>
      cases more with
      | nil => rfl
      | cons char more =>
          have isBlank : blank char = true := ended char rfl
          have stops : ¬(!blank char) = true := by
            rw [isBlank]
            exact Bool.false_ne_true
          rw [List.nil_append, List.takeWhile_cons, if_neg stops]
          rfl
  | cons char text ih =>
      rw [List.cons_append, List.takeWhile_cons, List.takeWhile_cons, ih]

theorem word_append {text : List α} (more : List α) (some : word blank text ≠ [])
    (ended : ∀ char ∈ more.head?, blank char = true) :
    word blank (text ++ more) = word blank text := by
  induction text with
  | nil => exact absurd rfl some
  | cons char text ih =>
      cases isBlank : blank char with
      | true =>
          rw [word_cons_blank blank isBlank] at some
          rw [List.cons_append, word_cons_blank blank isBlank, word_cons_blank blank isBlank,
            ih some]
      | false =>
          rw [List.cons_append, word_cons_solid blank isBlank, word_cons_solid blank isBlank,
            takeWhile_append_of_blank blank ended]

end Foundation.Words
