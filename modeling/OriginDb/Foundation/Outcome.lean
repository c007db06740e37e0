/-
Partial programs in `Except` and what they may do.

`Yields fine outcome post` says that a program that returns meets `post` and that one that
stops does so with an error that is `fine`.  The rules follow the program: return, stop,
sequence, branch.
-/

import Mathlib.Logic.Basic

namespace Foundation.Outcome

variable {ε α β : Type}

theorem ok_bind (value : α) (next : α → Except ε β) : Except.ok value >>= next = next value := rfl

def Yields (fine : ε → Prop) (outcome : Except ε α) (post : α → Prop) : Prop :=
  match outcome with
  | .ok value => post value
  | .error stop => fine stop

variable {fine : ε → Prop} {outcome : Except ε α} {post : α → Prop}

theorem Yields.ok {value : α} (holds : post value) : Yields fine (.ok value) post := holds

theorem Yields.error {stop : ε} (isFine : fine stop) : Yields fine (.error stop) post := isFine

theorem Yields.of_ok {value : α} (yields : Yields fine outcome post)
    (returned : outcome = .ok value) : post value := by
  rw [returned] at yields
  exact yields

theorem Yields.of_error {stop : ε} (yields : Yields fine outcome post)
    (stopped : outcome = .error stop) : fine stop := by
  rw [stopped] at yields
  exact yields

theorem Yields.imp {weaker : α → Prop} (yields : Yields fine outcome post)
    (weaken : ∀ value, post value → weaker value) : Yields fine outcome weaker := by
  cases outcome with
  | ok value => exact weaken value yields
  | error stop => exact yields

theorem Yields.imp_error {lenient : ε → Prop} (yields : Yields fine outcome post)
    (weaken : ∀ stop, fine stop → lenient stop) : Yields lenient outcome post := by
  cases outcome with
  | ok value => exact yields
  | error stop => exact weaken stop yields

theorem Yields.bind {next : α → Except ε β} {after : β → Prop} (first : Yields fine outcome post)
    (second : ∀ value, post value → Yields fine (next value) after) :
    Yields fine (outcome >>= next) after := by
  cases outcome with
  | ok value => exact second value first
  | error stop => exact first

theorem Yields.ite {condition : Prop} [Decidable condition] {yes no : Except ε α}
    (whenTrue : condition → Yields fine yes post) (whenFalse : ¬condition → Yields fine no post) :
    Yields fine (if condition then yes else no) post := by
  by_cases holds : condition
  · rw [if_pos holds]
    exact whenTrue holds
  · rw [if_neg holds]
    exact whenFalse holds

end Foundation.Outcome
