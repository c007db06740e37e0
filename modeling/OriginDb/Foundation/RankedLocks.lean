/-
Threads that run programs of lock operations, and cycles of waiting.

A program takes locks, shared or exclusively, gives them back and acts on data
of its own in between.  A rule says which lock may be asked for under which
locks held; a thread that follows a rule keeps following it.  When every lock
asked for ranks above the one that somebody waits for, waiting has no cycle.
-/

import Mathlib.Data.Set.Basic

namespace Foundation.RankedLocks

inductive Mode where
  | shared
  | exclusive
deriving DecidableEq

inductive Op (ℓ α : Type) where
  | acquire (lock : ℓ) (mode : Mode)
  | release (lock : ℓ)
  | act (action : α)
deriving DecidableEq

structure Thread (ℓ α : Type) where
  held : List (ℓ × Mode)
  ops : List (Op ℓ α)
deriving DecidableEq

variable {ℓ α : Type}

def Thread.Holds (thread : Thread ℓ α) (lock : ℓ) : Prop :=
  ∃ hold ∈ thread.held, hold.1 = lock

def Thread.Wants (thread : Thread ℓ α) (lock : ℓ) : Prop :=
  ∃ mode rest, thread.ops = .acquire lock mode :: rest

/-- Nobody, the asking thread included, holds the lock in a conflicting mode. -/
def Grants (threads : List (Thread ℓ α)) (lock : ℓ) (mode : Mode) : Prop :=
  ∀ thread ∈ threads, ∀ hold ∈ thread.held,
    hold.1 = lock → mode = .shared ∧ hold.2 = .shared

instance [DecidableEq ℓ] (thread : Thread ℓ α) (lock : ℓ) : Decidable (thread.Holds lock) := by
  unfold Thread.Holds
  infer_instance

instance [DecidableEq ℓ] (threads : List (Thread ℓ α)) (lock : ℓ) (mode : Mode) :
    Decidable (Grants threads lock mode) := by
  unfold Grants
  infer_instance

/-- A thread that cannot go on before the lock is given back. -/
def Thread.WaitsFor (threads : List (Thread ℓ α)) (thread : Thread ℓ α) (lock : ℓ) : Prop :=
  ∃ mode rest, thread.ops = .acquire lock mode :: rest ∧ ¬Grants threads lock mode

/-- A set of threads each of which waits for a lock that another one holds. -/
def WaitCycle (threads : List (Thread ℓ α)) : Prop :=
  ∃ members : Set Nat, members.Nonempty ∧ ∀ index ∈ members,
    ∃ thread, threads[index]? = some thread ∧ ∃ lock, thread.WaitsFor threads lock ∧
      ∃ other ∈ members, other ≠ index ∧
        ∃ holder, threads[other]? = some holder ∧ holder.Holds lock

theorem Thread.WaitsFor.wants {threads : List (Thread ℓ α)} {thread : Thread ℓ α} {lock : ℓ}
    (waits : thread.WaitsFor threads lock) : thread.Wants lock := by
  rcases waits with ⟨mode, rest, head, -⟩
  exact ⟨mode, rest, head⟩

theorem Thread.Wants.unique {thread : Thread ℓ α} {first second : ℓ}
    (wantsFirst : thread.Wants first) (wantsSecond : thread.Wants second) : first = second := by
  rcases wantsFirst with ⟨_, _, headFirst⟩
  rcases wantsSecond with ⟨_, _, headSecond⟩
  rw [headFirst] at headSecond
  cases headSecond
  rfl

theorem no_cycle_of_ranked {threads : List (Thread ℓ α)} (rank : ℓ → Nat) (bound : Nat)
    (bounded : ∀ lock, rank lock ≤ bound)
    (ordered : ∀ waiter ∈ threads, ∀ holder ∈ threads, ∀ lock next,
      waiter.Wants lock → holder.Holds lock → holder.Wants next → rank lock < rank next) :
    ¬WaitCycle threads := by
  intro cycle
  rcases cycle with ⟨members, ⟨someIndex, someMember⟩, waiting⟩
  -- From any member the holder of its lock waits for a lock of a higher rank.
  have climbs : ∀ height, ∃ index ∈ members, ∃ thread, threads[index]? = some thread ∧
      ∃ lock, thread.Wants lock ∧ height ≤ rank lock := by
    intro height
    induction height with
    | zero =>
        obtain ⟨thread, found, lock, waits, -⟩ := waiting someIndex someMember
        exact ⟨someIndex, someMember, thread, found, lock, waits.wants, Nat.zero_le _⟩
    | succ height ih =>
        rcases ih with ⟨index, member, thread, found, lock, wants, high⟩
        obtain ⟨sameThread, foundSame, sameLock, waits, other, otherMember, -, holder, foundHolder,
          holds⟩ := waiting index member
        obtain rfl := Option.some.inj (found.symm.trans foundSame)
        obtain rfl := wants.unique waits.wants
        obtain ⟨_, foundAgain, next, waitsNext, -⟩ := waiting other otherMember
        obtain rfl := Option.some.inj (foundHolder.symm.trans foundAgain)
        have higher := ordered thread (List.mem_of_getElem? found) holder
          (List.mem_of_getElem? foundHolder) lock next wants holds waitsNext.wants
        exact ⟨other, otherMember, holder, foundHolder, next, waitsNext.wants, by omega⟩
  obtain ⟨_, _, _, _, lock, _, tooHigh⟩ := climbs (bound + 1)
  have within := bounded lock
  omega

/-! ### Rules for asking -/

/-- The program asks for locks and acts only where it may, and gives everything
back in the end. -/
def Follows [DecidableEq ℓ] (asks : List (ℓ × Mode) → ℓ → Prop)
    (acts : List (ℓ × Mode) → α → Prop) : List (ℓ × Mode) → List (Op ℓ α) → Prop
  | held, [] => held = []
  | held, .acquire lock mode :: rest =>
      asks held lock ∧ Follows asks acts ((lock, mode) :: held) rest
  | held, .release lock :: rest =>
      Follows asks acts (held.filter fun hold => hold.1 ≠ lock) rest
  | held, .act action :: rest => acts held action ∧ Follows asks acts held rest

def Thread.Follows [DecidableEq ℓ] (asks : List (ℓ × Mode) → ℓ → Prop)
    (acts : List (ℓ × Mode) → α → Prop) (thread : Thread ℓ α) : Prop :=
  RankedLocks.Follows asks acts thread.held thread.ops

theorem Thread.Follows.asks_of_wants [DecidableEq ℓ] {asks : List (ℓ × Mode) → ℓ → Prop}
    {acts : List (ℓ × Mode) → α → Prop} {thread : Thread ℓ α} {lock : ℓ}
    (follows : thread.Follows asks acts) (wants : thread.Wants lock) : asks thread.held lock := by
  rcases wants with ⟨mode, rest, head⟩
  unfold Thread.Follows at follows
  rw [head] at follows
  exact follows.1

/-- Giving a lock back leaves no more locks held. -/
theorem holds_of_release [DecidableEq ℓ] {held : List (ℓ × Mode)} {released lock : ℓ}
    {ops rest : List (Op ℓ α)}
    (holds : (⟨held.filter fun hold => hold.1 ≠ released, rest⟩ : Thread ℓ α).Holds lock) :
    (⟨held, ops⟩ : Thread ℓ α).Holds lock := by
  rcases holds with ⟨hold, member, same⟩
  exact ⟨hold, (List.mem_filter.mp member).1, same⟩

end Foundation.RankedLocks
