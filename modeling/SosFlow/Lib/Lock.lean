import Mathlib.Logic.Function.Basic
import Mathlib.Tactic.Common

/-!
# A lock with an owner

A lock is free or held. To release it when one does not hold it is not
defined; here that sets a mark, which stays, and the lock is free behind it.

`Owned` says that the lock was never misused, and that its holder is the one
thread whose state says so. The three rules are those of a turn: a thread
takes the lock, gives it back, or does something else.
-/

/-- **A lock**, with its holder and the mark of a misuse. -/
structure LockState (ι : Type*) where
  holder : Option ι
  misused : Bool
deriving DecidableEq

namespace LockState

variable {ι β : Type*}

/-- A lock that nobody holds. -/
def unheld : LockState ι := ⟨none, false⟩

/-- Taking the lock, which blocks while it is held, also by oneself. -/
def acquire (l : LockState ι) (i : ι) : Option (LockState ι) :=
  if l.holder = none then some { l with holder := some i } else none

/-- Giving it back. -/
def release [DecidableEq ι] (l : LockState ι) (i : ι) : LockState ι :=
  ⟨none, l.misused || decide (l.holder ≠ some i)⟩

/-- **The lock is owned** by the thread that says it holds it. -/
structure Owned (l : LockState ι) (holds : ι → Prop) : Prop where
  proper : l.misused = false
  holder : ∀ i, l.holder = some i ↔ holds i

variable {l l' : LockState ι} {f : ι → β} {P : β → Prop} {i : ι} {b : β}

theorem owned_unheld (h : ∀ i, ¬ P (f i)) : Owned unheld fun j => P (f j) :=
  ⟨rfl, fun i => ⟨fun hholder => (by cases hholder), fun hi => absurd hi (h i)⟩⟩

/-- **Two threads do not hold it.** -/
theorem Owned.unique {holds : ι → Prop} (h : Owned l holds) {j : ι} (hi : holds i)
    (hj : holds j) : i = j := by
  have hholder := (h.holder i).mpr hi
  rw [(h.holder j).mpr hj] at hholder
  exact (Option.some.inj hholder).symm

theorem acquire_eq_some (h : l.acquire i = some l') :
    l.holder = none ∧ l' = { l with holder := some i } := by
  obtain ⟨hnone, heq⟩ := Option.ite_none_right_eq_some.mp h
  exact ⟨hnone, (Option.some.inj heq).symm⟩

/-- A lock that is free can be taken. -/
theorem acquire_of_free (h : l.holder = none) :
    l.acquire i = some { l with holder := some i } := if_pos h

variable [DecidableEq ι]

/-- **What is taken and given back** is as it was. -/
theorem release_acquired (h : l.holder = none) :
    LockState.release { l with holder := some i } i = l := by
  obtain ⟨holder, misused⟩ := l
  obtain rfl : holder = none := h
  simp [LockState.release]

/-- **A thread takes the lock.** -/
theorem Owned.acquire (h : Owned l fun j => P (f j)) (hl : l.acquire i = some l') (hb : P b) :
    Owned l' fun j => P (Function.update f i b j) := by
  obtain ⟨hnone, rfl⟩ := acquire_eq_some hl
  refine ⟨h.proper, ?_⟩
  intro j
  show some i = some j ↔ P (Function.update f i b j)
  by_cases hj : j = i
  · subst hj
    rw [Function.update_self]
    exact iff_of_true rfl hb
  · rw [Function.update_of_ne hj]
    have hfree : ¬ P (f j) := fun hp => by
      have hholder := (h.holder j).mpr hp
      rw [hnone] at hholder
      cases hholder
    exact iff_of_false (fun heq => hj (Option.some.inj heq).symm) hfree

/-- **The holder gives it back.** -/
theorem Owned.release (h : Owned l fun j => P (f j)) (hi : P (f i)) (hb : ¬ P b) :
    Owned (l.release i) fun j => P (Function.update f i b j) := by
  have hholder := (h.holder i).mpr hi
  refine ⟨?_, ?_⟩
  · rw [LockState.release, h.proper, hholder]
    simp
  · intro j
    refine iff_of_false (fun heq => by cases heq) ?_
    by_cases hj : j = i
    · subst hj
      rw [Function.update_self]
      exact hb
    · rw [Function.update_of_ne hj]
      exact fun hp => hj (h.unique hp hi)

/-- **A thread does something else.** -/
theorem Owned.other (h : Owned l fun j => P (f j)) (hb : P b ↔ P (f i)) :
    Owned l fun j => P (Function.update f i b j) := by
  refine ⟨h.proper, ?_⟩
  intro j
  rw [h.holder j]
  by_cases hj : j = i
  · subst hj
    rw [Function.update_self, hb]
  · rw [Function.update_of_ne hj]

/-- **What a turn does with the lock**: it leaves it, takes it or gives it back, by
what the thread holds before and behind. -/
inductive Moves (l l' : LockState ι) (i : ι) (held holds : Prop) : Prop
  | stays (h : l' = l) (hiff : holds ↔ held) : Moves l l' i held holds
  | taken (h : l.acquire i = some l') (hholds : holds) : Moves l l' i held holds
  | given (h : l' = l.release i) (hheld : held) (hfree : ¬ holds) : Moves l l' i held holds

/-- **Each of the three keeps the owner right.** -/
theorem Owned.moves (h : Owned l fun j => P (f j)) (hmoves : Moves l l' i (P (f i)) (P b)) :
    Owned l' fun j => P (Function.update f i b j) := by
  cases hmoves with
  | stays hl hiff => exact hl ▸ h.other hiff
  | taken hl hb => exact h.acquire hl hb
  | given hl hi hb => exact hl ▸ h.release hi hb

end LockState
