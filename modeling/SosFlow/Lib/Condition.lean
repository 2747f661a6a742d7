import Mathlib.Data.List.Basic
import Mathlib.Tactic.Common

/-!
# A condition variable

Threads go to sleep on a condition, and a broadcast wakes them all. A signal
wakes one of those who sleep at that moment, and nothing says which: here it
is kept with the list of those it may wake, and the first of them to have a
turn takes it. So the choice is the schedule's, as all others are.
-/

/-- **A condition**: who sleeps on it, and for each signal that nobody has taken yet
those who slept when it came. -/
structure CondState (ι : Type*) where
  asleep : List ι
  signals : List (List ι)
deriving DecidableEq

namespace CondState

variable {ι : Type*}

/-- A condition that nobody sleeps on. -/
def idle : CondState ι := ⟨[], []⟩

/-- Going to sleep. -/
def wait (c : CondState ι) (i : ι) : CondState ι := { c with asleep := i :: c.asleep }

/-- **Waking one** of those who sleep; with nobody asleep it is lost. -/
def signal (c : CondState ι) : CondState ι :=
  if c.asleep = [] then c else { c with signals := c.signals ++ [c.asleep] }

/-- Waking all. -/
def broadcast (_ : CondState ι) : CondState ι := idle

/-- The thread sleeps, and there is no signal that it may take. -/
def Asleep (c : CondState ι) (i : ι) : Prop := i ∈ c.asleep ∧ ∀ woken ∈ c.signals, i ∉ woken

variable [DecidableEq ι]

instance (c : CondState ι) (i : ι) : Decidable (c.Asleep i) :=
  inferInstanceAs (Decidable (i ∈ c.asleep ∧ ∀ woken ∈ c.signals, i ∉ woken))

/-- **Waking up**: the thread takes the oldest of the signals it may take. -/
def wake (c : CondState ι) (i : ι) : CondState ι :=
  ⟨c.asleep.filter fun j => j ≠ i,
    (c.signals.eraseP fun woken => i ∈ woken).map fun woken => woken.filter fun j => j ≠ i⟩

omit [DecidableEq ι] in
@[simp] theorem signal_idle : (idle : CondState ι).signal = idle := if_pos rfl

omit [DecidableEq ι] in
/-- Whoever goes to sleep on a condition without signals is asleep. -/
theorem asleep_wait {c : CondState ι} (hnone : c.signals = []) (i : ι) : (c.wait i).Asleep i := by
  refine ⟨List.mem_cons_self, fun woken hwoken => ?_⟩
  have hmem : woken ∈ c.signals := hwoken
  rw [hnone] at hmem
  exact absurd hmem List.not_mem_nil

omit [DecidableEq ι] in
/-- **A signal may wake any who sleep.** -/
theorem not_asleep_signal {c : CondState ι} {i : ι} (hi : i ∈ c.asleep) :
    ¬ c.signal.Asleep i := by
  rintro ⟨-, hnone⟩
  refine hnone c.asleep ?_ hi
  rw [signal, if_neg (List.ne_nil_of_mem hi)]
  exact List.mem_append_right _ List.mem_cons_self

/-- **And it wakes no more than one**: once that one is up, the others sleep on. -/
theorem asleep_wake_signal {c : CondState ι} {i j : ι} (hnone : c.signals = [])
    (hi : i ∈ c.asleep) (hj : j ∈ c.asleep) (hne : j ≠ i) : (c.signal.wake i).Asleep j := by
  have hsignal : c.signal = ⟨c.asleep, [c.asleep]⟩ := by
    rw [signal, if_neg (List.ne_nil_of_mem hi), hnone, List.nil_append]
  have htaken : [c.asleep].eraseP (fun woken => decide (i ∈ woken)) = [] :=
    List.eraseP_cons_of_pos (decide_eq_true hi)
  rw [hsignal]
  refine ⟨List.mem_filter.mpr ⟨hj, decide_eq_true hne⟩, fun woken hwoken => ?_⟩
  have hmem : woken ∈ ([c.asleep].eraseP fun woken => decide (i ∈ woken)).map fun woken =>
      woken.filter fun j => j ≠ i := hwoken
  rw [htaken] at hmem
  exact absurd hmem List.not_mem_nil

end CondState
