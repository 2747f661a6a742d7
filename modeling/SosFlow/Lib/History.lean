import Mathlib.Data.List.Basic
import Mathlib.Tactic.Common

/-!
# What came after an event

A history is the list of what has happened, oldest first. `Behind log x P`
says that `P` holds of what came after `x`, whenever that happened. A
property of that kind is kept by adding to it: `behind_append` splits it into
the events there were, which now have more behind them, and the new ones.
-/

namespace History

variable {α : Type*}

/-- **Behind every occurrence** of an event. -/
def Behind (log : List α) (x : α) (P : List α → Prop) : Prop :=
  ∀ before after, log = before ++ x :: after → P after

variable {log new : List α} {x : α} {P Q : List α → Prop}

theorem behind_of_notMem (h : x ∉ log) : Behind log x P := by
  rintro before after rfl
  exact absurd (List.mem_append_right _ List.mem_cons_self) h

@[simp] theorem behind_nil : Behind [] x P := behind_of_notMem List.not_mem_nil

theorem Behind.mono (h : Behind log x P) (hPQ : ∀ after, P after → Q after) : Behind log x Q :=
  fun before after hlog => hPQ after (h before after hlog)

/-- What comes behind an event has happened. -/
theorem behind_of_forall (h : x ∈ log → ∀ after, after ⊆ log → P after) : Behind log x P := by
  rintro before after rfl
  refine h (List.mem_append_right _ List.mem_cons_self) after fun y hy => ?_
  exact List.mem_append_right _ (List.mem_cons_of_mem _ hy)

/-- **Adding to a history.** -/
theorem behind_append :
    Behind (log ++ new) x P ↔ Behind log x (fun after => P (after ++ new)) ∧ Behind new x P := by
  constructor
  · refine fun h => ⟨fun before after hlog => ?_, fun before after hnew => ?_⟩
    · exact h before (after ++ new) (by rw [hlog, List.append_assoc, List.cons_append])
    · exact h (log ++ before) after (by rw [hnew, List.append_assoc])
  · rintro ⟨hold, hnew⟩ before after happend
    rcases List.append_eq_append_iff.mp happend with ⟨rest, -, hrest⟩ | ⟨rest, hlog, hrest⟩
    · exact hnew rest after hrest
    · cases rest with
      | nil => exact hnew [] after hrest.symm
      | cons y rest =>
          obtain ⟨rfl, rfl⟩ := List.cons.inj hrest
          exact hold before rest hlog

end History
