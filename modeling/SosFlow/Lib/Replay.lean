import Mathlib.Data.List.Basic
import Mathlib.Tactic.Common

/-!
# A replica that lags

A leader applies updates one after the other and sends each on. A replica
receives them in that order, and applies each when it comes to it. `Replays`
is the leader's history over a list of updates, and the replica `Lags` by the
updates on their way: it simulates the state the leader was in before them.

A lag grows at its end when the leader applies an update (`Lags.lead`), and
shrinks at its front when the replica does (`Lags.follow`). A replica that
lags by nothing simulates the leader (`lags_nil`).
-/

namespace Replication

variable {σ τ μ : Type*} {step : σ → μ → σ → Prop}

/-- **The updates that lead from a state to another**, oldest first. -/
inductive Replays (step : σ → μ → σ → Prop) : σ → List μ → σ → Prop
  | nil (s : σ) : Replays step s [] s
  | cons {s s' s'' : σ} {m : μ} {ms : List μ} (first : step s m s')
      (rest : Replays step s' ms s'') : Replays step s (m :: ms) s''

/-- One update more, at the end. -/
theorem Replays.concat {s s' s'' : σ} {ms : List μ} {m : μ} (h : Replays step s ms s')
    (hlast : step s' m s'') : Replays step s (ms ++ [m]) s'' := by
  induction h with
  | nil s => exact .cons hlast (.nil s'')
  | cons first rest ih => exact .cons first (ih hlast)

/-- **The replica lags by the updates on their way.** -/
def Lags (sim : σ → τ → Prop) (step : σ → μ → σ → Prop) (ms : List μ) (s : σ) (r : τ) : Prop :=
  ∃ s₀, sim s₀ r ∧ Replays step s₀ ms s

variable {sim : σ → τ → Prop} {s s' : σ} {r : τ} {ms : List μ} {m : μ}

@[simp] theorem lags_nil : Lags sim step [] s r ↔ sim s r := by
  constructor
  · rintro ⟨s₀, hsim, hreplays⟩
    cases hreplays
    exact hsim
  · exact fun hsim => ⟨s, hsim, .nil s⟩

/-- **The leader goes ahead.** -/
theorem Lags.lead (h : Lags sim step ms s r) (hstep : step s m s') :
    Lags sim step (ms ++ [m]) s' r := by
  obtain ⟨s₀, hsim, hreplays⟩ := h
  exact ⟨s₀, hsim, hreplays.concat hstep⟩

/-- **The replica catches up**, by a step that simulates the leader's. -/
theorem Lags.follow {post : τ → Prop} (h : Lags sim step (m :: ms) s r)
    (hsim : ∀ s₀ s₁, sim s₀ r → step s₀ m s₁ → ∃ r', post r' ∧ sim s₁ r') :
    ∃ r', post r' ∧ Lags sim step ms s r' := by
  obtain ⟨s₀, h₀, hreplays⟩ := h
  cases hreplays with
  | cons first rest =>
      obtain ⟨r', hr', h₁⟩ := hsim _ _ h₀ first
      exact ⟨r', hr', _, h₁, rest⟩

end Replication
