import Mathlib.Tactic.Common

/-!
# Loops that may go on for ever

One turn of a loop either ends it with a result or leaves the state of the
next turn. `iterate` takes as many turns as it is given, and `Returns` says
that some number of turns ends the loop.

A loop returns if a measure falls with each of its turns (`terminates`), and
does not if an invariant keeps every turn from ending it (`never_returns`).
What the states of all turns have in common, the result has
(`Returns.of_invariant`). A loop whose turns visit the items of a list one
by one returns what the recursion over the list does (`returns_over`).
-/

namespace Loop

universe u v

/-- **How a turn ends.** -/
inductive Turn (σ : Type u) (α : Type v) where
  | done (result : α)
  | next (s : σ)

/-- The state of the next turn, in another form. -/
def Turn.map {σ τ : Type u} {α : Type v} (f : τ → σ) : Turn τ α → Turn σ α
  | done result => done result
  | next t => next (f t)

variable {σ : Type u} {α : Type v} (body : σ → Turn σ α)

/-- At most that many turns. -/
def iterate : ℕ → σ → Option α
  | 0, _ => none
  | turns + 1, s => match body s with
    | .done result => some result
    | .next s' => iterate turns s'

/-- **The loop ends** with a result. -/
def Returns (s : σ) (result : α) : Prop := ∃ turns, iterate body turns s = some result

variable {body} {s s' : σ} {result : α}

theorem iterate_done (h : body s = .done result) (turns : ℕ) :
    iterate body (turns + 1) s = some result := by
  simp only [iterate, h]

theorem iterate_next (h : body s = .next s') (turns : ℕ) :
    iterate body (turns + 1) s = iterate body turns s' := by
  simp only [iterate, h]

/-- **More turns** change nothing behind the end. -/
theorem iterate_mono {turns more : ℕ} (h : iterate body turns s = some result)
    (hle : turns ≤ more) : iterate body more s = some result := by
  induction turns generalizing s more with
  | zero => cases h
  | succ turns ih =>
      obtain ⟨more, rfl⟩ := Nat.exists_eq_add_of_le' (Nat.le_of_add_left_le hle)
      cases hbody : body s with
      | done ended =>
          rw [iterate_done hbody] at h ⊢
          exact h
      | next s' =>
          rw [iterate_next hbody] at h ⊢
          exact ih h (by omega)

/-- **A turn that ends the loop.** -/
theorem returns_done (h : body s = .done result) {other : α} :
    Returns body s other ↔ other = result := by
  constructor
  · rintro ⟨turns, hturns⟩
    cases turns with
    | zero => cases hturns
    | succ turns => exact (Option.some.inj ((iterate_done h turns).symm.trans hturns)).symm
  · rintro rfl
    exact ⟨1, iterate_done h 0⟩

/-- **A turn that does not.** -/
theorem returns_next (h : body s = .next s') : Returns body s result ↔ Returns body s' result := by
  constructor
  · rintro ⟨turns, hturns⟩
    cases turns with
    | zero => cases hturns
    | succ turns => exact ⟨turns, (iterate_next h turns).symm.trans hturns⟩
  · rintro ⟨turns, hturns⟩
    exact ⟨turns + 1, (iterate_next h turns).trans hturns⟩

/-- **A loop ends in one way.** -/
theorem Returns.unique {other : α} (h : Returns body s result) (h' : Returns body s other) :
    result = other := by
  obtain ⟨turns, hturns⟩ := h
  induction turns generalizing s with
  | zero => cases hturns
  | succ turns ih =>
      cases hbody : body s with
      | done ended =>
          obtain rfl := Option.some.inj ((iterate_done hbody turns).symm.trans hturns)
          exact ((returns_done hbody).mp h').symm
      | next s' =>
          exact ih ((returns_next hbody).mp h') ((iterate_next hbody turns).symm.trans hturns)

/-- **The rule for what a loop returns**: an invariant of its turns, and what it says of
the turn that ends it. -/
theorem Returns.of_invariant (h : Returns body s result) (Inv : σ → Prop) (post : α → Prop)
    (hs : Inv s) (hdone : ∀ s result, Inv s → body s = .done result → post result)
    (hnext : ∀ s s', Inv s → body s = .next s' → Inv s') : post result := by
  obtain ⟨turns, hturns⟩ := h
  induction turns generalizing s with
  | zero => cases hturns
  | succ turns ih =>
      cases hbody : body s with
      | done ended =>
          obtain rfl := Option.some.inj ((iterate_done hbody turns).symm.trans hturns)
          exact hdone s _ hs hbody
      | next s' => exact ih (hnext s s' hs hbody) ((iterate_next hbody turns).symm.trans hturns)

/-- **The rule for termination.** -/
theorem terminates (Inv : σ → Prop) (measure : σ → ℕ)
    (hnext : ∀ s s', Inv s → body s = .next s' → Inv s' ∧ measure s' < measure s) (hs : Inv s) :
    ∃ result, Returns body s result := by
  induction hn : measure s using Nat.strongRecOn generalizing s with
  | ind n ih =>
      cases hbody : body s with
      | done ended => exact ⟨ended, (returns_done hbody).mpr rfl⟩
      | next s' =>
          obtain ⟨hs', hlt⟩ := hnext s s' hs hbody
          obtain ⟨result, hresult⟩ := ih (measure s') (hn ▸ hlt) hs' rfl
          exact ⟨result, (returns_next hbody).mpr hresult⟩

/-- **The rule for a loop that goes on for ever.** -/
theorem never_returns (Inv : σ → Prop)
    (hnext : ∀ s, Inv s → ∃ s', body s = .next s' ∧ Inv s') (hs : Inv s) :
    ¬ Returns body s result := by
  rintro ⟨turns, hturns⟩
  induction turns generalizing s with
  | zero => cases hturns
  | succ turns ih =>
      obtain ⟨s', hbody, hs'⟩ := hnext s hs
      exact ih hs' ((iterate_next hbody turns).symm.trans hturns)

/-! ## Visiting a list -/

section

variable {ι : Type*} {τ : Type u}

/-- **The recursion over a list** that visits an item a turn. -/
def overList (visit : ι → τ → Turn τ α) (finish : τ → α) : List ι → τ → α
  | [], t => finish t
  | x :: xs, t => match visit x t with
    | .done result => result
    | .next t' => overList visit finish xs t'

variable {visit : ι → τ → Turn τ α} {finish : τ → α} {x : ι} {xs : List ι} {t t' : τ}

theorem over_done (h : visit x t = .done result) : overList visit finish (x :: xs) t = result := by
  simp only [overList, h]

theorem over_next (h : visit x t = .next t') :
    overList visit finish (x :: xs) t = overList visit finish xs t' := by
  simp only [overList, h]

/-- **A loop that visits a list**, from the state `place k` at item `k` on, and ends
behind the last, returns what the recursion does. -/
theorem returns_over (place : ℕ → τ → σ) (xs : List ι)
    (hvisit : ∀ k x t, xs[k]? = some x →
      body (place k t) = (visit x t).map (place (k + 1)))
    (hend : ∀ t, body (place xs.length t) = .done (finish t)) (t : τ) :
    Returns body (place 0 t) (overList visit finish xs t) := by
  induction xs generalizing place t with
  | nil => exact (returns_done (hend t)).mpr rfl
  | cons x xs ih =>
      have hfirst := hvisit 0 x t rfl
      cases hx : visit x t with
      | done ended =>
          rw [over_done hx]
          rw [hx] at hfirst
          exact (returns_done hfirst).mpr rfl
      | next t' =>
          rw [over_next hx]
          rw [hx] at hfirst
          refine (returns_next hfirst).mpr (ih (fun k => place (k + 1)) ?_ hend t')
          intro k y s hk
          exact hvisit (k + 1) y s hk

end

end Loop
