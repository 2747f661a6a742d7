import Mathlib.Data.List.Nodup
import Mathlib.Data.Set.Basic
import Mathlib.Tactic.Common

/-!
# Handing out what one owns

Several owners each hold a set of values and hand them out one by one, and
may pass part of what they hold to another owner. No value is handed out
twice as long as no two owners hold the same value, and nobody still holds
one that was handed out. `Ledger.Sound` is that condition, and the rules
below are the ways it survives a change: a value comes in, one is used, a
part is passed on, or something is forgotten.
-/

namespace Ownership

variable {ι α : Type*}

/-- **Who may hand out what**, and what was handed out. -/
structure Ledger (ι α : Type*) where
  owns : ι → Set α
  used : List α

/-- **A ledger in order**, over the values there are in `total`. -/
structure Ledger.Sound (total : Set α) (l : Ledger ι α) : Prop where
  owns_mem : ∀ i x, x ∈ l.owns i → x ∈ total
  unique : ∀ i j x, x ∈ l.owns i → x ∈ l.owns j → i = j
  used_mem : ∀ x ∈ l.used, x ∈ total
  nodup : l.used.Nodup
  spent : ∀ x ∈ l.used, ∀ i, x ∉ l.owns i

variable {total : Set α} {l l' : Ledger ι α}

/-- **Forgetting**: who holds less holds nothing new. -/
theorem Ledger.Sound.mono (h : l.Sound total) (howns : ∀ i x, x ∈ l'.owns i → x ∈ l.owns i)
    (hused : l'.used = l.used) : l'.Sound total where
  owns_mem i x hx := h.owns_mem i x (howns i x hx)
  unique i j x hi hj := h.unique i j x (howns i x hi) (howns j x hj)
  used_mem := hused ▸ h.used_mem
  nodup := hused ▸ h.nodup
  spent x hx i hi := h.spent x (hused ▸ hx) i (howns i x hi)

/-- **Getting a new value**, one that nobody has had. -/
theorem Ledger.Sound.gain {total' : Set α} (h : l.Sound total) {i : ι} {x : α} (hx : x ∉ total)
    (htotal : ∀ y, y ∈ total ∨ y = x → y ∈ total')
    (hi : ∀ y, y ∈ l'.owns i → y ∈ l.owns i ∨ y = x)
    (hrest : ∀ j, j ≠ i → ∀ y, y ∈ l'.owns j → y ∈ l.owns j) (hused : l'.used = l.used) :
    l'.Sound total' := by
  -- what is held now is the new value, or was held before
  have hbefore : ∀ j y, y ∈ l'.owns j → y ∈ l.owns j ∨ (j = i ∧ y = x) := by
    intro j y hy
    by_cases hj : j = i
    · subst hj
      exact (hi y hy).imp_right fun hnew => ⟨rfl, hnew⟩
    · exact .inl (hrest j hj y hy)
  refine ⟨?_, ?_, ?_, hused ▸ h.nodup, ?_⟩
  · intro j y hy
    exact htotal y ((hbefore j y hy).imp (h.owns_mem j y) And.right)
  · intro j k y hj hk
    rcases hbefore j y hj with hold | ⟨rfl, rfl⟩ <;> rcases hbefore k y hk with hold' | ⟨rfl, hnew⟩
    · exact h.unique j k y hold hold'
    · exact absurd (h.owns_mem j y hold) (hnew ▸ hx)
    · exact absurd (h.owns_mem k y hold') hx
    · rfl
  · intro y hy
    exact htotal y (.inl (h.used_mem y (hused ▸ hy)))
  · intro y hy j hj
    rw [hused] at hy
    rcases hbefore j y hj with hold | ⟨-, rfl⟩
    · exact h.spent y hy j hold
    · exact hx (h.used_mem y hy)

/-- **Using a value**: its owner hands it out and holds it no more. -/
theorem Ledger.Sound.use (h : l.Sound total) {i : ι} {x : α} (hx : x ∈ l.owns i)
    (howns : ∀ j y, y ∈ l'.owns j → y ∈ l.owns j) (hgone : x ∉ l'.owns i)
    (hused : l'.used = l.used ++ [x]) : l'.Sound total where
  owns_mem j y hy := h.owns_mem j y (howns j y hy)
  unique j k y hj hk := h.unique j k y (howns j y hj) (howns k y hk)
  used_mem y hy := by
    rw [hused, List.mem_append, List.mem_singleton] at hy
    rcases hy with hy | rfl
    · exact h.used_mem y hy
    · exact h.owns_mem i y hx
  nodup := by
    rw [hused]
    refine List.nodup_append.mpr ⟨h.nodup, List.nodup_singleton x, ?_⟩
    rintro y hy z hz rfl
    rw [List.mem_singleton] at hz
    exact h.spent y hy i (hz ▸ hx)
  spent y hy j hj := by
    rw [hused, List.mem_append, List.mem_singleton] at hy
    rcases hy with hy | rfl
    · exact h.spent y hy j (howns j y hj)
    · obtain rfl := h.unique i j y hx (howns j y hj)
      exact hgone hj

/-- **Passing on**: one owner gives part of what it holds to another. -/
theorem Ledger.Sound.pass (h : l.Sound total) {i j : ι}
    (hi : ∀ x, x ∈ l'.owns i → x ∈ l.owns i)
    (hj : ∀ x, x ∈ l'.owns j → x ∈ l.owns j ∨ x ∈ l.owns i ∧ x ∉ l'.owns i)
    (hrest : ∀ k, k ≠ i → k ≠ j → ∀ x, x ∈ l'.owns k → x ∈ l.owns k)
    (hused : l'.used = l.used) : l'.Sound total := by
  -- whatever is held now was held before, by the giver if not by the holder
  have hbefore : ∀ k x, x ∈ l'.owns k →
      x ∈ l.owns k ∨ k = j ∧ x ∈ l.owns i ∧ x ∉ l'.owns i := by
    intro k x hx
    by_cases hki : k = i
    · exact .inl (hki ▸ hi x (hki ▸ hx))
    · by_cases hkj : k = j
      · exact (hj x (hkj ▸ hx)).imp (fun hold => hkj ▸ hold) fun hgiven => ⟨hkj, hgiven⟩
      · exact .inl (hrest k hki hkj x hx)
  refine ⟨?_, ?_, hused ▸ h.used_mem, hused ▸ h.nodup, ?_⟩
  · intro k x hx
    rcases hbefore k x hx with hold | ⟨_, hold, _⟩
    · exact h.owns_mem k x hold
    · exact h.owns_mem i x hold
  · intro k k' x hk hk'
    rcases hbefore k x hk with hold | ⟨rfl, hold, hgone⟩ <;>
      rcases hbefore k' x hk' with hold' | ⟨rfl, hold', hgone'⟩
    · exact h.unique k k' x hold hold'
    · obtain rfl := h.unique k i x hold hold'
      exact absurd hk hgone'
    · obtain rfl := h.unique k' i x hold' hold
      exact absurd hk' hgone
    · rfl
  · intro x hx k hk
    rw [hused] at hx
    rcases hbefore k x hk with hold | ⟨_, hold, _⟩
    · exact h.spent x hx k hold
    · exact h.spent x hx i hold

end Ownership
