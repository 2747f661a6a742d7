import Mathlib.Data.List.Forall2

/-!
# Lists kept in step

Two lists are in step when they have the same length and a relation holds
of their entries pair by pair: `List.Forall₂`. The rules below read a pair
out by position or by membership, and keep two lists in step when one entry
is replaced or one pair is added.
-/

namespace Lockstep

open List

variable {α β : Type*} {R S : α → β → Prop} {l : List α} {m : List β}

/-- The entry beside one on the left. -/
theorem right_of_getElem? (h : Forall₂ R l m) {i : ℕ} {a : α} (ha : l[i]? = some a) :
    ∃ b, m[i]? = some b ∧ R a b := by
  induction h generalizing i with
  | nil => simp at ha
  | cons hab _ ih =>
      cases i with
      | zero =>
          rw [getElem?_cons_zero, Option.some.injEq] at ha
          exact ⟨_, getElem?_cons_zero, ha ▸ hab⟩
      | succ i => exact ih (by simpa using ha)

theorem right_of_mem (h : Forall₂ R l m) {a : α} (ha : a ∈ l) : ∃ b ∈ m, R a b := by
  obtain ⟨i, hi⟩ := mem_iff_getElem?.mp ha
  obtain ⟨b, hb, hab⟩ := right_of_getElem? h hi
  exact ⟨b, mem_of_getElem? hb, hab⟩

theorem left_of_mem (h : Forall₂ R l m) {b : β} (hb : b ∈ m) : ∃ a ∈ l, R a b :=
  right_of_mem h.flip hb

/-- **Another relation**, which may use that the left entry is in its list. -/
theorem imp_mem (h : Forall₂ R l m) (hRS : ∀ a ∈ l, ∀ b, R a b → S a b) : Forall₂ S l m := by
  induction h with
  | nil => exact .nil
  | cons hab _ ih =>
      exact .cons (hRS _ mem_cons_self _ hab) (ih fun a ha => hRS a (mem_cons_of_mem _ ha))

/-- **Three lists in step**, by way of the one in the middle. -/
theorem comp {γ : Type*} {T : β → γ → Prop} {U : α → γ → Prop} {n : List γ}
    (h : Forall₂ R l m) (h' : Forall₂ T m n) (hRT : ∀ a b c, R a b → T b c → U a c) :
    Forall₂ U l n := by
  induction h generalizing n with
  | nil =>
      cases h'
      exact .nil
  | cons hab _ ih =>
      cases h' with
      | cons hbc hrest => exact .cons (hRT _ _ _ hab hbc) (ih hrest)

/-- **Adding a pair** at the end. -/
theorem concat (h : Forall₂ R l m) {a : α} {b : β} (hab : R a b) :
    Forall₂ R (l ++ [a]) (m ++ [b]) :=
  rel_append h (.cons hab .nil)

/-- **Replacing an entry** on the right: the other pairs keep a relation, and
the new entry has it to the one beside it. -/
theorem set (h : Forall₂ R l m) {pos : ℕ} {b' : β}
    (hother : ∀ i a b, i ≠ pos → l[i]? = some a → R a b → S a b)
    (hpos : ∀ a, l[pos]? = some a → S a b') : Forall₂ S l (m.set pos b') := by
  induction h generalizing pos with
  | nil => exact .nil
  | @cons a b l m hab _ ih =>
      cases pos with
      | zero =>
          refine .cons (hpos a rfl) ?_
          rename_i hrest
          refine (forall₂_iff_get.mpr ⟨hrest.length_eq, fun i hi hi' => ?_⟩)
          exact hother (i + 1) _ _ (by omega) (getElem?_eq_getElem hi)
            ((forall₂_iff_get.mp hrest).2 i hi hi')
      | succ pos =>
          refine .cons (hother 0 a b (by omega) rfl hab) (ih ?_ hpos)
          exact fun i a b hne ha => hother (i + 1) a b (by omega) ha

end Lockstep
