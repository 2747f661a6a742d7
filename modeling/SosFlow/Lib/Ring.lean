import Mathlib.Data.List.Forall2
import Mathlib.Data.List.Rotate

/-!
# Rings that are filled backwards

An array is used as a ring: its contents start at the head and go around the
end. A new value is put one place in front of the head, where the oldest one
is, and the head moves there. So the order of the ring has the new value
first and has lost its last (`rotate_set_before`).
-/

namespace Ring

variable {α β : Type*} {slots : List α} {head : ℕ}

/-- **The place in front of the head**, of `n` places. -/
def before (n head : ℕ) : ℕ := if head = 0 then n - 1 else head - 1

theorem before_lt {n : ℕ} (h : head < n) : before n head < n := by
  unfold before
  split
  · omega
  · omega

/-- **A value in front of the head is the first of the ring**, and the last is gone. -/
theorem rotate_set_before (h : head < slots.length) (x : α) :
    (slots.set (before slots.length head) x).rotate (before slots.length head) =
      x :: (slots.rotate head).dropLast := by
  have hlt := before_lt h
  have hdrop : (slots.set (before slots.length head) x).drop (before slots.length head) =
      x :: slots.drop (before slots.length head + 1) := by
    rw [List.drop_eq_getElem_cons (by rw [List.length_set]; exact hlt), List.getElem_set_self,
      List.drop_set_of_lt (by omega)]
  rw [List.rotate_eq_drop_append_take (by rw [List.length_set]; exact hlt.le), hdrop,
    List.take_set_of_le le_rfl, List.rotate_eq_drop_append_take h.le, List.cons_append]
  congr 1
  unfold before
  by_cases hzero : head = 0
  · rw [if_pos hzero, hzero, List.take_zero, List.append_nil, List.drop_zero,
      Nat.sub_add_cancel (by omega), List.drop_length, List.nil_append, List.dropLast_eq_take]
  · rw [if_neg hzero, Nat.sub_add_cancel (by omega), List.dropLast_append_of_ne_nil ?_]
    · rw [List.dropLast_eq_take, List.length_take, List.take_take, Nat.min_eq_left (by omega),
        Nat.min_eq_left h.le]
    · intro hnil
      have hlength := congrArg List.length hnil
      rw [List.length_take, List.length_nil] at hlength
      omega

/-- **The value that is lost** is the one that was there. -/
theorem getLast_rotate (h : head < slots.length) :
    (slots.rotate head).getLast? = slots[before slots.length head]? := by
  rw [List.rotate_eq_drop_append_take h.le, before]
  by_cases hzero : head = 0
  · rw [if_pos hzero, hzero, List.take_zero, List.append_nil, List.drop_zero,
      List.getLast?_eq_getElem?]
  · have hne : slots.take head ≠ [] := by
      intro hnil
      have hlength := congrArg List.length hnil
      rw [List.length_take, List.length_nil] at hlength
      omega
    rw [if_neg hzero, List.getLast?_append_of_ne_nil _ hne, List.getLast?_eq_getElem?,
      List.length_take, Nat.min_eq_left h.le, List.getElem?_take_of_lt (by omega)]

/-! ## Rings side by side -/

variable {R : α → β → Prop} {xs : List α} {ys zs : List β} {y : β}

/-- What corresponds place by place corresponds in the order of the ring. -/
theorem forall₂_rotate (h : List.Forall₂ R xs ys) (hhead : head ≤ xs.length) :
    List.Forall₂ R (xs.rotate head) (ys.rotate head) := by
  rw [List.rotate_eq_drop_append_take hhead,
    List.rotate_eq_drop_append_take (h.length_eq ▸ hhead)]
  exact List.rel_append (List.forall₂_drop head h) (List.forall₂_take head h)

/-- What corresponds to a list with a place in it has that place. -/
theorem forall₂_split (h : List.Forall₂ R xs (ys ++ y :: zs)) :
    ∃ front x back, xs = front ++ x :: back ∧ front.length = ys.length ∧
      List.Forall₂ R front ys ∧ R x y ∧ List.Forall₂ R back zs := by
  have hfront := List.forall₂_take_append xs ys (y :: zs) h
  have hback := List.forall₂_drop_append xs ys (y :: zs) h
  obtain ⟨x, back, hx, hzs, heq⟩ := List.forall₂_cons_right_iff.mp hback
  refine ⟨xs.take ys.length, x, back, ?_, hfront.length_eq, hfront, hx, hzs⟩
  rw [← heq, List.take_append_drop]

/-- Correspondence changes with what is known of one side. -/
theorem forall₂_imp_mem {S : α → β → Prop} (h : List.Forall₂ R xs ys)
    (himp : ∀ x, ∀ y ∈ ys, R x y → S x y) : List.Forall₂ S xs ys := by
  induction h with
  | nil => exact List.Forall₂.nil
  | cons hxy _ ih =>
      exact List.Forall₂.cons (himp _ _ List.mem_cons_self hxy)
        (ih fun x y hy => himp x y (List.mem_cons_of_mem _ hy))

/-- A place of a list, with what is in front of it and behind. -/
theorem exists_split {i : ℕ} (h : i < xs.length) :
    ∃ front x back, xs = front ++ x :: back ∧ front.length = i ∧ xs[i]? = some x := by
  refine ⟨xs.take i, xs[i], xs.drop (i + 1), ?_, by rw [List.length_take]; omega,
    List.getElem?_eq_getElem h⟩
  rw [← List.drop_eq_getElem_cons h, List.take_append_drop]

end Ring
