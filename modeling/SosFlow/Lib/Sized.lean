import Mathlib.Tactic.Common

/-!
# Sequences addressed by size

A sequence of items, each of some size, as it lies in a memory: an item is
found at the sum of the sizes in front of it. To overwrite at such an offset
replaces as much as is written. Where what is replaced has the size of what
replaces it, nothing behind it moves (`overwrite_middle`).
-/

namespace Sized

variable {α : Type*} (size : α → ℕ)

/-- The sizes together. -/
def total : List α → ℕ
  | [] => 0
  | x :: xs => size x + total xs

/-- The items in front of an offset. -/
def upTo : ℕ → List α → List α
  | _, [] => []
  | n, x :: xs => if n = 0 then [] else x :: upTo (n - size x) xs

/-- The items behind it. -/
def behind : ℕ → List α → List α
  | _, [] => []
  | n, x :: xs => if n = 0 then x :: xs else behind (n - size x) xs

/-- **Writing at an offset**, over as much as is written. -/
def overwrite (xs : List α) (offset : ℕ) (ys : List α) : List α :=
  upTo size offset xs ++ ys ++ behind size (total size ys) (behind size offset xs)

/-- **At an offset begin** the items `rest`, behind others that fill it. -/
def At (xs : List α) (offset : ℕ) (rest : List α) : Prop :=
  ∃ before, xs = before ++ rest ∧ offset = total size before

variable {size}

@[simp] theorem total_nil : total size [] = 0 := rfl

@[simp] theorem total_cons (x : α) (xs : List α) :
    total size (x :: xs) = size x + total size xs := rfl

@[simp] theorem total_append (xs ys : List α) :
    total size (xs ++ ys) = total size xs + total size ys := by
  induction xs with
  | nil => exact (Nat.zero_add _).symm
  | cons x xs ih => rw [List.cons_append, total_cons, total_cons, ih, Nat.add_assoc]

theorem behind_nil (n : ℕ) : behind size n [] = [] := by
  cases n <;> rfl

/-- Nothing is in front of the start. -/
theorem upTo_zero (xs : List α) : upTo size 0 xs = [] := by
  cases xs <;> simp [upTo]

theorem behind_zero (xs : List α) : behind size 0 xs = xs := by
  cases xs <;> simp [behind]

/-- **An offset behind some items** finds them in front of it. -/
theorem upTo_total (hpos : ∀ x, 0 < size x) (xs ys : List α) :
    upTo size (total size xs) (xs ++ ys) = xs := by
  induction xs with
  | nil => exact upTo_zero ys
  | cons x xs ih =>
      have hx := hpos x
      rw [total_cons, List.cons_append, upTo, if_neg (by omega), Nat.add_sub_cancel_left, ih]

/-- And the others behind it. -/
theorem behind_total (hpos : ∀ x, 0 < size x) (xs ys : List α) :
    behind size (total size xs) (xs ++ ys) = ys := by
  induction xs with
  | nil => exact behind_zero ys
  | cons x xs ih =>
      have hx := hpos x
      rw [total_cons, List.cons_append, behind, if_neg (by omega), Nat.add_sub_cancel_left, ih]

/-- What begins at an offset is what is behind it. -/
theorem At.behind (hpos : ∀ x, 0 < size x) {xs rest : List α} {offset : ℕ}
    (h : At size xs offset rest) : behind size offset xs = rest := by
  obtain ⟨before, rfl, rfl⟩ := h
  exact behind_total hpos before rest

/-- Behind one item begin the next ones. -/
theorem At.next {xs rest : List α} {offset : ℕ} {x : α} (h : At size xs offset (x :: rest)) :
    At size xs (offset + size x) rest := by
  obtain ⟨before, rfl, rfl⟩ := h
  refine ⟨before ++ [x], ?_, ?_⟩
  · rw [List.append_assoc, List.singleton_append]
  · rw [total_append, total_cons, total_nil, Nat.add_zero]

theorem At.start (xs : List α) : At size xs 0 xs := ⟨[], rfl, rfl⟩

/-- **Writing at the end** appends. -/
theorem overwrite_end (hpos : ∀ x, 0 < size x) (xs ys : List α) :
    overwrite size xs (total size xs) ys = xs ++ ys := by
  have hup := upTo_total hpos xs []
  have hbehind := behind_total hpos xs []
  rw [List.append_nil] at hup hbehind
  rw [overwrite, hup, hbehind, behind_nil, List.append_nil]

/-- **Writing over items of the same size** replaces these and moves no others. -/
theorem overwrite_middle (hpos : ∀ x, 0 < size x) (before after : List α) {old new : List α}
    (hsize : total size old = total size new) :
    overwrite size (before ++ old ++ after) (total size before) new = before ++ new ++ after := by
  have hassoc : before ++ old ++ after = before ++ (old ++ after) := List.append_assoc _ _ _
  rw [overwrite, hassoc, upTo_total hpos, behind_total hpos, ← hsize, behind_total hpos]

end Sized
