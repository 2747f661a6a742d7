import Mathlib.Data.List.Rotate
import Mathlib.Data.Nat.ModEq
import Mathlib.Tactic.Common

/-!
# A buffer that is read around its end

The cells of a buffer are numbered from any place of it, around the end and
on from the front: `window cells start n` are the first `n` of them. What a
queue in the buffer needs is how a window grows at its end when a cell
behind it is set (`window_set_succ`), and that it is joined, and taken from
at the front, without a copy (`window_add`, `window_drop`).
-/

namespace Cyclic

variable {α : Type*} (cells : List α) (start : ℕ)

/-- **The first `n` cells from `start` on**, around the end. -/
def window (n : ℕ) : List α := (cells.rotate start).take n

variable {cells start} {i k m n : ℕ} {x : α}

@[simp] theorem window_zero : window cells start 0 = [] := List.take_zero

theorem length_window (h : n ≤ cells.length) : (window cells start n).length = n := by
  rw [window, List.length_take, List.length_rotate, Nat.min_eq_left h]

/-- Where it starts counts only up to the length. -/
theorem window_mod : window cells (start % cells.length) n = window cells start n := by
  rw [window, List.rotate_mod, window]

theorem window_congr {start' : ℕ} (h : start % cells.length = start' % cells.length) :
    window cells start n = window cells start' n := by
  rw [← window_mod, h, window_mod]

theorem getElem?_window (hk : k < n) (hn : n ≤ cells.length) :
    (window cells start n)[k]? = cells[(start + k) % cells.length]? := by
  rw [window, List.getElem?_take_of_lt hk, List.getElem?_rotate (by omega), Nat.add_comm]

/-- **Two windows that touch are one.** -/
theorem window_add (h : m + n ≤ cells.length) :
    window cells start (m + n) = window cells start m ++ window cells (start + m) n := by
  have hlength : (cells.rotate start).length = cells.length := List.length_rotate ..
  have hturned : cells.rotate (start + m) =
      (cells.rotate start).drop m ++ (cells.rotate start).take m := by
    rw [← List.rotate_rotate, List.rotate_eq_drop_append_take (by omega)]
  rw [window, window, window, hturned, List.take_append_of_le_length
    (by rw [List.length_drop]; omega), List.take_add]

/-- What is left of a window when its first cells are taken away. -/
theorem window_drop (hm : m ≤ n) (hn : n ≤ cells.length) :
    (window cells start n).drop m = window cells (start + m) (n - m) := by
  have hsplit : window cells start (m + (n - m)) =
      window cells start m ++ window cells (start + m) (n - m) := window_add (by omega)
  rw [Nat.add_sub_cancel' hm] at hsplit
  rw [hsplit, List.drop_left' (length_window (by omega))]

/-- One cell more. -/
theorem window_succ (h : n < cells.length) (hx : cells[(start + n) % cells.length]? = some x) :
    window cells start (n + 1) = window cells start n ++ [x] := by
  have hget : (window cells start (n + 1))[n]? = some x := by
    rw [getElem?_window (by omega) (by omega), hx]
  rw [window, List.take_add_one, ← window]
  rw [window, List.getElem?_take_of_lt (by omega)] at hget
  rw [hget, Option.toList_some]

/-! ## Setting a cell -/

/-- Two places of one round are the same only when they are the same number. -/
theorem mod_inj {size : ℕ} (hi : i < size) (hk : k < size)
    (h : (start + i) % size = (start + k) % size) : i = k := by
  have hcong : i ≡ k [MOD size] := Nat.ModEq.add_left_cancel' start h
  exact hcong.eq_of_lt_of_lt hi hk

/-- **A cell outside a window** is set without a change to it. -/
theorem window_set_of_le (hk : n ≤ k) (hlt : k < cells.length) :
    window (cells.set ((start + k) % cells.length) x) start n = window cells start n := by
  apply List.ext_getElem?
  intro j
  by_cases hj : j < n
  · rw [getElem?_window hj (by rw [List.length_set]; omega), getElem?_window hj (by omega),
      List.length_set, List.getElem?_set_ne]
    intro heq
    have hjk := mod_inj (by omega) (by omega) heq
    omega
  · have hlong : (window (cells.set ((start + k) % cells.length) x) start n).length = n :=
      length_window (by rw [List.length_set]; omega)
    have hlong' : (window cells start n).length = n := length_window (by omega)
    rw [List.getElem?_eq_none (by omega), List.getElem?_eq_none (by omega)]

/-- **A cell behind a window** is set, and the window is longer by it. -/
theorem window_set_succ (h : n < cells.length) :
    window (cells.set ((start + n) % cells.length) x) start (n + 1) =
      window cells start n ++ [x] := by
  have hplace : (start + n) % cells.length < cells.length := Nat.mod_lt _ (by omega)
  rw [window_succ (x := x) (by rw [List.length_set]; exact h)
    (by rw [List.length_set, List.getElem?_set_self hplace]), window_set_of_le le_rfl h]

/-! ## The places of a window -/

/-- **The numbers of `n` cells** from `start` on, around the end of `size` cells. -/
def places (start size n : ℕ) : List ℕ := (List.range n).map fun i => (start + i) % size

@[simp] theorem length_places {size : ℕ} : (places start size n).length = n := by
  rw [places, List.length_map, List.length_range]

theorem places_add {size : ℕ} :
    places start size (m + n) = places start size m ++ places (start + m) size n := by
  rw [places, List.range_add, List.map_append, List.map_map]
  simp only [places, Function.comp_def, Nat.add_assoc]

theorem places_mod {size : ℕ} : places (start % size) size n = places start size n := by
  simp only [places, Nat.mod_add_mod]

/-- The first place, and the rest. -/
theorem places_succ {size : ℕ} :
    places start size (n + 1) = start % size :: places (start + 1) size n := by
  rw [Nat.add_comm n 1, places_add]
  rfl

/-- The places do not go around the end. -/
theorem places_eq_range' {size : ℕ} (h : start + n ≤ size) :
    places start size n = List.range' start n := by
  rw [List.range'_eq_map_range, places]
  refine List.map_congr_left fun i hi => ?_
  have hlt := List.mem_range.mp hi
  exact Nat.mod_eq_of_lt (by omega)

/-- **The places go around the end**: up to it, and then from the front. -/
theorem places_eq_append {size : ℕ} (h : size ≤ start + n) (hstart : start ≤ size)
    (hn : start + n - size ≤ size) :
    places start size n =
      List.range' start (size - start) ++ List.range' 0 (start + n - size) := by
  have hsplit : n = (size - start) + (start + n - size) := by omega
  have hround : ∀ k, places (start + (size - start)) size k = places 0 size k := by
    intro k
    rw [← places_mod, Nat.add_sub_cancel' hstart, Nat.mod_self]
  rw [hsplit, places_add, places_eq_range' (by omega), hround, places_eq_range' (by omega),
    ← hsplit]

/-! ## A window that does not go around the end -/

theorem window_eq_take (h : start + n ≤ cells.length) :
    window cells start n = (cells.drop start).take n := by
  rw [window, List.rotate_eq_drop_append_take (by omega),
    List.take_append_of_le_length (by rw [List.length_drop]; omega)]

/-- **A window that goes around** is the end of the buffer and then its front. -/
theorem window_eq_append (hstart : start ≤ cells.length) (h : cells.length ≤ start + n)
    (hn : n ≤ cells.length) :
    window cells start n = cells.drop start ++ cells.take (start + n - cells.length) := by
  rw [window, List.rotate_eq_drop_append_take hstart, List.take_append, List.length_drop,
    List.take_of_length_le (by rw [List.length_drop]; omega), List.take_take,
    Nat.min_eq_left (by omega)]
  congr 2
  omega

end Cyclic
