import Mathlib.Data.List.Basic
import Mathlib.Tactic.Common

/-!
# Arrays of rows that may be resized

A two-dimensional array is a list of rows, and a place of it is empty or
holds a value. A loop over the first places of an array is defined only
when the array has them. What is read at a place outside is nothing, so
that resizing an array with empty places changes no reading
(`place_extend`, `cell_widen`, `cell_lengthen`).
-/

namespace Grid

universe u

variable {α β : Type u}

/-- What is read at a place. -/
def place (xs : List (Option α)) (i : ℕ) : Option α := xs[i]?.getD none

/-- What is read in a row, at a column. -/
def cell (rows : List (List (Option α))) (row col : ℕ) : Option α :=
  place (rows[row]?.getD []) col

/-- An assignment to one place, which the array must have. -/
def assign (xs : List β) (i : ℕ) (x : β) : Option (List β) :=
  if i < xs.length then some (xs.set i x) else none

/-- An assignment to one cell. -/
def assignCell (rows : List (List (Option α))) (row col : ℕ) (x : Option α) :
    Option (List (List (Option α))) := do
  let line ← rows[row]?
  let line ← assign line col x
  some (rows.set row line)

/-- **The loop over the first places**: each is replaced by what `f` makes of it. -/
def eachBelow (f : β → Option β) : ℕ → List β → Option (List β)
  | 0, xs => some xs
  | _ + 1, [] => none
  | n + 1, x :: xs => do
    let x ← f x
    let xs ← eachBelow f n xs
    some (x :: xs)

/-- **A reallocation**, and the loop that empties the places behind the old ones. -/
def extend (xs : List (Option α)) (old new : ℕ) : List (Option α) :=
  xs.take old ++ List.replicate (new - old) none

/-- **All rows have that many places**, and there are that many of them. -/
structure Rect (lines : List (List (Option α))) (rowMax colMax : ℕ) : Prop where
  rows : lines.length = rowMax
  cols : ∀ line ∈ lines, line.length = colMax

/-! ## One row -/

variable {xs ys : List (Option α)} {i j n : ℕ} {x : Option α}

theorem place_of_length_le (h : xs.length ≤ i) : place xs i = none := by
  rw [place, List.getElem?_eq_none h, Option.getD_none]

/-- **An assignment is read back**, and nothing else changes. -/
theorem place_set (h : i < xs.length) :
    place (xs.set i x) j = if j = i then x else place xs j := by
  by_cases heq : j = i
  · rw [if_pos heq, heq, place, List.getElem?_set_self h, Option.getD_some]
  · rw [if_neg heq, place, List.getElem?_set_ne (fun h => heq h.symm), place]

theorem length_extend {old new : ℕ} (hlen : xs.length = old) (hle : old ≤ new) :
    (extend xs old new).length = new := by
  simp only [extend, List.length_append, List.length_take, List.length_replicate]
  omega

/-- **Empty places are read as no places were.** -/
theorem place_extend {old new : ℕ} (hlen : xs.length = old) :
    place (extend xs old new) i = place xs i := by
  rw [extend, List.take_of_length_le (by omega)]
  by_cases hi : i < xs.length
  · rw [place, List.getElem?_append_left hi, place]
  · have hge : xs.length ≤ i := Nat.le_of_not_lt hi
    rw [place_of_length_le hge, place, List.getElem?_append_right hge]
    by_cases hnew : i - xs.length < new - old
    · rw [List.getElem?_replicate_of_lt hnew, Option.getD_some]
    · rw [List.getElem?_eq_none (by rw [List.length_replicate]; omega), Option.getD_none]

theorem place_replicate : place (List.replicate n (none : Option α)) i = none := by
  by_cases hi : i < n
  · rw [place, List.getElem?_replicate_of_lt hi, Option.getD_some]
  · exact place_of_length_le (by rw [List.length_replicate]; omega)

/-! ## Loops -/

variable {f : β → β} {bs : List β}

/-- **A loop over places that are there** is a map over them. -/
theorem eachBelow_eq (h : n ≤ bs.length) :
    eachBelow (fun b => some (f b)) n bs = some ((bs.take n).map f ++ bs.drop n) := by
  induction bs generalizing n with
  | nil =>
      obtain rfl : n = 0 := by simpa using h
      rfl
  | cons b bs ih =>
      by_cases hn : n = 0
      · rw [hn]
        rfl
      · obtain ⟨m, rfl⟩ := Nat.exists_eq_succ_of_ne_zero hn
        have hm : m ≤ bs.length := Nat.le_of_succ_le_succ h
        show (eachBelow (fun b => some (f b)) m bs).bind _ = _
        rw [ih hm]
        rfl

/-- A loop over all of them. -/
theorem eachBelow_all (h : n = bs.length) :
    eachBelow (fun b => some (f b)) n bs = some (bs.map f) := by
  rw [eachBelow_eq (Nat.le_of_eq h), h, List.take_length, List.drop_length, List.append_nil]

/-- A loop whose body is defined wherever it runs is one whose body always is. -/
theorem eachBelow_congr {g : β → Option β} (h : ∀ b ∈ bs, g b = some (f b)) :
    eachBelow g n bs = eachBelow (fun b => some (f b)) n bs := by
  induction bs generalizing n with
  | nil => cases n <;> rfl
  | cons b bs ih =>
      cases n with
      | zero => rfl
      | succ n =>
          have hrest := ih (n := n) fun b' hb' => h b' (List.mem_cons_of_mem b hb')
          simp only [eachBelow, h b List.mem_cons_self, hrest]

/-- **What is read behind a loop.** -/
theorem getElem?_below (h : n ≤ bs.length) :
    ((bs.take n).map f ++ bs.drop n)[i]? = if i < n then bs[i]?.map f else bs[i]? := by
  have hlen : ((bs.take n).map f).length = n := by
    rw [List.length_map, List.length_take, Nat.min_eq_left h]
  by_cases hi : i < n
  · rw [if_pos hi, List.getElem?_append_left (by omega), List.getElem?_map,
      List.getElem?_take_of_lt hi]
  · rw [if_neg hi, List.getElem?_append_right (by omega), List.getElem?_drop, hlen,
      Nat.add_sub_of_le (by omega)]

/-- What a loop that empties the first places leaves to read. -/
theorem place_below (h : n ≤ xs.length) :
    place ((xs.take n).map (fun _ => none) ++ xs.drop n) i = if i < n then none else place xs i := by
  rw [place, getElem?_below h]
  by_cases hi : i < n
  · rw [if_pos hi, if_pos hi]
    cases xs[i]? <;> rfl
  · rw [if_neg hi, if_neg hi, place]

/-! ## All rows -/

variable {rows : List (List (Option α))} {rowMax colMax row col : ℕ}

namespace Rect

theorem line (h : Rect rows rowMax colMax) (hrow : row < rowMax) :
    ∃ line, rows[row]? = some line ∧ line.length = colMax := by
  have hlt : row < rows.length := h.rows.symm ▸ hrow
  exact ⟨rows[row], List.getElem?_eq_getElem hlt, h.cols _ (List.getElem_mem hlt)⟩

/-- Nothing is read outside. -/
theorem cell_outside (h : Rect rows rowMax colMax) (hout : ¬ (row < rowMax ∧ col < colMax)) :
    cell rows row col = none := by
  by_cases hrow : row < rowMax
  · obtain ⟨line, hline, hlen⟩ := h.line hrow
    rw [cell, hline, Option.getD_some]
    exact place_of_length_le (by omega)
  · have hge : rows.length ≤ row := h.rows.symm ▸ Nat.le_of_not_lt hrow
    rw [cell, List.getElem?_eq_none hge]
    exact place_of_length_le (Nat.zero_le _)

/-- Replacing a row by one of the same length. -/
theorem set (h : Rect rows rowMax colMax) {line : List (Option α)} (hlen : line.length = colMax) :
    Rect (rows.set row line) rowMax colMax := by
  refine ⟨List.length_set.trans h.rows, ?_⟩
  intro other hother
  rcases List.mem_or_eq_of_mem_set hother with hold | rfl
  · exact h.cols other hold
  · exact hlen

/-- **An assignment inside is defined.** -/
theorem assignCell_eq (h : Rect rows rowMax colMax) (hrow : row < rowMax) (hcol : col < colMax)
    (x : Option α) :
    ∃ rows', assignCell rows row col x = some rows' ∧ Rect rows' rowMax colMax ∧
      ∀ i j, cell rows' i j = if i = row ∧ j = col then x else cell rows i j := by
  obtain ⟨line, hline, hlen⟩ := h.line hrow
  have hset : assign line col x = some (line.set col x) := if_pos (hlen.symm ▸ hcol)
  refine ⟨rows.set row (line.set col x), ?_, h.set (by rw [List.length_set, hlen]), ?_⟩
  · rw [assignCell, hline, Option.bind_eq_bind, Option.bind_some, hset]
    rfl
  · intro i j
    have hlt : row < rows.length := h.rows.symm ▸ hrow
    by_cases hi : i = row
    · rw [hi, cell, List.getElem?_set_self hlt, Option.getD_some, place_set (hlen.symm ▸ hcol),
        cell, hline, Option.getD_some]
      simp only [true_and]
    · rw [if_neg (fun hij => hi hij.1), cell, List.getElem?_set_ne (fun h => hi h.symm), cell]

/-- **One outside is not.** -/
theorem assignCell_outside (h : Rect rows rowMax colMax)
    (hout : ¬ (row < rowMax ∧ col < colMax)) (x : Option α) : assignCell rows row col x = none := by
  by_cases hrow : row < rowMax
  · obtain ⟨line, hline, hlen⟩ := h.line hrow
    have hcol : assign line col x = none := if_neg (by omega)
    rw [assignCell, hline, Option.bind_eq_bind, Option.bind_some, hcol]
    rfl
  · have hge : rows.length ≤ row := h.rows.symm ▸ Nat.le_of_not_lt hrow
    rw [assignCell, List.getElem?_eq_none hge]
    rfl

/-- **Every row extended.** -/
theorem widen (h : Rect rows rowMax colMax) {new : ℕ} (hle : colMax ≤ new) :
    Rect (rows.map (extend · colMax new)) rowMax new := by
  refine ⟨by rw [List.length_map, h.rows], ?_⟩
  intro line hline
  obtain ⟨old, hold, rfl⟩ := List.mem_map.mp hline
  exact length_extend (h.cols old hold) hle

theorem cell_widen (h : Rect rows rowMax colMax) (new : ℕ) :
    cell (rows.map (extend · colMax new)) row col = cell rows row col := by
  rw [cell, cell, List.getElem?_map]
  by_cases hrow : row < rowMax
  · obtain ⟨line, hline, hlen⟩ := h.line hrow
    rw [hline, Option.map_some, Option.getD_some, Option.getD_some, place_extend hlen]
  · have hge : rows.length ≤ row := h.rows.symm ▸ Nat.le_of_not_lt hrow
    rw [List.getElem?_eq_none hge]
    rfl

/-- **Rows added**, all of them empty. -/
theorem lengthen (h : Rect rows rowMax colMax) {new : ℕ} (hle : rowMax ≤ new) :
    Rect (rows.take rowMax ++ List.replicate (new - rowMax) (List.replicate colMax none))
      new colMax := by
  rw [List.take_of_length_le (Nat.le_of_eq h.rows)]
  refine ⟨?_, ?_⟩
  · rw [List.length_append, h.rows, List.length_replicate, Nat.add_sub_of_le hle]
  · intro line hline
    rcases List.mem_append.mp hline with hold | hnew
    · exact h.cols line hold
    · rw [List.eq_of_mem_replicate hnew, List.length_replicate]

theorem cell_lengthen (h : Rect rows rowMax colMax) (new : ℕ) :
    cell (rows.take rowMax ++ List.replicate (new - rowMax) (List.replicate colMax none)) row col =
      cell rows row col := by
  rw [List.take_of_length_le (Nat.le_of_eq h.rows)]
  by_cases hrow : row < rows.length
  · rw [cell, List.getElem?_append_left hrow, cell]
  · have hge : rows.length ≤ row := Nat.le_of_not_lt hrow
    have hold : cell rows row col = none := by
      rw [cell, List.getElem?_eq_none hge, Option.getD_none]
      exact place_of_length_le (Nat.zero_le _)
    rw [hold, cell, List.getElem?_append_right hge]
    by_cases hnew : row - rows.length < new - rowMax
    · rw [List.getElem?_replicate_of_lt hnew, Option.getD_some, place_replicate]
    · rw [List.getElem?_eq_none (by rw [List.length_replicate]; omega), Option.getD_none]
      exact place_of_length_le (Nat.zero_le _)

/-- **The loops that empty the first cells of the first rows.** -/
theorem clear (h : Rect rows rowMax colMax) {rowCount colCount : ℕ} (hrows : rowCount ≤ rowMax)
    (hcols : colCount ≤ colMax) :
    ∃ rows', eachBelow (eachBelow (fun _ => some none) colCount) rowCount rows = some rows' ∧
      Rect rows' rowMax colMax ∧
      ∀ i j, cell rows' i j = if i < rowCount ∧ j < colCount then none else cell rows i j := by
  have hle : rowCount ≤ rows.length := h.rows.symm ▸ hrows
  have hline : ∀ line ∈ rows, eachBelow (fun _ => some none) colCount line =
      some ((line.take colCount).map (fun _ => none) ++ line.drop colCount) := by
    intro line hline
    exact eachBelow_eq (by rw [h.cols line hline]; exact hcols)
  refine ⟨_, (eachBelow_congr hline).trans (eachBelow_eq hle), ⟨?_, ?_⟩, ?_⟩
  · rw [List.length_append, List.length_map, ← List.length_append, List.take_append_drop]
    exact h.rows
  · intro line hmem
    rcases List.mem_append.mp hmem with hcleared | hkept
    · obtain ⟨old, hold, rfl⟩ := List.mem_map.mp hcleared
      rw [List.length_append, List.length_map, ← List.length_append, List.take_append_drop]
      exact h.cols old (List.mem_of_mem_take hold)
    · exact h.cols line (List.mem_of_mem_drop hkept)
  · intro i j
    rw [cell, getElem?_below hle]
    by_cases hi : i < rowCount
    · obtain ⟨line, hat, hlen⟩ := h.line (show i < rowMax by omega)
      rw [if_pos hi, hat, Option.map_some, Option.getD_some, place_below (by omega), cell, hat,
        Option.getD_some]
      simp only [hi, true_and]
    · rw [if_neg hi, if_neg (fun hij => hi hij.1), cell]

end Rect

end Grid
