import Mathlib.Data.List.Infix
import Mathlib.Tactic.Common

/-!
# Items with something between them

A loop that prints its items with one text behind each but the last, and
another behind that, prints `separated`.
-/

namespace Separated

variable {α : Type*} (sep fin : List α)

/-- The items, with `sep` between them and `fin` behind the last. -/
def separated : List (List α) → List α
  | [] => []
  | [w] => w ++ fin
  | w :: w' :: ws => w ++ (sep ++ separated (w' :: ws))

@[simp] theorem separated_nil : separated sep fin [] = [] := rfl

@[simp] theorem separated_singleton (w : List α) : separated sep fin [w] = w ++ fin := rfl

@[simp] theorem separated_cons_cons (w w' : List α) (ws : List (List α)) :
    separated sep fin (w :: w' :: ws) = w ++ (sep ++ separated sep fin (w' :: ws)) := rfl

theorem separated_cons (w : List α) (ws : List (List α)) :
    ∃ tail, separated sep fin (w :: ws) = w ++ tail := by
  cases ws with
  | nil => exact ⟨fin, rfl⟩
  | cons w' ws => exact ⟨_, separated_cons_cons sep fin w w' ws⟩

/-- **A loop that looks whether there is an item behind the one it prints.** -/
theorem flatten_mapIdx (ws : List (List α)) :
    (ws.mapIdx fun i w => w ++ if i + 1 < ws.length then sep else fin).flatten =
      separated sep fin ws := by
  induction ws with
  | nil => rfl
  | cons w ws ih =>
      cases ws with
      | nil => simp
      | cons w' ws =>
          rw [List.mapIdx_cons, List.flatten_cons, separated_cons_cons, ← ih]
          simp

/-- What is mapped over items that know their index. -/
theorem map_mapIdx {β γ : Type*} (f : ℕ → α → β) (g : β → γ) (l : List α) :
    (l.mapIdx f).map g = l.mapIdx fun i a => g (f i a) := by
  rw [List.mapIdx_eq_zipIdx_map, List.mapIdx_eq_zipIdx_map, List.map_map]
  rfl

variable {sep fin}

/-- Each item is a piece of what is printed. -/
theorem infix_separated {w : List α} {ws : List (List α)} (h : w ∈ ws) :
    w <:+: separated sep fin ws := by
  induction ws with
  | nil => cases h
  | cons first ws ih =>
      cases ws with
      | nil =>
          obtain rfl := List.mem_singleton.mp h
          exact List.infix_append [] w fin
      | cons next ws =>
          rw [separated_cons_cons]
          rcases List.mem_cons.mp h with rfl | h
          · exact List.infix_append [] w _
          · exact List.infix_append_of_infix_right (List.infix_append_of_infix_right (ih h))

/-- What holds of nothing and of two pieces together, and of the pieces, holds of it. -/
theorem separated_induction {P : List α → Prop} (hnil : P []) (happend : ∀ a b, P a → P b → P (a ++ b))
    (hsep : P sep) (hfin : P fin) {ws : List (List α)} (hws : ∀ w ∈ ws, P w) :
    P (separated sep fin ws) := by
  induction ws with
  | nil => exact hnil
  | cons w ws ih =>
      rw [List.forall_mem_cons] at hws
      cases ws with
      | nil => exact happend w fin hws.1 hfin
      | cons next ws => exact happend _ _ hws.1 (happend _ _ hsep (ih hws.2))

end Separated
