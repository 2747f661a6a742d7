import Mathlib.Data.List.Nodup
import Mathlib.Tactic.Common

/-!
# Singly linked lists in memory

A memory of cells, each a value and the pointer to the next cell. `Segment`
says which cells a walk from one pointer to another passes; a list is a
segment that ends with the null pointer. Segments compose
(`segment_append`), writes elsewhere keep them (`Segment.congr`), and the
last pointer of one can be set to any other (`Segment.setNext_last`).
-/

namespace Linked

variable {A α : Type*}

/-- **A cell**: a value, and the pointer to the next one. -/
structure Cell (A α : Type*) where
  val : α
  next : Option A

/-- The cells that are allocated. -/
abbrev Memory (A α : Type*) := A → Option (Cell A α)

section

variable [DecidableEq A]

/-- The pointer of a cell is set. -/
def setNext (m : Memory A α) (a : A) (q : Option A) : Memory A α :=
  fun b => if b = a then (m a).map fun cell => { cell with next := q } else m b

/-- A cell is freed. -/
def release (m : Memory A α) (a : A) : Memory A α := fun b => if b = a then none else m b

theorem setNext_of_ne (m : Memory A α) {a b : A} (q : Option A) (h : b ≠ a) :
    setNext m a q b = m b :=
  if_neg h

theorem release_of_ne (m : Memory A α) {a b : A} (h : b ≠ a) : release m a b = m b :=
  if_neg h

theorem setNext_self {m : Memory A α} {a : A} {cell : Cell A α} (q : Option A)
    (h : m a = some cell) : setNext m a q a = some { cell with next := q } := by
  rw [setNext, if_pos rfl, h, Option.map_some]

end

/-- **The cells from one pointer up to another**, with their addresses. -/
def Segment (m : Memory A α) : Option A → List (A × α) → Option A → Prop
  | p, [], q => p = q
  | p, cell :: rest, q =>
    p = some cell.1 ∧ ∃ next, m cell.1 = some ⟨cell.2, next⟩ ∧ Segment m next rest q

variable {m m' : Memory A α} {p q : Option A} {xs ys : List (A × α)}

@[simp] theorem segment_nil : Segment m p [] q ↔ p = q := Iff.rfl

@[simp] theorem segment_cons {cell : A × α} : Segment m p (cell :: xs) q ↔
    p = some cell.1 ∧ ∃ next, m cell.1 = some ⟨cell.2, next⟩ ∧ Segment m next xs q := Iff.rfl

/-- **Segments compose.** -/
theorem segment_append :
    Segment m p (xs ++ ys) q ↔ ∃ r, Segment m p xs r ∧ Segment m r ys q := by
  induction xs generalizing p with
  | nil => simp
  | cons cell xs ih =>
      simp only [List.cons_append, segment_cons, ih]
      constructor
      · rintro ⟨hp, next, hcell, r, hxs, hys⟩
        exact ⟨r, ⟨hp, next, hcell, hxs⟩, hys⟩
      · rintro ⟨r, ⟨hp, next, hcell, hxs⟩, hys⟩
        exact ⟨hp, next, hcell, r, hxs, hys⟩

/-- **A memory with the same cells** has the same segments. -/
theorem Segment.congr (h : Segment m p xs q) (hsame : ∀ cell ∈ xs, m' cell.1 = m cell.1) :
    Segment m' p xs q := by
  induction xs generalizing p with
  | nil => exact h
  | cons cell xs ih =>
      rw [List.forall_mem_cons] at hsame
      obtain ⟨hp, next, hcell, hrest⟩ := h
      exact ⟨hp, next, hsame.1.trans hcell, ih hrest hsame.2⟩

/-- The first cell of a segment is allocated. -/
theorem Segment.head {cell : A × α} (h : Segment m p (cell :: xs) q) :
    p = some cell.1 ∧ ∃ next, m cell.1 = some ⟨cell.2, next⟩ :=
  ⟨h.1, h.2.imp fun _ hnext => hnext.1⟩

/-- **Every cell of a segment is allocated.** -/
theorem Segment.cell {cell : A × α} (h : Segment m p xs q) (hcell : cell ∈ xs) :
    ∃ next, m cell.1 = some ⟨cell.2, next⟩ := by
  obtain ⟨before, after, rfl⟩ := List.append_of_mem hcell
  obtain ⟨r, -, hafter⟩ := segment_append.mp h
  exact hafter.head.2

/-- A walk that starts at the null pointer passes nothing. -/
theorem Segment.eq_nil (h : Segment m none xs q) : xs = [] := by
  cases xs with
  | nil => rfl
  | cons cell xs => cases h.1

/-- A segment of some cells starts at one of them. -/
theorem Segment.start_mem (h : Segment m p xs q) (hne : xs ≠ []) : ∃ cell ∈ xs, p = some cell.1 := by
  cases xs with
  | nil => exact absurd rfl hne
  | cons cell xs => exact ⟨cell, List.mem_cons_self, h.1⟩

/-- **A list is what its first pointer leads to.** -/
theorem Segment.unique (h : Segment m p xs none) (h' : Segment m p ys none) : xs = ys := by
  induction xs generalizing p ys with
  | nil =>
      cases h
      exact h'.eq_nil.symm
  | cons cell xs ih =>
      obtain ⟨rfl, next, hcell, hrest⟩ := h
      cases ys with
      | nil => cases h'
      | cons cell' ys =>
          obtain ⟨hp, next', hcell', hrest'⟩ := h'
          have haddr : cell.1 = cell'.1 := Option.some.inj hp
          rw [← haddr, hcell] at hcell'
          obtain ⟨hval, rfl⟩ := Cell.mk.inj (Option.some.inj hcell')
          have hsame : cell = cell' := Prod.ext haddr hval
          rw [hsame, ih hrest hrest']

/-- **No cell of a list comes twice**: the walk would not end. -/
theorem Segment.nodup (h : Segment m p xs none) : (xs.map Prod.fst).Nodup := by
  induction xs generalizing p with
  | nil => exact List.nodup_nil
  | cons cell xs ih =>
      have hall := h
      obtain ⟨rfl, next, -, hrest⟩ := h
      refine List.nodup_cons.mpr ⟨fun hmem => ?_, ih hrest⟩
      obtain ⟨again, hagain, haddr⟩ := List.mem_map.mp hmem
      obtain ⟨pre, post, rfl⟩ := List.append_of_mem hagain
      obtain ⟨r, -, hpost⟩ := segment_append.mp hrest
      obtain ⟨rfl, -⟩ := hpost.head
      rw [haddr] at hpost
      have hsame := congrArg List.length (hall.unique hpost)
      simp only [List.length_cons, List.length_append] at hsame
      omega

section

variable [DecidableEq A]

/-- Freeing a cell that is not among them keeps the others. -/
theorem Segment.release {a : A} (h : Segment m p xs q) (ha : ∀ cell ∈ xs, cell.1 ≠ a) :
    Segment (release m a) p xs q :=
  h.congr fun cell hcell => release_of_ne m (ha cell hcell)

/-- So does setting the pointer of one. -/
theorem Segment.setNext {a : A} {r : Option A} (h : Segment m p xs q)
    (ha : ∀ cell ∈ xs, cell.1 ≠ a) : Segment (setNext m a r) p xs q :=
  h.congr fun cell hcell => setNext_of_ne m r (ha cell hcell)

/-- **The last pointer of a segment** is set, and it ends there. -/
theorem Segment.setNext_last {cell : A × α} {r : Option A} (h : Segment m p (xs ++ [cell]) q)
    (hxs : ∀ other ∈ xs, other.1 ≠ cell.1) :
    Segment (Linked.setNext m cell.1 r) p (xs ++ [cell]) r := by
  obtain ⟨mid, hfirst, hmid, next, hcell, -⟩ := segment_append.mp h
  refine segment_append.mpr ⟨mid, hfirst.setNext hxs, hmid, r, ?_, rfl⟩
  exact setNext_self r hcell

/-- **Cells are linked**: the pointer of each is set to the next, and that of the last
to null. -/
def link (m : Memory A α) : List A → Memory A α
  | [] => m
  | [a] => setNext m a none
  | a :: b :: rest => link (setNext m a (some b)) (b :: rest)

theorem link_of_not_mem {addrs : List A} {b : A} (m : Memory A α) (h : b ∉ addrs) :
    link m addrs b = m b := by
  induction addrs generalizing m with
  | nil => rfl
  | cons a rest ih =>
      rw [List.mem_cons, not_or] at h
      cases rest with
      | nil => exact setNext_of_ne m none h.1
      | cons a' rest => exact (ih _ h.2).trans (setNext_of_ne m (some a') h.1)

/-- **Linked cells are a list**, whatever their pointers were. -/
theorem segment_link (hnodup : (xs.map Prod.fst).Nodup)
    (hcells : ∀ cell ∈ xs, ∃ next, m cell.1 = some ⟨cell.2, next⟩) :
    Segment (link m (xs.map Prod.fst)) (xs.map Prod.fst).head? xs none := by
  induction xs generalizing m with
  | nil => exact segment_nil.mpr rfl
  | cons cell rest ih =>
      rw [List.map_cons, List.nodup_cons] at hnodup
      rw [List.forall_mem_cons] at hcells
      obtain ⟨⟨next, hcell⟩, hrest⟩ := hcells
      cases rest with
      | nil => exact ⟨rfl, none, setNext_self none hcell, rfl⟩
      | cons other rest =>
          -- the pointer of one cell is set, and the others are linked behind it
          have hkept : ∀ c ∈ other :: rest, ∃ next,
              setNext m cell.1 (some other.1) c.1 = some ⟨c.2, next⟩ := by
            intro c hc
            have hne : c.1 ≠ cell.1 := fun hsame => hnodup.1 (hsame ▸ List.mem_map_of_mem hc)
            rw [setNext_of_ne m _ hne]
            exact hrest c hc
          refine ⟨rfl, some other.1, ?_, ih hnodup.2 hkept⟩
          change link (setNext m cell.1 (some other.1)) ((other :: rest).map Prod.fst) cell.1 = _
          rw [link_of_not_mem _ hnodup.1]
          exact setNext_self (some other.1) hcell

end

end Linked
