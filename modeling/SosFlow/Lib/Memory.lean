import Mathlib.Data.List.Basic
import Mathlib.Data.List.GetD
import Mathlib.Order.Nat
import Mathlib.Tactic.Common

/-!
# Bounds-checked memory

A block of memory is the list of its cells. `store` and `load` are the two
accesses a program makes through a pointer into the block, and each is
`none` when it leaves the block: an access that is undefined in the
program has no successor here.

What a proof needs of them is little. Two stores that touch are one store
of the concatenation (`store_append`), so a writer with a running cursor is
a single store. A store leaves the cells below it and above it alone
(`take_of_store`, `drop_of_store`). And `Holds m p xs` says that the cells
from `p` on are `xs`, which is what a `load` reads back.
-/

namespace Mem

variable {α : Type*}

/-- **A store**: `xs` over the cells from `p` on, or nothing at all when the
last of them lies past the end. -/
def store (m : List α) (p : ℕ) (xs : List α) : Option (List α) :=
  if p + xs.length ≤ m.length then some (m.take p ++ (xs ++ m.drop (p + xs.length))) else none

/-- **A load** of `n` cells from `p` on. -/
def load (m : List α) (p n : ℕ) : Option (List α) :=
  if p + n ≤ m.length then some ((m.drop p).take n) else none

/-- **The cells from `p` on are `xs`.** -/
def Holds (m : List α) (p : ℕ) (xs : List α) : Prop :=
  xs <+: m.drop p

variable {m m' : List α} {p n : ℕ} {xs ys : List α}

/-! ## The store -/

/-- A store inside the block succeeds. -/
theorem store_eq (h : p + xs.length ≤ m.length) :
    store m p xs = some (m.take p ++ (xs ++ m.drop (p + xs.length))) :=
  if_pos h

/-- A store past the end fails. -/
theorem store_eq_none (h : m.length < p + xs.length) : store m p xs = none :=
  if_neg (by omega)

/-- A store that succeeds was inside the block. -/
theorem store_bound (h : store m p xs = some m') : p + xs.length ≤ m.length := by
  by_contra hlt
  rw [store_eq_none (by omega)] at h
  cases h

/-- **What a store leaves**: the inversion of a successful store, with its
bound. -/
theorem store_some (h : store m p xs = some m') :
    p + xs.length ≤ m.length ∧ m' = m.take p ++ (xs ++ m.drop (p + xs.length)) := by
  have hb := store_bound h
  rw [store_eq hb] at h
  exact ⟨hb, (Option.some.inj h).symm⟩

/-- A store changes no length. -/
theorem length_store (h : store m p xs = some m') : m'.length = m.length := by
  obtain ⟨hb, rfl⟩ := store_some h
  simp only [List.length_append, List.length_take, List.length_drop]
  omega

/-- **The frame below**: a store leaves every cell before it alone. -/
theorem take_of_store (h : store m p xs = some m') {k : ℕ} (hk : k ≤ p) :
    m'.take k = m.take k := by
  obtain ⟨hb, rfl⟩ := store_some h
  rw [List.take_append_of_le_length (by rw [List.length_take]; omega), List.take_take,
    Nat.min_eq_left hk]

/-- **The frame above**: a store leaves every cell after it alone. -/
theorem drop_of_store (h : store m p xs = some m') {k : ℕ} (hk : p + xs.length ≤ k) :
    m'.drop k = m.drop k := by
  obtain ⟨hb, rfl⟩ := store_some h
  have hlen : (m.take p).length = p := by rw [List.length_take]; omega
  rw [List.drop_append, List.drop_append, List.drop_eq_nil_of_le (by omega),
    List.drop_eq_nil_of_le (by omega), List.nil_append, List.nil_append, List.drop_drop, hlen]
  congr 1
  omega

/-- **Two stores that touch are one**: a writer with a running cursor makes a
single store of everything it wrote. -/
theorem store_append (m : List α) (p : ℕ) (xs ys : List α) :
    store m p (xs ++ ys) = (store m p xs).bind fun m' => store m' (p + xs.length) ys := by
  by_cases hx : p + xs.length ≤ m.length
  · have hsplit := store_eq hx
    have hlen := length_store hsplit
    rw [hsplit, Option.bind_some]
    by_cases hy : p + xs.length + ys.length ≤ m.length
    · rw [store_eq (by rw [List.length_append]; omega), store_eq (by omega)]
      have hbelow := take_of_store hsplit (k := p) le_rfl
      have habove := drop_of_store hsplit (k := p + xs.length + ys.length) (by omega)
      have hmid : (m.take p ++ (xs ++ m.drop (p + xs.length))).take (p + xs.length) =
          m.take p ++ xs := by
        rw [← List.append_assoc]
        exact List.take_left' (by rw [List.length_append, List.length_take]; omega)
      rw [habove, hmid, List.length_append, List.append_assoc, List.append_assoc, Nat.add_assoc]
    · rw [store_eq_none (by rw [List.length_append]; omega), store_eq_none (by omega)]
  · rw [store_eq_none (by rw [List.length_append]; omega), store_eq_none (by omega)]
    rfl

/-- A store into the front of a longer block. -/
theorem store_append_right (h : store m p xs = some m') (zs : List α) :
    store (m ++ zs) p xs = some (m' ++ zs) := by
  obtain ⟨hb, rfl⟩ := store_some h
  rw [store_eq (by rw [List.length_append]; omega),
    List.take_append_of_le_length (by omega), List.drop_append_of_le_length hb]
  simp only [List.append_assoc]

/-! ## What the cells hold -/

/-- Every cell list is held where nothing is asked for. -/
@[simp] theorem holds_nil : Holds m p [] :=
  List.nil_prefix

/-- **Adjacent contents split**: holding a concatenation is holding its parts
one after the other. -/
theorem holds_append : Holds m p (xs ++ ys) ↔ Holds m p xs ∧ Holds m (p + xs.length) ys := by
  unfold Holds
  rw [← List.drop_drop]
  constructor
  · rintro ⟨t, ht⟩
    rw [← ht]
    exact ⟨⟨ys ++ t, by simp⟩, ⟨t, by simp⟩⟩
  · rintro ⟨⟨t, ht⟩, hy⟩
    rw [← ht, List.drop_left] at hy
    obtain ⟨u, rfl⟩ := hy
    exact ⟨u, by rw [← ht, List.append_assoc]⟩

/-- Contents are determined by their place and length. -/
theorem Holds.unique (hx : Holds m p xs) (hy : Holds m p ys) (hlen : xs.length = ys.length) :
    xs = ys :=
  (List.prefix_of_prefix_length_le hx hy hlen.le).eq_of_length hlen

/-- Nonempty contents lie inside the block. -/
theorem Holds.bound (h : Holds m p xs) (hne : xs ≠ []) : p + xs.length ≤ m.length := by
  have hle := h.length_le
  have hpos := List.length_pos_of_ne_nil hne
  rw [List.length_drop] at hle
  omega

/-- A store leaves what it stored. -/
theorem holds_of_store (h : store m p xs = some m') : Holds m' p xs := by
  obtain ⟨hb, rfl⟩ := store_some h
  refine ⟨m.drop (p + xs.length), ?_⟩
  exact (List.drop_left' (by rw [List.length_take]; omega)).symm

/-- Contents below a store survive it. -/
theorem Holds.store_above (hx : Holds m p xs) {q : ℕ} (h : store m q ys = some m')
    (hq : p + xs.length ≤ q) : Holds m' p xs := by
  have htake := take_of_store h hq
  have hcut : ∀ l : List α, xs <+: l.drop p ↔ xs <+: (l.take (p + xs.length)).drop p := by
    intro l
    rw [List.drop_take, Nat.add_sub_cancel_left]
    exact ⟨fun hl => List.prefix_take_iff.mpr ⟨hl, le_rfl⟩, fun hl => (List.prefix_take_iff.mp hl).1⟩
  unfold Holds at hx ⊢
  rw [hcut, htake, ← hcut]
  exact hx

/-- Contents above a store survive it. -/
theorem Holds.store_below (hx : Holds m p xs) {q : ℕ} (h : store m q ys = some m')
    (hq : q + ys.length ≤ p) : Holds m' p xs := by
  unfold Holds at hx ⊢
  rwa [drop_of_store h hq]

/-- Cells appended to the block change no contents. -/
theorem Holds.append_right (hx : Holds m p xs) (hp : p ≤ m.length) (ys : List α) :
    Holds (m ++ ys) p xs := by
  unfold Holds at hx ⊢
  rw [List.drop_append_of_le_length hp]
  exact hx.trans (List.prefix_append _ _)

/-! ## The load -/

/-- **A load reads what the cells hold.** -/
theorem load_of_holds (h : Holds m p xs) (hb : p + xs.length ≤ m.length) :
    load m p xs.length = some xs := by
  obtain ⟨t, ht⟩ := h
  rw [load, if_pos hb, ← ht, List.take_left]

/-- A load that succeeds was inside the block, and the cells hold what it
read. -/
theorem load_some (h : load m p n = some xs) :
    p + n ≤ m.length ∧ xs.length = n ∧ Holds m p xs := by
  unfold load at h
  split at h
  case isTrue hb =>
    obtain rfl := Option.some.inj h
    refine ⟨hb, ?_, List.take_prefix _ _⟩
    rw [List.length_take, List.length_drop]
    omega
  case isFalse => cases h

/-! ## Memory that grows

A block that is made longer gets cells of one kind, `z`. Read with `z` past
its end, growing changes nothing, and "nothing below `k` has changed" is a
relation that composes. -/

/-- **The cells below `k` are kept**, those past the end counting as `z`. -/
def Keeps (z : α) (k : ℕ) (m m' : List α) : Prop :=
  ∀ i < k, m'.getD i z = m.getD i z

variable {z : α} {k : ℕ} {m'' : List α}

@[refl] theorem Keeps.refl (z : α) (k : ℕ) (m : List α) : Keeps z k m m :=
  fun _ _ => rfl

theorem Keeps.trans (h : Keeps z k m m') (h' : Keeps z k m' m'') : Keeps z k m m'' :=
  fun i hi => (h' i hi).trans (h i hi)

theorem Keeps.mono (h : Keeps z k m m') {j : ℕ} (hj : j ≤ k) : Keeps z j m m' :=
  fun i hi => h i (by omega)

/-- Growing keeps everything. -/
theorem keeps_append_replicate (z : α) (k : ℕ) (m : List α) (n : ℕ) :
    Keeps z k m (m ++ List.replicate n z) := by
  intro i _
  by_cases hi : i < m.length
  · rw [List.getD_append _ _ _ _ hi]
  · rw [List.getD_append_right _ _ _ _ (by omega), List.getD_eq_default m z (by omega)]
    by_cases hn : i - m.length < n
    · rw [List.getD_eq_getElem _ _ (by rwa [List.length_replicate]), List.getElem_replicate]
    · rw [List.getD_eq_default _ _ (by rw [List.length_replicate]; omega)]

/-- A store keeps the cells before it. -/
theorem keeps_of_store (z : α) (h : store m p xs = some m') (hk : k ≤ p) : Keeps z k m m' := by
  intro i hi
  have htake := take_of_store h hk
  have hcell := congrArg (fun l => l[i]?) htake
  simp only [List.getElem?_take_of_lt hi] at hcell
  rw [List.getD_eq_getElem?_getD, List.getD_eq_getElem?_getD, hcell]

/-- **Contents that were kept were there before**, in the block as it is once
it is long enough. -/
theorem Holds.of_keeps (h : Holds m' p xs) (hkeep : Keeps z k m m') (hk : p + xs.length ≤ k) :
    Holds (m ++ List.replicate k z) p xs := by
  have hcell : ∀ j, (hj : j < xs.length) → (m ++ List.replicate k z)[p + j]? = some xs[j] := by
    intro j hj
    obtain ⟨t, ht⟩ := h
    have hold : m'.getD (p + j) z = xs[j] := by
      rw [List.getD_eq_getElem?_getD, ← List.getElem?_drop, ← ht, List.getElem?_append_left hj,
        List.getElem?_eq_getElem hj, Option.getD_some]
    rw [hkeep _ (by omega), ← keeps_append_replicate z k m k (p + j) (by omega)] at hold
    have hlt : p + j < (m ++ List.replicate k z).length := by
      rw [List.length_append, List.length_replicate]
      omega
    rw [List.getD_eq_getElem _ _ hlt] at hold
    rw [List.getElem?_eq_getElem hlt, hold]
  rw [Holds, List.prefix_iff_getElem?]
  intro j hj
  rw [List.getElem?_drop, hcell j hj]

end Mem
