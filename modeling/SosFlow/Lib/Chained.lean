import SosFlow.Lib.Linked
import Mathlib.Logic.Function.Basic

/-!
# Chains of cells in one memory

A chain has a pointer to its first cell and one to its last: a cell goes
behind the last one without a walk, and a walk that keeps the pointer in
front can take a cell out again.

`Chained` is a family of chains over one memory. All cells that are
allocated are listed in the order in which they came, and each chain leads
to those that belong to it, in that order. So the chains share nothing, and
nothing is lost. The operations on one chain keep it (`Chained.append`,
`Chained.remove`, `Chained.drain`).
-/

namespace Linked

variable {A α ι : Type*}

/-- **A chain**: the pointers to its first cell and to its last. -/
structure Chain (A : Type*) where
  head : Option A
  tail : Option A
deriving DecidableEq

namespace Chain

/-- The chain of no cells. -/
def empty : Chain A := ⟨none, none⟩

variable [DecidableEq A]

/-- **A walk to the first cell with a property**: the pointer in front of it, and to it.
No cell may have been freed, and there is a bound on the turns. -/
def walk (p : α → Bool) (m : Memory A α) : ℕ → Option A → Option A → Option (Option A × Option A)
  | turns, prev, obj => match obj with
    | none => some (prev, none)
    | some a => match turns with
      | 0 => none
      | turns + 1 => (m a).bind fun cell =>
          if p cell.val then some (prev, some a) else walk p m turns (some a) cell.next

/-- The pointer of a cell is set, if it has not been freed. -/
def relink (m : Memory A α) (a : A) (q : Option A) : Option (Memory A α) :=
  (m a).map fun _ => setNext m a q

/-- **An allocated cell goes behind the last.** -/
def append (m : Memory A α) (c : Chain A) (a : A) : Option (Memory A α × Chain A) := do
  let m ← match c.tail with
    | none => some m
    | some last => relink m last (some a)
  some (m, ⟨if c.head = none then some a else c.head, some a⟩)

/-- **A cell is taken out and freed**, with the pointer in front of it. -/
def remove (m : Memory A α) (c : Chain A) (prev : Option A) (a : A) :
    Option (Memory A α × Chain A) := do
  let cell ← m a
  let (m, head) ← match prev with
    | none => some (m, cell.next)
    | some b => (relink m b cell.next).map fun m => (m, c.head)
  some (release m a, ⟨head, if c.tail = some a then prev else c.tail⟩)

/-- **Every cell is freed**, from a pointer on; how many they were. -/
def drain (m : Memory A α) : ℕ → Option A → Option (Memory A α × ℕ)
  | turns, obj => match obj with
    | none => some (m, 0)
    | some a => match turns with
      | 0 => none
      | turns + 1 => (m a).bind fun cell =>
          (drain (release m a) turns cell.next).map fun r => (r.1, r.2 + 1)

/-- **The chain leads to these cells.** -/
structure Leads (m : Memory A α) (c : Chain A) (cells : List (A × α)) : Prop where
  segment : Segment m c.head cells none
  tail : c.tail = (cells.map Prod.fst).getLast?

variable {m m' : Memory A α} {c : Chain A} {xs ys : List (A × α)} {cell : A × α} {p : α → Bool}
  {q prev : Option A} {turns : ℕ}

omit [DecidableEq A] in
theorem leads_empty : Leads m (empty : Chain A) [] := ⟨rfl, rfl⟩

omit [DecidableEq A] in
/-- A memory with the same cells has the same chain. -/
theorem Leads.congr (h : c.Leads m xs) (hsame : ∀ cell ∈ xs, m' cell.1 = m cell.1) :
    c.Leads m' xs :=
  ⟨h.segment.congr hsame, h.tail⟩

omit [DecidableEq A] in
/-- **A walk past cells without the property** ends with nothing. -/
theorem walk_none (h : Segment m q xs none) (hp : ∀ cell ∈ xs, p cell.2 = false)
    (hturns : xs.length ≤ turns) (prev : Option A) :
    ∃ last, walk p m turns prev q = some (last, none) := by
  induction xs generalizing q prev turns with
  | nil =>
      obtain rfl : q = none := h
      exact ⟨prev, by rw [walk]⟩
  | cons cell xs ih =>
      obtain ⟨rfl, next, hcell, hrest⟩ := h
      rw [List.forall_mem_cons] at hp
      obtain ⟨turns, rfl⟩ := Nat.exists_eq_add_of_le' (Nat.one_le_of_lt hturns)
      obtain ⟨last, hlast⟩ := ih hrest hp.2 (Nat.le_of_succ_le_succ hturns) (some cell.1)
      refine ⟨last, ?_⟩
      rw [walk]
      simp only [hcell, Option.bind_some, hp.1, Bool.false_eq_true, if_false]
      exact hlast

omit [DecidableEq A] in
/-- **A walk stops at the first cell with the property.** -/
theorem walk_some (h : Segment m q (xs ++ cell :: ys) none) (hp : ∀ cell ∈ xs, p cell.2 = false)
    (hcell : p cell.2 = true) (hturns : xs.length < turns) :
    walk p m turns prev q = some (((xs.map Prod.fst).getLast?).or prev, some cell.1) := by
  induction xs generalizing q prev turns with
  | nil =>
      obtain ⟨rfl, next, hm, -⟩ := h
      obtain ⟨turns, rfl⟩ := Nat.exists_eq_add_of_le' (Nat.one_le_of_lt hturns)
      rw [walk]
      simp only [hm, Option.bind_some, hcell, if_true]
      rfl
  | cons first xs ih =>
      obtain ⟨rfl, next, hm, hrest⟩ := h
      rw [List.forall_mem_cons] at hp
      obtain ⟨turns, rfl⟩ := Nat.exists_eq_add_of_le' (Nat.one_le_of_lt hturns)
      rw [walk]
      simp only [hm, Option.bind_some, hp.1, Bool.false_eq_true, if_false]
      rw [ih hrest hp.2 (Nat.lt_of_succ_lt_succ hturns), List.map_cons, List.getLast?_cons]
      cases (xs.map Prod.fst).getLast? <;> rfl

/-- **What a cell goes behind**: the cells that were there. Nothing else is touched. -/
theorem Leads.append (h : c.Leads m xs) {a : A} {v : α} (ha : m a = some ⟨v, none⟩)
    (hnew : ∀ cell ∈ xs, cell.1 ≠ a) :
    ∃ m' c', c.append m a = some (m', c') ∧ c'.Leads m' (xs ++ [(a, v)]) ∧
      (∀ b, b ∉ xs.map Prod.fst → m' b = m b) ∧ ∀ b, m' b = none ↔ m b = none := by
  rcases List.eq_nil_or_concat' xs with rfl | ⟨xs, last, rfl⟩
  · have hhead : c.head = none := h.segment
    have htail : c.tail = none := h.tail
    refine ⟨m, ⟨some a, some a⟩, ?_, ⟨⟨rfl, none, ha, rfl⟩, rfl⟩, fun b _ => rfl, fun b => .rfl⟩
    simp only [Chain.append, htail, hhead, Option.bind_eq_bind, Option.bind_some, if_true]
  · have htail : c.tail = some last.1 := by rw [h.tail]; simp
    obtain ⟨next, hlast⟩ := h.segment.cell (List.mem_append_right xs (List.mem_singleton_self last))
    have hhead : c.head ≠ none := by
      intro hnull
      have hnil := (hnull ▸ h.segment).eq_nil
      exact absurd hnil (by simp)
    have hnodup := h.segment.nodup
    rw [List.map_append, List.nodup_append] at hnodup
    have hbefore : ∀ other ∈ xs, other.1 ≠ last.1 := fun other hother =>
      hnodup.2.2 _ (List.mem_map_of_mem hother) _ (by simp)
    have hne : a ≠ last.1 := fun heq =>
      hnew last (List.mem_append_right xs (List.mem_singleton_self last)) heq.symm
    refine ⟨setNext m last.1 (some a), ⟨c.head, some a⟩, ?_, ⟨?_, by simp⟩, ?_, ?_⟩
    · simp only [Chain.append, htail, relink, hlast, Option.map_some, Option.bind_eq_bind,
        Option.bind_some, if_neg hhead]
    · exact segment_append.mpr ⟨some a, h.segment.setNext_last hbefore, rfl, none,
        (setNext_of_ne m _ hne).trans ha, rfl⟩
    · intro b hb
      exact setNext_of_ne m _ fun heq => hb (heq ▸ List.mem_map_of_mem (by simp))
    · intro b
      by_cases hb : b = last.1
      · subst hb
        rw [setNext_self _ hlast, hlast]
        exact iff_of_false (by simp) (by simp)
      · rw [setNext_of_ne m _ hb]

/-- **What is taken out** is freed, and the others stay. -/
theorem Leads.remove (h : c.Leads m (xs ++ cell :: ys)) :
    ∃ m' c', c.remove m ((xs.map Prod.fst).getLast?) cell.1 = some (m', c') ∧
      c'.Leads m' (xs ++ ys) ∧ (∀ b, b ∉ (xs ++ cell :: ys).map Prod.fst → m' b = m b) ∧
      ∀ b, m' b = none ↔ m b = none ∨ b = cell.1 := by
  have hnodup := h.segment.nodup
  obtain ⟨mid, hxs, hmid, next, hm, hys⟩ := segment_append.mp h.segment
  rw [List.map_append, List.map_cons, List.nodup_append, List.nodup_cons] at hnodup
  have hnotin : ∀ other ∈ ys, other.1 ≠ cell.1 := fun other hother heq =>
    hnodup.2.1.1 (heq ▸ List.mem_map_of_mem hother)
  have hbefore : ∀ other ∈ xs, other.1 ≠ cell.1 := fun other hother =>
    hnodup.2.2 _ (List.mem_map_of_mem hother) _ List.mem_cons_self
  -- the last pointer is the one in front exactly if nothing comes behind
  have htail : (if c.tail = some cell.1 then (xs.map Prod.fst).getLast? else c.tail) =
      ((xs ++ ys).map Prod.fst).getLast? := by
    rw [h.tail]
    rcases List.eq_nil_or_concat' ys with rfl | ⟨ys, last, rfl⟩
    · simp
    · have hne : last.1 ≠ cell.1 := hnotin last (by simp)
      have hlast : ((xs ++ cell :: (ys ++ [last])).map Prod.fst).getLast? = some last.1 := by
        rw [← List.cons_append, ← List.append_assoc, List.map_append]
        exact List.getLast?_concat
      rw [hlast, if_neg (fun heq => hne (Option.some.inj heq)), ← List.append_assoc,
        List.map_append]
      exact List.getLast?_concat.symm
  have hreleased (m' : Memory A α) (hiff : ∀ b, m' b = none ↔ m b = none) (b : A) :
      release m' cell.1 b = none ↔ m b = none ∨ b = cell.1 := by
    by_cases hb : b = cell.1
    · rw [release, if_pos hb]
      exact iff_of_true rfl (.inr hb)
    · rw [release_of_ne m' hb, hiff]
      exact ⟨.inl, fun hor => hor.resolve_right hb⟩
  rcases List.eq_nil_or_concat' xs with rfl | ⟨xs, last, rfl⟩
  · refine ⟨release m cell.1, ⟨next, (ys.map Prod.fst).getLast?⟩, ?_,
      ⟨hys.release hnotin, rfl⟩, ?_, hreleased m fun b => .rfl⟩
    · simp only [Chain.remove, hm, Option.bind_eq_bind, Option.bind_some]
      rw [htail]
      rfl
    · intro b hb
      exact release_of_ne m fun heq => hb (heq ▸ List.mem_map_of_mem (by simp))
  · have hprev : ((xs ++ [last]).map Prod.fst).getLast? = some last.1 := by simp
    obtain ⟨before, hlast⟩ := hxs.cell (List.mem_append_right xs (List.mem_singleton_self last))
    have hfirst : ∀ other ∈ xs, other.1 ≠ last.1 := by
      have hnodup' := hnodup.1
      rw [List.map_append, List.nodup_append] at hnodup'
      exact fun other hother => hnodup'.2.2 _ (List.mem_map_of_mem hother) _ (by simp)
    have hrest : ∀ other ∈ ys, other.1 ≠ last.1 := fun other hother heq =>
      hnodup.2.2 last.1 (List.mem_map_of_mem (by simp)) other.1
        (List.mem_cons_of_mem _ (List.mem_map_of_mem hother)) heq.symm
    refine ⟨release (setNext m last.1 next) cell.1,
      ⟨c.head, ((xs ++ [last] ++ ys).map Prod.fst).getLast?⟩, ?_, ⟨?_, rfl⟩, ?_, hreleased _ ?_⟩
    · rw [← htail, hprev]
      simp only [Chain.remove, hm, relink, hlast, Option.map_some, Option.bind_eq_bind,
        Option.bind_some]
    · refine Segment.release (segment_append.mpr ⟨next, hxs.setNext_last hfirst, ?_⟩) ?_
      · exact hys.setNext hrest
      · intro other hother
        rcases List.mem_append.mp hother with hother | hother
        · exact hbefore other hother
        · exact hnotin other hother
    · intro b hb
      have hb' : b ≠ cell.1 := fun heq => hb (heq ▸ List.mem_map_of_mem (by simp))
      rw [release_of_ne _ hb']
      exact setNext_of_ne m _ fun heq => hb (heq ▸ List.mem_map_of_mem (by simp))
    · intro b
      by_cases hb : b = last.1
      · subst hb
        rw [setNext_self _ hlast, hlast]
        exact iff_of_false (by simp) (by simp)
      · rw [setNext_of_ne m _ hb]

/-- **Every cell of a list is freed**, and no other. -/
theorem drain_eq (h : Segment m q xs none) (hturns : xs.length ≤ turns) :
    ∃ m', drain m turns q = some (m', xs.length) ∧
      ∀ b, m' b = if b ∈ xs.map Prod.fst then none else m b := by
  induction xs generalizing m q turns with
  | nil =>
      obtain rfl : q = none := h
      exact ⟨m, by rw [drain]; rfl, fun b => rfl⟩
  | cons cell xs ih =>
      have hnodup := h.nodup
      obtain ⟨rfl, next, hm, hrest⟩ := h
      rw [List.map_cons, List.nodup_cons] at hnodup
      obtain ⟨turns, rfl⟩ := Nat.exists_eq_add_of_le' (Nat.one_le_of_lt hturns)
      obtain ⟨m', hdrain, hm'⟩ := ih
        (hrest.release (a := cell.1) fun other hother heq =>
          hnodup.1 (heq ▸ List.mem_map_of_mem hother))
        (Nat.le_of_succ_le_succ hturns)
      refine ⟨m', ?_, fun b => ?_⟩
      · rw [drain]
        simp only [hm, Option.bind_some, hdrain, Option.map_some, List.length_cons]
      · rw [hm', List.map_cons]
        by_cases hb : b = cell.1
        · subst hb
          rw [if_neg hnodup.1, if_pos List.mem_cons_self, release, if_pos rfl]
        · rw [release_of_ne m hb]
          exact if_congr ⟨List.mem_cons_of_mem _, fun hmem =>
            (List.mem_cons.mp hmem).resolve_left hb⟩ rfl rfl

end Chain

/-! ## A family of chains -/

variable [DecidableEq A] [DecidableEq ι]

/-- **The cells that are allocated, in the order in which they came**, and the chains,
each of those cells that belong to it. -/
structure Chained (m : Memory A α) (chains : ι → Chain A) (slotOf : α → ι)
    (cells : List (A × α)) : Prop where
  leads : ∀ i, (chains i).Leads m (cells.filter fun c => slotOf c.2 = i)
  nodup : (cells.map Prod.fst).Nodup
  covers : ∀ a, m a ≠ none → a ∈ cells.map Prod.fst

variable {m : Memory A α} {chains : ι → Chain A} {slotOf : α → ι} {cells xs ys : List (A × α)}
  {cell : A × α} {p : α → Bool} {turns : ℕ}

omit [DecidableEq A] in
/-- Nothing is allocated. -/
theorem chained_empty (slotOf : α → ι) :
    Chained (fun _ => none : Memory A α) (fun _ => .empty) slotOf [] :=
  ⟨fun _ => Chain.leads_empty, List.nodup_nil, fun _ h => absurd rfl h⟩

namespace Chained

omit [DecidableEq A] in
/-- **Each of the cells is allocated**, with its value. -/
theorem allocated (h : Chained m chains slotOf cells) {c : A × α} (hc : c ∈ cells) :
    ∃ next, m c.1 = some ⟨c.2, next⟩ :=
  (h.leads (slotOf c.2)).segment.cell (List.mem_filter.mpr ⟨hc, decide_eq_true rfl⟩)

omit [DecidableEq A] [DecidableEq ι] in
/-- Cells at one address are one cell. -/
theorem eq_of_fst (hnodup : (cells.map Prod.fst).Nodup) {c d : A × α} (hc : c ∈ cells)
    (hd : d ∈ cells) (heq : c.1 = d.1) : c = d :=
  List.inj_on_of_nodup_map hnodup hc hd heq

omit [DecidableEq A] in
/-- Where nothing is allocated, there is no cell. -/
theorem eq_nil_iff (h : Chained m chains slotOf cells) : cells = [] ↔ ∀ a, m a = none := by
  constructor
  · rintro rfl a
    by_contra hne
    exact absurd (h.covers a hne) List.not_mem_nil
  · intro hnone
    refine List.eq_nil_iff_forall_not_mem.mpr fun c hc => ?_
    obtain ⟨next, hm⟩ := h.allocated hc
    rw [hnone] at hm
    cases hm

omit [DecidableEq A] in
/-- **Nothing is found** where no cell has the property. -/
theorem walk_none (h : Chained m chains slotOf cells) (i : ι)
    (hp : ∀ c ∈ cells, p c.2 = false) (hturns : cells.length ≤ turns) (prev : Option A) :
    ∃ last, Chain.walk p m turns prev (chains i).head = some (last, none) :=
  Chain.walk_none (h.leads i).segment (fun c hc => hp c (List.mem_filter.mp hc).1)
    (Nat.le_trans (List.length_filter_le _ _) hturns) prev

omit [DecidableEq A] in
/-- **The first cell with the property is found**, in the chain it belongs to. -/
theorem walk_some (h : Chained m chains slotOf (xs ++ cell :: ys))
    (hp : ∀ c ∈ xs, p c.2 = false) (hcell : p cell.2 = true)
    (hturns : (xs ++ cell :: ys).length ≤ turns) :
    Chain.walk p m turns none (chains (slotOf cell.2)).head =
      some (((xs.filter fun c => slotOf c.2 = slotOf cell.2).map Prod.fst).getLast?,
        some cell.1) := by
  have hleads := (h.leads (slotOf cell.2)).segment
  rw [List.filter_append, List.filter_cons_of_pos (by simp)] at hleads
  rw [Chain.walk_some hleads (fun c hc => hp c (List.mem_filter.mp hc).1) hcell, Option.or_none]
  have hle := List.length_filter_le (fun c : A × α => decide (slotOf c.2 = slotOf cell.2)) xs
  rw [List.length_append, List.length_cons] at hturns
  omega

/-- **A cell more**, at the end of the chain it belongs to. -/
theorem append (h : Chained m chains slotOf cells) {a : A} (v : α) (ha : m a = none) :
    ∃ m' c', (chains (slotOf v)).append (Function.update m a (some ⟨v, none⟩)) a = some (m', c') ∧
      Chained m' (Function.update chains (slotOf v) c') slotOf (cells ++ [(a, v)]) := by
  have hnew : ∀ c ∈ cells, c.1 ≠ a := by
    rintro c hc rfl
    obtain ⟨next, hm⟩ := h.allocated hc
    rw [ha] at hm
    cases hm
  have hleads (i : ι) : (chains i).Leads (Function.update m a (some ⟨v, none⟩))
      (cells.filter fun c => slotOf c.2 = i) :=
    (h.leads i).congr fun c hc => Function.update_of_ne (hnew c (List.mem_filter.mp hc).1) _ _
  obtain ⟨m', c', happend, hlead, hframe, hnone⟩ := (hleads (slotOf v)).append (a := a) (v := v)
    (Function.update_self a _ m) fun c hc => hnew c (List.mem_filter.mp hc).1
  refine ⟨m', c', happend, fun i => ?_, ?_, fun b hb => ?_⟩
  · rw [List.filter_append]
    by_cases hi : i = slotOf v
    · subst hi
      rw [Function.update_self, List.filter_cons_of_pos (by simp), List.filter_nil]
      exact hlead
    · rw [Function.update_of_ne hi, List.filter_cons_of_neg (by simpa using Ne.symm hi),
        List.filter_nil, List.append_nil]
      refine (hleads i).congr fun c hc => hframe c.1 ?_
      -- the cell belongs to another chain
      rintro hmem
      obtain ⟨d, hd, heq⟩ := List.mem_map.mp hmem
      obtain ⟨hd, hslot⟩ := List.mem_filter.mp hd
      obtain ⟨hc, hslot'⟩ := List.mem_filter.mp hc
      obtain rfl := eq_of_fst h.nodup hd hc heq
      exact hi ((of_decide_eq_true hslot').symm.trans (of_decide_eq_true hslot))
  · rw [List.map_append, List.nodup_append]
    refine ⟨h.nodup, List.nodup_singleton a, fun b hb b' hb' => ?_⟩
    obtain ⟨c, hc, rfl⟩ := List.mem_map.mp hb
    rw [List.mem_singleton.mp hb']
    exact hnew c hc
  · rw [List.map_append, List.mem_append]
    by_cases hba : b = a
    · exact .inr (hba ▸ List.mem_singleton_self a)
    · have hm : Function.update m a (some ⟨v, none⟩) b ≠ none := fun hm => hb ((hnone b).mpr hm)
      rw [Function.update_of_ne hba] at hm
      exact .inl (h.covers b hm)

/-- **A cell less**, of the chain it belongs to. -/
theorem remove (h : Chained m chains slotOf (xs ++ cell :: ys)) :
    ∃ m' c', (chains (slotOf cell.2)).remove m
        (((xs.filter fun c => slotOf c.2 = slotOf cell.2).map Prod.fst).getLast?) cell.1 =
          some (m', c') ∧
      Chained m' (Function.update chains (slotOf cell.2) c') slotOf (xs ++ ys) := by
  have hlead := h.leads (slotOf cell.2)
  rw [List.filter_append, List.filter_cons_of_pos (by simp)] at hlead
  obtain ⟨m', c', hremove, hlead', hframe, hnone⟩ := hlead.remove
  have hsub : (xs ++ ys).Sublist (xs ++ cell :: ys) :=
    (List.sublist_cons_self cell ys).append_left xs
  refine ⟨m', c', hremove, fun i => ?_, h.nodup.sublist (hsub.map Prod.fst), fun b hb => ?_⟩
  · by_cases hi : i = slotOf cell.2
    · subst hi
      rw [Function.update_self, List.filter_append]
      exact hlead'
    · rw [Function.update_of_ne hi]
      have hrest := h.leads i
      rw [List.filter_append, List.filter_cons_of_neg (by simpa using Ne.symm hi),
        ← List.filter_append] at hrest
      refine hrest.congr fun c hc => hframe c.1 ?_
      rw [← List.filter_cons_of_pos (p := fun c : A × α => decide (slotOf c.2 = slotOf cell.2))
        (by simp), ← List.filter_append]
      rintro hmem
      obtain ⟨d, hd, heq⟩ := List.mem_map.mp hmem
      obtain ⟨hd, hslot⟩ := List.mem_filter.mp hd
      obtain ⟨hc, hslot'⟩ := List.mem_filter.mp hc
      obtain rfl := eq_of_fst h.nodup hd (hsub.subset hc) heq
      exact hi ((of_decide_eq_true hslot').symm.trans (of_decide_eq_true hslot))
  · have hm : ¬ (m b = none ∨ b = cell.1) := fun hor => hb ((hnone b).mpr hor)
    rw [not_or] at hm
    have hmem := h.covers b hm.1
    rw [List.map_append, List.map_cons, List.mem_append, List.mem_cons] at hmem
    rw [List.map_append, List.mem_append]
    exact hmem.imp_right fun hor => hor.resolve_left hm.2

/-- **A chain less**: its cells are freed. -/
theorem drain (h : Chained m chains slotOf cells) (i : ι) (hturns : cells.length ≤ turns) :
    ∃ m', Chain.drain m turns (chains i).head =
        some (m', (cells.filter fun c => slotOf c.2 = i).length) ∧
      Chained m' (Function.update chains i .empty) slotOf
        (cells.filter fun c => !decide (slotOf c.2 = i)) := by
  obtain ⟨m', hdrain, hm'⟩ := Chain.drain_eq (h.leads i).segment
    (Nat.le_trans (List.length_filter_le _ _) hturns)
  have hother {c : A × α} (hc : c ∈ cells) (hne : slotOf c.2 ≠ i) : m' c.1 = m c.1 := by
    rw [hm', if_neg]
    rintro hmem
    obtain ⟨d, hd, heq⟩ := List.mem_map.mp hmem
    obtain ⟨hd, hslot⟩ := List.mem_filter.mp hd
    obtain rfl := eq_of_fst h.nodup hd hc heq
    exact hne (of_decide_eq_true hslot)
  refine ⟨m', hdrain, fun j => ?_, h.nodup.sublist (List.filter_sublist.map Prod.fst),
    fun b hb => ?_⟩
  · by_cases hj : j = i
    · subst hj
      rw [Function.update_self, List.filter_filter]
      have hnone : (cells.filter fun c => decide (slotOf c.2 = j) && !decide (slotOf c.2 = j)) =
          [] := List.filter_eq_nil_iff.mpr fun c _ => by simp
      rw [hnone]
      exact Chain.leads_empty
    · rw [Function.update_of_ne hj, List.filter_filter]
      have hsame : (cells.filter fun c => decide (slotOf c.2 = j) && !decide (slotOf c.2 = i)) =
          cells.filter fun c => slotOf c.2 = j := by
        refine List.filter_congr fun c _ => ?_
        by_cases hslot : slotOf c.2 = j
        · simp [hslot, hj]
        · simp [hslot]
      rw [hsame]
      refine (h.leads j).congr fun c hc => ?_
      obtain ⟨hc, hslot⟩ := List.mem_filter.mp hc
      exact hother hc fun heq => hj ((of_decide_eq_true hslot).symm.trans heq)
  · rw [hm'] at hb
    have hnot : b ∉ (cells.filter fun c => slotOf c.2 = i).map Prod.fst := fun hmem =>
      hb (if_pos hmem)
    rw [if_neg hnot] at hb
    obtain ⟨c, hc, rfl⟩ := List.mem_map.mp (h.covers b hb)
    refine List.mem_map_of_mem (List.mem_filter.mpr ⟨hc, ?_⟩)
    rw [Bool.not_eq_true', decide_eq_false_iff_not]
    refine fun heq => hnot ?_
    exact List.mem_map_of_mem (List.mem_filter.mpr ⟨hc, decide_eq_true heq⟩)

end Chained

end Linked
