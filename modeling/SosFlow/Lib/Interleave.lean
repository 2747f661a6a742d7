import SosFlow.Lib.Trace
import Mathlib.Algebra.BigOperators.Group.Finset.Basic
import Mathlib.Algebra.Order.BigOperators.Group.Finset
import Mathlib.Data.Fintype.Basic

/-!
# Threads over a shared state

Any number of threads, each with a state of its own, take turns on a state
they share. A turn is one step of one thread, and a schedule is the list of
the threads in the order of their turns: an interleaving is a run of `step`.

What the threads hold together is counted by a weight for each thread and
its state. `total_update` says how the total moves with one of them, which is
what an invariant that relates the total to the shared state needs.
-/

namespace Interleave

variable {ι σ β : Type*}

/-- **A configuration**: the shared state and the state of each thread. -/
structure Config (ι σ β : Type*) where
  shared : σ
  thread : ι → β

section

variable [DecidableEq ι] (act : ι → σ → β → Option (σ × β))

/-- **One turn** of a thread, if it is not blocked. -/
def step (s : Config ι σ β) (i : ι) : Option (Config ι σ β) :=
  (act i s.shared (s.thread i)).map fun r => ⟨r.1, Function.update s.thread i r.2⟩

variable {act}

theorem step_eq_some {s s' : Config ι σ β} {i : ι} (h : step act s i = some s') :
    ∃ shared b, act i s.shared (s.thread i) = some (shared, b) ∧
      s' = ⟨shared, Function.update s.thread i b⟩ := by
  obtain ⟨⟨shared, b⟩, hact, hs'⟩ := Option.map_eq_some_iff.mp h
  exact ⟨shared, b, hact, hs'.symm⟩

end

/-- A thread that is alone. -/
theorem step_unit {act : Unit → σ → β → Option (σ × β)} (shared : σ) (b : β) :
    step act ⟨shared, fun _ => b⟩ () = (act () shared b).map fun r => ⟨r.1, fun _ => r.2⟩ := by
  have hupdate : ∀ b', Function.update (fun _ : Unit => b) () b' = fun _ => b' := by
    intro b'
    funext u
    rw [Function.update_self]
  unfold step
  simp only [hupdate]

/-! ## Turns in a row -/

/-- **One thread has several turns in a row**, and brings the shared state and its own
from the first pair to the second. -/
inductive Solo (act : ι → σ → β → Option (σ × β)) (i : ι) : σ → β → σ → β → Prop
  | refl (s : σ) (b : β) : Solo act i s b s b
  | head {s s' t : σ} {b b' c : β} (h : act i s b = some (s', b')) (hrest : Solo act i s' b' t c) :
      Solo act i s b t c

section

variable {act : ι → σ → β → Option (σ × β)} {i : ι} {s t u : σ} {b c d : β}

theorem Solo.single (h : act i s b = some (t, c)) : Solo act i s b t c := .head h (.refl t c)

theorem Solo.trans (h : Solo act i s b t c) (hrest : Solo act i t c u d) : Solo act i s b u d := by
  induction h with
  | refl => exact hrest
  | head h _ ih => exact .head h (ih hrest)

/-- **Turns in a row are a run**, and the other threads are where they were. -/
theorem Solo.run [DecidableEq ι] (h : Solo act i s b t c) {f : ι → β} (hf : f i = b) :
    ∃ n, Trace.run (step act) ⟨s, f⟩ (List.replicate n i) =
      some ⟨t, Function.update f i c⟩ := by
  induction h generalizing f with
  | refl s b =>
      refine ⟨0, ?_⟩
      rw [List.replicate_zero, Trace.run_nil, ← hf, Function.update_eq_self]
  | @head s s' t b b' c h _ ih =>
      obtain ⟨n, hn⟩ := ih (f := Function.update f i b') (Function.update_self ..)
      refine ⟨n + 1, ?_⟩
      have hstep : step act ⟨s, f⟩ i = some ⟨s', Function.update f i b'⟩ := by
        unfold step
        simp only [hf, h, Option.map_some]
      rw [List.replicate_succ, Trace.run_cons, hstep, Option.bind_some, hn,
        Function.update_idem]

end

/-- Turns in a row lead from one configuration to another. -/
theorem Solo.reaches [DecidableEq ι] {act : ι → σ → β → Option (σ × β)} {i : ι} {s t : σ} {b c : β}
    (h : Solo act i s b t c) {f : ι → β} (hf : f i = b) :
    Trace.Reaches (step act) ⟨s, f⟩ ⟨t, Function.update f i c⟩ := by
  obtain ⟨n, hn⟩ := h.run hf
  exact ⟨_, hn⟩

/-! ## Counting over the threads -/

variable [Fintype ι]

/-- **The total of a weight** over all threads. -/
def total (w : ι → β → ℕ) (f : ι → β) : ℕ := ∑ i, w i (f i)

variable (w : ι → β → ℕ) (f : ι → β)

/-- **One thread moves**, and the total by as much as its weight. -/
theorem total_update [DecidableEq ι] (i : ι) (b : β) :
    total w (Function.update f i b) + w i (f i) = total w f + w i b := by
  have hsplit (g : ι → β) : total w g = w i (g i) + ∑ j ∈ Finset.univ.erase i, w j (g j) :=
    (Finset.add_sum_erase Finset.univ (fun j => w j (g j)) (Finset.mem_univ i)).symm
  have hrest : ∑ j ∈ Finset.univ.erase i, w j (Function.update f i b j) =
      ∑ j ∈ Finset.univ.erase i, w j (f j) := by
    refine Finset.sum_congr rfl fun j hj => ?_
    rw [Function.update_of_ne (Finset.ne_of_mem_erase hj)]
  rw [hsplit (Function.update f i b), hsplit f, hrest, Function.update_self]
  omega

variable {w f}

/-- A weight that no thread has. -/
theorem total_eq_zero (h : ∀ i, w i (f i) = 0) : total w f = 0 :=
  Finset.sum_eq_zero fun i _ => h i

/-- A weight that one thread has alone. -/
theorem total_eq_single {i : ι} (h : ∀ j, j ≠ i → w j (f j) = 0) : total w f = w i (f i) :=
  Finset.sum_eq_single i (fun j _ hj => h j hj) fun hi => absurd (Finset.mem_univ i) hi

/-- A total that is not zero has a thread with some of it. -/
theorem exists_of_total_pos (h : 0 < total w f) : ∃ i, 0 < w i (f i) := by
  obtain ⟨i, -, hi⟩ := Finset.exists_ne_zero_of_sum_ne_zero (Nat.pos_iff_ne_zero.mp h)
  exact ⟨i, Nat.pos_of_ne_zero hi⟩

/-- No thread has more than the total. -/
theorem le_total (i : ι) : w i (f i) ≤ total w f :=
  Finset.single_le_sum (f := fun i => w i (f i)) (fun _ _ => Nat.zero_le _) (Finset.mem_univ i)

/-- **Two threads share it.** -/
theorem add_le_total [DecidableEq ι] {i j : ι} (h : i ≠ j) :
    w i (f i) + w j (f j) ≤ total w f := by
  have hpair : ∑ k ∈ {i, j}, w k (f k) = w i (f i) + w j (f j) := Finset.sum_pair h
  rw [← hpair]
  exact Finset.sum_le_sum_of_subset (Finset.subset_univ {i, j})

end Interleave
