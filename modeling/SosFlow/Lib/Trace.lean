import Mathlib.Data.List.Basic
import Mathlib.Data.List.Forall2
import Mathlib.Tactic.Common

/-!
# Runs of a transition function

A system is a step function `σ → α → Option σ`: from a state and an action
to the next state, or to nothing when the action is not possible there. A
run takes a list of actions one after the other.

`Along` says that a condition on states and actions holds of every step a
run takes, each judged in the state it is taken from. It is how a
conditional invariant is stated: `run_invariant` carries a property from
the first state to the last, when each step that meets the condition
preserves it. A number that grows at the steps that miss the condition says
whether there was one: `along_iff_of_count`.
-/

namespace Trace

variable {σ α : Type*} (step : σ → α → Option σ)

/-- **A run**: the actions taken in order, ending in nothing as soon as one
of them is impossible. -/
def run (s : σ) : List α → Option σ
  | [] => some s
  | a :: as => (step s a).bind fun s' => run s' as

/-- **Every step of a run meets `ok`**, each in the state it is taken from. -/
def Along (ok : σ → α → Prop) (s : σ) : List α → Prop
  | [] => True
  | a :: as => ok s a ∧ ∀ s', step s a = some s' → Along ok s' as

/-- A condition that can be decided at each step can be decided along a run. -/
def decideAlong (ok : σ → α → Prop) [∀ s a, Decidable (ok s a)] :
    (s : σ) → (as : List α) → Decidable (Along step ok s as)
  | _, [] => isTrue trivial
  | s, a :: as =>
    match h : step s a with
    | none => decidable_of_iff (ok s a)
        ⟨fun hok => ⟨hok, fun s' hs' => by rw [h] at hs'; cases hs'⟩, fun hall => hall.1⟩
    | some s' =>
      have : Decidable (Along step ok s' as) := decideAlong ok s' as
      decidable_of_iff (ok s a ∧ Along step ok s' as)
        ⟨fun hall => ⟨hall.1, fun t ht => by rw [h] at ht; exact Option.some.inj ht ▸ hall.2⟩,
          fun hall => ⟨hall.1, hall.2 s' h⟩⟩

instance (ok : σ → α → Prop) [∀ s a, Decidable (ok s a)] (s : σ) (as : List α) :
    Decidable (Along step ok s as) := decideAlong step ok s as

variable {step}

@[simp] theorem run_nil (s : σ) : run step s [] = some s := rfl

@[simp] theorem run_cons (s : σ) (a : α) (as : List α) :
    run step s (a :: as) = (step s a).bind fun s' => run step s' as := rfl

/-- The inversion of a run's first step. -/
theorem run_cons_some {s t : σ} {a : α} {as : List α} (h : run step s (a :: as) = some t) :
    ∃ s', step s a = some s' ∧ run step s' as = some t :=
  Option.bind_eq_some_iff.mp h

/-- **One run behind another.** -/
theorem run_append (s : σ) (as bs : List α) :
    run step s (as ++ bs) = (run step s as).bind fun s' => run step s' bs := by
  induction as generalizing s with
  | nil => rfl
  | cons a as ih => simp only [List.cons_append, run_cons, Option.bind_assoc, ih]

/-- **The invariant rule**: what each step that meets `ok` preserves holds at
the end of every run whose steps all meet it. -/
theorem run_invariant {ok : σ → α → Prop} {Inv : σ → Prop}
    (hstep : ∀ s a s', Inv s → ok s a → step s a = some s' → Inv s') {s t : σ} {as : List α}
    (hs : Inv s) (hok : Along step ok s as) (hrun : run step s as = some t) : Inv t := by
  induction as generalizing s with
  | nil =>
      obtain rfl := Option.some.inj hrun
      exact hs
  | cons a as ih =>
      obtain ⟨s', hstep', hrest⟩ := run_cons_some hrun
      exact ih (hstep s a s' hs hok.1 hstep') (hok.2 s' hstep') hrest

/-- The condition that asks nothing holds along every run. -/
theorem along_true (s : σ) (as : List α) : Along step (fun _ _ => True) s as := by
  induction as generalizing s with
  | nil => trivial
  | cons a as ih => exact ⟨trivial, fun s' _ => ih s'⟩

/-- A condition on the actions alone. -/
theorem along_of_forall_mem {ok : α → Prop} {as : List α} (h : ∀ a ∈ as, ok a) (s : σ) :
    Along step (fun _ a => ok a) s as := by
  induction as generalizing s with
  | nil => trivial
  | cons a as ih =>
      rw [List.forall_mem_cons] at h
      exact ⟨h.1, fun s' _ => ih h.2 s'⟩

/-- The unconditional invariant rule. -/
theorem run_preserves {Inv : σ → Prop}
    (hstep : ∀ s a s', Inv s → step s a = some s' → Inv s') {s t : σ} {as : List α}
    (hs : Inv s) (hrun : run step s as = some t) : Inv t :=
  run_invariant (fun s a s' hs _ => hstep s a s' hs) hs (along_true s as) hrun

/-- **Two conditions that an invariant makes the same** are the same along every run. -/
theorem along_congr {ok ok' : σ → α → Prop} {Inv : σ → Prop}
    (hiff : ∀ s a, Inv s → (ok s a ↔ ok' s a))
    (hstep : ∀ s a s', Inv s → step s a = some s' → Inv s') {s : σ} {as : List α} (hs : Inv s) :
    Along step ok s as ↔ Along step ok' s as := by
  induction as generalizing s with
  | nil => exact Iff.rfl
  | cons a as ih =>
      refine and_congr (hiff s a hs) (forall_congr' fun s' => ?_)
      refine imp_congr_right fun h => ih (hstep s a s' hs h)

/-- **What each step appends to a list**, related to what it is told, the run appends, one
behind the other. -/
theorem run_appends {β γ : Type*} {f : σ → List β} {g : α → Option γ} {R : β → γ → Prop}
    {Inv : σ → Prop} (hinv : ∀ s a s', Inv s → step s a = some s' → Inv s')
    (hstep : ∀ s a s', Inv s → step s a = some s' →
      ∃ new, f s' = f s ++ new ∧ List.Forall₂ R new (g a).toList) {s t : σ} {as : List α}
    (hs : Inv s) (hrun : run step s as = some t) :
    ∃ new, f t = f s ++ new ∧ List.Forall₂ R new (as.filterMap g) := by
  induction as generalizing s with
  | nil =>
      obtain rfl := Option.some.inj hrun
      exact ⟨[], (List.append_nil _).symm, .nil⟩
  | cons a as ih =>
      obtain ⟨s', hstep', hrest⟩ := run_cons_some hrun
      obtain ⟨new, hnew, hfirst⟩ := hstep s a s' hs hstep'
      obtain ⟨later, hlater, hothers⟩ := ih (hinv s a s' hs hstep') hrest
      refine ⟨new ++ later, by rw [hlater, hnew, List.append_assoc], ?_⟩
      have hsplit : (a :: as).filterMap g = (g a).toList ++ as.filterMap g := by
        cases hg : g a with
        | none => rw [List.filterMap_cons_none hg]; rfl
        | some c => rw [List.filterMap_cons_some hg]; rfl
      rw [hsplit]
      exact List.rel_append hfirst hothers

/-! ## Counting the steps that miss a condition -/

/-- **Counting**: a number that grows at each step that misses `ok`, and at no
other, is at the end what it was exactly if every step of the run met it. -/
theorem along_iff_of_count {ok : σ → α → Prop} (count : σ → ℕ)
    (hmeets : ∀ s a s', ok s a → step s a = some s' → count s' = count s)
    (hmisses : ∀ s a s', ¬ ok s a → step s a = some s' → count s < count s') {s t : σ}
    {as : List α} (hrun : run step s as = some t) : Along step ok s as ↔ count t = count s := by
  have hle : ∀ s a s', step s a = some s' → count s ≤ count s' := by
    intro s a s' hstep
    by_cases hok : ok s a
    · exact Nat.le_of_eq (hmeets s a s' hok hstep).symm
    · exact Nat.le_of_lt (hmisses s a s' hok hstep)
  induction as generalizing s with
  | nil =>
      obtain rfl := Option.some.inj hrun
      exact iff_of_true trivial rfl
  | cons a as ih =>
      obtain ⟨s', hstep, hrest⟩ := run_cons_some hrun
      by_cases hok : ok s a
      · rw [← hmeets s a s' hok hstep]
        refine Iff.trans ⟨fun h => h.2 s' hstep, fun h => ⟨hok, ?_⟩⟩ (ih hrest)
        intro s'' hstep'
        obtain rfl := Option.some.inj (hstep.symm.trans hstep')
        exact h
      -- what it has grown by at this step it does not lose behind it
      · have hkeep : ∀ u b u', count s' ≤ count u → step u b = some u' → count s' ≤ count u' :=
          fun u b u' hu hstep' => Nat.le_trans hu (hle u b u' hstep')
        have hgrown : count s' ≤ count t := run_preserves hkeep (Nat.le_refl _) hrest
        have hlt := Nat.lt_of_lt_of_le (hmisses s a s' hok hstep) hgrown
        exact iff_of_false (fun h => hok h.1) (Nat.ne_of_gt hlt)

/-! ## Reaching a state -/

variable (step) in
/-- **A run leads** from one state to another. -/
def Reaches (s t : σ) : Prop := ∃ as, run step s as = some t

theorem Reaches.refl (s : σ) : Reaches step s s := ⟨[], rfl⟩

/-- One step more at the front. -/
theorem Reaches.head {s s' t : σ} {a : α} (h : step s a = some s') (hrest : Reaches step s' t) :
    Reaches step s t := by
  obtain ⟨as, has⟩ := hrest
  refine ⟨a :: as, ?_⟩
  rw [run_cons, h]
  exact has

theorem Reaches.trans {s t u : σ} (h : Reaches step s t) (hrest : Reaches step t u) :
    Reaches step s u := by
  obtain ⟨as, has⟩ := h
  obtain ⟨bs, hbs⟩ := hrest
  exact ⟨as ++ bs, by rw [run_append, has, Option.bind_some, hbs]⟩

/-- **Progress**: where there is always a step of a kind that makes a number smaller, until
a goal is reached, steps of that kind lead to the goal. -/
theorem exists_run_of_measure {ok : α → Prop} {Inv Goal : σ → Prop} (measure : σ → ℕ)
    (hstep : ∀ s, Inv s → ¬ Goal s →
      ∃ a s', ok a ∧ step s a = some s' ∧ Inv s' ∧ measure s' < measure s) {s : σ} (hs : Inv s) :
    ∃ as t, (∀ a ∈ as, ok a) ∧ run step s as = some t ∧ Inv t ∧ Goal t := by
  induction hn : measure s using Nat.strongRecOn generalizing s with
  | _ n ih =>
      by_cases hgoal : Goal s
      · exact ⟨[], s, by simp, rfl, hs, hgoal⟩
      · obtain ⟨a, s', hok, hstep', hs', hlt⟩ := hstep s hs hgoal
        obtain ⟨as, t, hall, hrun, ht, hgoal'⟩ := ih (measure s') (hn ▸ hlt) hs' rfl
        refine ⟨a :: as, t, List.forall_mem_cons.mpr ⟨hok, hall⟩, ?_, ht, hgoal'⟩
        rw [run_cons, hstep']
        exact hrun

end Trace
