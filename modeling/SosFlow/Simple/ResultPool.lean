import SosFlow.Lib.Interleave
import Mathlib.Data.Fintype.Sum

/-!
# The result pool of the simple API

Results that are delivered to `SSOS_feedback_handler` wait in a pool until a
thread takes one with `SSOS_result_claim_initialized`. A mutex guards the pool
and its size, and a semaphore is posted once for every delivery, after the
mutex was released. `SSOS_init` starts the semaphore at one instead of zero, so
a claimer may find the pool empty, and goes back to wait.

A step takes or releases the mutex, waits for the semaphore or posts it, or is
what a thread does while it holds the mutex. `D` are the deliveries and `C` the
claims that are made, any number of each.
-/

namespace SosFlow

open Trace Interleave

/-- **Where a thread is**: in a delivery, up to `delivered`, or in a claim. -/
inductive PoolPc (D : Type) where
  | unpacked
  | inserting
  | inserted
  | unlocked
  | delivered
  | waiting
  | woken
  | checking
  | emptyHanded
  | taken (d : D)
  | claimed (d : D)
deriving DecidableEq

/-- **What the threads share**: `g_results_ready`, `g_result_pool_lock`, and the
pool with its size, where an entry stands for its delivery. -/
structure ResultPool (D C : Type) where
  resultsReady : ℕ
  poolLock : Option (D ⊕ C)
  pool : List D
  poolSize : ℕ

namespace ResultPool

variable {D C : Type}

/-- `SSOS_feedback_handler`, behind the reading of the message. -/
def deliver (d : D) (s : ResultPool D C) : PoolPc D → Option (ResultPool D C × PoolPc D)
  | .unpacked =>
      if s.poolLock = none then some ({ s with poolLock := some (.inl d) }, .inserting) else none
  | .inserting => some ({ s with pool := d :: s.pool, poolSize := s.poolSize + 1 }, .inserted)
  | .inserted => some ({ s with poolLock := none }, .unlocked)
  | .unlocked => some ({ s with resultsReady := s.resultsReady + 1 }, .delivered)
  | _ => none

/-- `SSOS_result_claim_initialized`, up to the release of the mutex. -/
def claim (c : C) (s : ResultPool D C) : PoolPc D → Option (ResultPool D C × PoolPc D)
  | .waiting =>
      if 0 < s.resultsReady then some ({ s with resultsReady := s.resultsReady - 1 }, .woken)
      else none
  | .woken =>
      if s.poolLock = none then some ({ s with poolLock := some (.inr c) }, .checking) else none
  | .checking =>
      if s.poolSize < 1 then some (s, .emptyHanded)
      else match s.pool with
        | [] => none
        | d :: rest => some ({ s with pool := rest, poolSize := s.poolSize - 1 }, .taken d)
  | .emptyHanded => some ({ s with poolLock := none }, .waiting)
  | .taken d => some ({ s with poolLock := none }, .claimed d)
  | _ => none

end ResultPool

variable {D C : Type}

/-- **A turn** of a delivery or of a claim. -/
def poolAct (i : D ⊕ C) (s : ResultPool D C) (pc : PoolPc D) :
    Option (ResultPool D C × PoolPc D) :=
  match i with
  | .inl d => s.deliver d pc
  | .inr c => s.claim c pc

/-- The pool with its threads. -/
abbrev Pooling (D C : Type) := Config (D ⊕ C) (ResultPool D C) (PoolPc D)

/-- **`SSOS_init`.** -/
def ssosInit (D C : Type) : Pooling D C where
  shared := ⟨1, none, [], 0⟩
  thread i := match i with
    | .inl _ => .unpacked
    | .inr _ => .waiting

namespace Pooling

variable (s : Pooling D C)

/-- The claim has passed `sem_wait` and not yet checked the pool. -/
def OnTheWay (c : C) : Prop := s.thread (.inr c) = .woken ∨ s.thread (.inr c) = .checking

/-- The delivery has inserted its entry and not yet posted. -/
def Unposted (d : D) : Prop := s.thread (.inl d) = .inserted ∨ s.thread (.inl d) = .unlocked

/-- The delivery has inserted its entry. -/
def Inserted (d : D) : Prop := s.Unposted d ∨ s.thread (.inl d) = .delivered

/-- The claim has the result of the delivery. -/
def Took (c : C) (d : D) : Prop :=
  s.thread (.inr c) = .taken d ∨ s.thread (.inr c) = .claimed d

end Pooling

/-! ## What the threads hold together -/

/-- One for a claim that is on the way. -/
def onTheWayWeight : D ⊕ C → PoolPc D → ℕ
  | .inr _, .woken => 1
  | .inr _, .checking => 1
  | _, _ => 0

/-- One for a delivery that has not posted. -/
def unpostedWeight : D ⊕ C → PoolPc D → ℕ
  | .inl _, .inserted => 1
  | .inl _, .unlocked => 1
  | _, _ => 0

/-- One for a claim that has the result. -/
def tookWeight [DecidableEq D] (d : D) : D ⊕ C → PoolPc D → ℕ
  | .inr _, .taken d' => if d' = d then 1 else 0
  | .inr _, .claimed d' => if d' = d then 1 else 0
  | _, _ => 0

/-- One for the delivery, when its entry has been in the pool. -/
def insertedWeight [DecidableEq D] (d : D) : D ⊕ C → PoolPc D → ℕ
  | .inl d', .inserted => if d' = d then 1 else 0
  | .inl d', .unlocked => if d' = d then 1 else 0
  | .inl d', .delivered => if d' = d then 1 else 0
  | _, _ => 0

section

variable [Fintype D] [Fintype C] [DecidableEq D] [DecidableEq C]

/-- **What every step keeps.** The semaphore, the claims on the way and the
deliveries to be posted are as many as the pool, or one more. Each result is in
the pool or with a claim once its delivery has inserted it. -/
structure PoolInv (s : Pooling D C) : Prop where
  size : s.shared.poolSize = s.shared.pool.length
  covered : s.shared.pool.length ≤
    s.shared.resultsReady + total onTheWayWeight s.thread + total unpostedWeight s.thread
  placed : ∀ d, s.shared.pool.count d + total (tookWeight d) s.thread =
    total (insertedWeight d) s.thread

omit [DecidableEq C] in
theorem PoolInv.init : PoolInv (ssosInit D C) where
  size := rfl
  covered := Nat.zero_le _
  placed d := by
    have htook : total (tookWeight d) (ssosInit D C).thread = 0 :=
      total_eq_zero fun i => by cases i <;> rfl
    have hinserted : total (insertedWeight d) (ssosInit D C).thread = 0 :=
      total_eq_zero fun i => by cases i <;> rfl
    rw [htook, hinserted]
    rfl

/-- **A turn that keeps the balance**: what it moves between the pool, the
semaphore and the threads adds up. -/
theorem PoolInv.move {s : Pooling D C} (h : PoolInv s) {i : D ⊕ C} {shared : ResultPool D C}
    {pc pc' : PoolPc D} (hpc : s.thread i = pc) (hsize : shared.poolSize = shared.pool.length)
    (hcovered : shared.pool.length = 0 ∨
      shared.pool.length + s.shared.resultsReady + onTheWayWeight i pc + unpostedWeight i pc ≤
        s.shared.pool.length + shared.resultsReady + onTheWayWeight i pc' + unpostedWeight i pc')
    (hplaced : ∀ d, shared.pool.count d + tookWeight d i pc' + insertedWeight d i pc =
      s.shared.pool.count d + tookWeight d i pc + insertedWeight d i pc') :
    PoolInv ⟨shared, Function.update s.thread i pc'⟩ := by
  subst hpc
  refine ⟨hsize, ?_, fun d => ?_⟩
  · have hway := total_update onTheWayWeight s.thread i pc'
    have hunposted := total_update unpostedWeight s.thread i pc'
    have hold := h.covered
    show shared.pool.length ≤ shared.resultsReady + total _ (Function.update s.thread i pc') +
      total _ (Function.update s.thread i pc')
    omega
  · have htook := total_update (tookWeight d) s.thread i pc'
    have hinserted := total_update (insertedWeight d) s.thread i pc'
    have hold := h.placed d
    have hbalance := hplaced d
    show shared.pool.count d + total _ (Function.update s.thread i pc') =
      total _ (Function.update s.thread i pc')
    omega

/-- **A turn of a delivery.** -/
theorem PoolInv.deliver {s : Pooling D C} (h : PoolInv s) {d : D} {shared : ResultPool D C}
    {pc : PoolPc D} (hact : s.shared.deliver d (s.thread (.inl d)) = some (shared, pc)) :
    PoolInv ⟨shared, Function.update s.thread (.inl d) pc⟩ := by
  have hsize := h.size
  cases hpc : s.thread (.inl d) with
  | unpacked =>
      rw [hpc] at hact
      obtain ⟨-, heq⟩ := Option.ite_none_right_eq_some.mp hact
      cases heq
      exact h.move hpc hsize (.inr le_rfl) fun _ => rfl
  | inserting =>
      rw [hpc] at hact
      cases hact
      refine h.move hpc (congrArg (· + 1) hsize) (.inr ?_) fun d' => ?_
      · simp only [onTheWayWeight, unpostedWeight, List.length_cons]
        omega
      · -- the entry is in the pool, and the delivery has inserted it
        simp only [tookWeight, insertedWeight, List.count_cons, beq_iff_eq]
        omega
  | inserted =>
      rw [hpc] at hact
      cases hact
      exact h.move hpc hsize (.inr le_rfl) fun _ => rfl
  | unlocked =>
      rw [hpc] at hact
      cases hact
      refine h.move hpc hsize (.inr ?_) fun _ => rfl
      simp only [onTheWayWeight, unpostedWeight]
      omega
  | _ =>
      rw [hpc] at hact
      cases hact

/-- **A turn of a claim.** -/
theorem PoolInv.claim {s : Pooling D C} (h : PoolInv s) {c : C} {shared : ResultPool D C}
    {pc : PoolPc D} (hact : s.shared.claim c (s.thread (.inr c)) = some (shared, pc)) :
    PoolInv ⟨shared, Function.update s.thread (.inr c) pc⟩ := by
  have hsize := h.size
  cases hpc : s.thread (.inr c) with
  | waiting =>
      rw [hpc] at hact
      obtain ⟨hready, heq⟩ := Option.ite_none_right_eq_some.mp hact
      cases heq
      refine h.move hpc hsize (.inr ?_) fun _ => rfl
      simp only [onTheWayWeight, unpostedWeight]
      omega
  | woken =>
      rw [hpc] at hact
      obtain ⟨-, heq⟩ := Option.ite_none_right_eq_some.mp hact
      cases heq
      exact h.move hpc hsize (.inr le_rfl) fun _ => rfl
  | checking =>
      rw [hpc, ResultPool.claim] at hact
      split at hact
      case isTrue hempty =>
        -- one less is on the way, and there is nothing to be on the way to
        cases hact
        exact h.move hpc hsize (.inl (by omega)) fun _ => rfl
      case isFalse =>
        cases hpool : s.shared.pool with
        | nil =>
            rw [hpool] at hact
            cases hact
        | cons d rest =>
            rw [hpool] at hact hsize
            cases hact
            refine h.move hpc (by rw [hsize]; rfl) (.inr ?_) fun d' => ?_
            · rw [hpool]
              simp only [onTheWayWeight, unpostedWeight, List.length_cons]
              omega
            · rw [hpool]
              simp only [tookWeight, insertedWeight, List.count_cons, beq_iff_eq]
  | emptyHanded =>
      rw [hpc] at hact
      cases hact
      exact h.move hpc hsize (.inr le_rfl) fun _ => rfl
  | taken d =>
      rw [hpc] at hact
      cases hact
      exact h.move hpc hsize (.inr le_rfl) fun _ => rfl
  | _ =>
      rw [hpc] at hact
      cases hact

theorem PoolInv.step {s : Pooling D C} {i : D ⊕ C} {s' : Pooling D C} (h : PoolInv s)
    (hstep : Interleave.step poolAct s i = some s') : PoolInv s' := by
  obtain ⟨shared, pc, hact, rfl⟩ := step_eq_some hstep
  cases i with
  | inl d => exact h.deliver hact
  | inr c => exact h.claim hact

/-! ## What that says of the results -/

omit [DecidableEq C] in
theorem total_insertedWeight (d : D) (f : D ⊕ C → PoolPc D) :
    total (insertedWeight d) f = insertedWeight (C := C) d (.inl d) (f (.inl d)) := by
  refine total_eq_single fun i hi => ?_
  cases i with
  | inl d' =>
      have hne : d' ≠ d := fun heq => hi (by rw [heq])
      cases f (.inl d') <;> simp [insertedWeight, hne]
  | inr c => cases f (.inr c) <;> rfl

end

theorem onTheWayWeight_pos {i : D ⊕ C} {pc : PoolPc D} :
    0 < onTheWayWeight i pc ↔ ∃ c, i = .inr c ∧ (pc = .woken ∨ pc = .checking) := by
  cases i <;> cases pc <;> simp [onTheWayWeight]

theorem unpostedWeight_pos {i : D ⊕ C} {pc : PoolPc D} :
    0 < unpostedWeight i pc ↔ ∃ d, i = .inl d ∧ (pc = .inserted ∨ pc = .unlocked) := by
  cases i <;> cases pc <;> simp [unpostedWeight]

theorem tookWeight_pos [DecidableEq D] {d : D} {i : D ⊕ C} {pc : PoolPc D} :
    0 < tookWeight d i pc ↔ ∃ c, i = .inr c ∧ (pc = .taken d ∨ pc = .claimed d) := by
  cases i <;> cases pc <;> simp [tookWeight, Nat.pos_iff_ne_zero]

theorem insertedWeight_eq [DecidableEq D] (s : Pooling D C) (d : D) [Decidable (s.Inserted d)] :
    insertedWeight (C := C) d (.inl d) (s.thread (.inl d)) = if s.Inserted d then 1 else 0 := by
  by_cases h : s.Inserted d
  · rw [if_pos h]
    rcases h with (h | h) | h <;> rw [h] <;> exact if_pos rfl
  · rw [if_neg h]
    cases hpc : s.thread (.inl d) <;>
      simp_all [insertedWeight, Pooling.Inserted, Pooling.Unposted]

/-- **A sound pool**: its size is right, no result is taken twice, a result that was
delivered is in the pool or with a claim, and the semaphore, the claims on the
way and the deliveries to be posted cover the pool. -/
structure PoolSound [Fintype D] [Fintype C] (s : Pooling D C) : Prop where
  size : s.shared.poolSize = s.shared.pool.length
  nodup : s.shared.pool.Nodup
  takenOnce : ∀ d c c', s.Took c d → s.Took c' d → c = c'
  kept : ∀ d, s.Inserted d → (d ∈ s.shared.pool ↔ ¬ ∃ c, s.Took c d)
  onlyDelivered : ∀ d, ¬ s.Inserted d → d ∉ s.shared.pool ∧ ¬ ∃ c, s.Took c d
  covered : s.shared.poolSize ≤
    s.shared.resultsReady + total onTheWayWeight s.thread + total unpostedWeight s.thread
  blocked : s.shared.resultsReady = 0 → s.shared.pool ≠ [] →
    (∃ c, s.OnTheWay c) ∨ ∃ d, s.Unposted d

section

variable [Fintype D] [Fintype C] [DecidableEq D] [DecidableEq C]

theorem PoolInv.sound {s : Pooling D C} (h : PoolInv s) : PoolSound s := by
  classical
  have hplaced (d : D) : s.shared.pool.count d + total (tookWeight d) s.thread =
      if s.Inserted d then 1 else 0 := by
    rw [h.placed d, total_insertedWeight, insertedWeight_eq]
  have htook (d : D) (c : C) (hc : s.Took c d) : 0 < tookWeight d (.inr c) (s.thread (.inr c)) :=
    tookWeight_pos.mpr ⟨c, rfl, hc⟩
  have htotal (d : D) : 0 < total (tookWeight d) s.thread ↔ ∃ c, s.Took c d := by
    constructor
    · intro hpos
      obtain ⟨i, hi⟩ := exists_of_total_pos hpos
      obtain ⟨c, rfl, hc⟩ := tookWeight_pos.mp hi
      exact ⟨c, hc⟩
    · rintro ⟨c, hc⟩
      exact lt_of_lt_of_le (htook d c hc)
        (Interleave.le_total (w := tookWeight d) (f := s.thread) (.inr c))
  refine ⟨h.size, ?_, ?_, ?_, ?_, h.size ▸ h.covered, ?_⟩
  · refine List.nodup_iff_count_le_one.mpr fun d => ?_
    have hbalance := hplaced d
    split at hbalance <;> omega
  · intro d c c' hc hc'
    by_contra hne
    have htwo := add_le_total (w := tookWeight d) (f := s.thread)
      (show (.inr c : D ⊕ C) ≠ .inr c' by simpa using hne)
    have hone := htook d c hc
    have hone' := htook d c' hc'
    have hbalance := hplaced d
    split at hbalance <;> omega
  · intro d hinserted
    have hbalance := hplaced d
    rw [if_pos hinserted] at hbalance
    rw [← List.count_pos_iff, ← htotal d]
    omega
  · intro d hnot
    have hbalance := hplaced d
    rw [if_neg hnot] at hbalance
    rw [← List.count_pos_iff, ← htotal d]
    omega
  · intro hzero hne
    have hcovered := h.covered
    have hlength := List.length_pos_of_ne_nil hne
    by_cases hway : 0 < total onTheWayWeight s.thread
    · obtain ⟨i, hi⟩ := exists_of_total_pos hway
      obtain ⟨c, rfl, hc⟩ := onTheWayWeight_pos.mp hi
      exact .inl ⟨c, hc⟩
    · obtain ⟨i, hi⟩ := exists_of_total_pos (show 0 < total unpostedWeight s.thread by omega)
      obtain ⟨d, rfl, hd⟩ := unpostedWeight_pos.mp hi
      exact .inr ⟨d, hd⟩

/-- **The pool is sound in every state of every interleaving.** -/
theorem result_pool_sound {schedule : List (D ⊕ C)} {s : Pooling D C}
    (hrun : run (step poolAct) (ssosInit D C) schedule = some s) : PoolSound s :=
  (run_preserves (fun _ _ _ h hstep => h.step hstep) PoolInv.init hrun).sound

end

/-- A claim that finds the pool empty, a delivery, and a second one that has yet to
post when the claim takes its result. -/
def overtakenSchedule : List (Bool ⊕ Bool) :=
  [.inr false, .inr false, .inr false, .inr false,
    .inl true, .inl true, .inl true, .inl true,
    .inl false, .inl false, .inl false,
    .inr false, .inr false, .inr false, .inr false]

theorem result_pool_sound_overtaken :
    ∃ s, run (step poolAct) (ssosInit Bool Bool) overtakenSchedule = some s ∧ PoolSound s := by
  have hrun : (run (step poolAct) (ssosInit Bool Bool) overtakenSchedule).isSome := by decide
  obtain ⟨s, hs⟩ := Option.isSome_iff_exists.mp hrun
  exact ⟨s, hs, result_pool_sound hs⟩

/-- **The other claim is blocked then**, while the first result is in the pool, has
been posted for, and no claim is on the way to take it. -/
theorem not_claim_on_the_way :
    ¬ ∀ (schedule : List (Bool ⊕ Bool)) (s : Pooling Bool Bool),
      run (step poolAct) (ssosInit Bool Bool) schedule = some s →
      ∀ c d, s.thread (.inr c) = .waiting → s.shared.resultsReady = 0 →
        d ∈ s.shared.pool → s.thread (.inl d) = .delivered → ∃ c', s.OnTheWay c' := by
  intro hall
  have hrun : (run (step poolAct) (ssosInit Bool Bool) overtakenSchedule).map (fun s =>
      (s.shared.resultsReady, s.shared.pool, s.thread (.inl true), s.thread (.inr true),
        s.thread (.inr false))) =
      some (0, [true], .delivered, .waiting, .claimed false) := by decide
  obtain ⟨s, hs, hstate⟩ := Option.map_eq_some_iff.mp hrun
  simp only [Prod.mk.injEq] at hstate
  obtain ⟨hready, hpool, hdelivered, hwaiting, hclaimed⟩ := hstate
  obtain ⟨c, hc⟩ := hall overtakenSchedule s hs true true hwaiting hready
    (by rw [hpool]; exact List.mem_singleton_self true) hdelivered
  unfold Pooling.OnTheWay at hc
  cases c with
  | true =>
      rw [hwaiting] at hc
      rcases hc with h | h <;> cases h
  | false =>
      rw [hclaimed] at hc
      rcases hc with h | h <;> cases h

end SosFlow
