import SosFlow.Lib.Lock
import SosFlow.Lib.Interleave
import Mathlib.Tactic.Ring

/-!
# The counts beside the pipes

A `SOS_pipe` is a FIFO, and beside it stands `elem_count`, which those who
use the pipe adjust under `sync_lock`. A producer pushes and counts under
the lock. Most consumers pop and count under it as well; two pop first, and
take the lock only to count.

`SOSD_cloud_enqueue` pushes one message and counts it as one, but tells
`pipe_push` the size of a pointer where the others tell it how many: seven
words that lie behind the pointer go into the pipe with it. That is the one
site that puts a count wrong, and it does so whenever it pushes:
`queue_counters_iff`.
-/

namespace SosFlow

open Trace Interleave

/-- **What a thread does with a pipe.** A consumer that takes the lock first
reads the count, pops so many, or at most `limit`, and may wait for all of
them or be content with what is there. -/
inductive PipeOp (α : Type) where
  | push (xs : List α)
  | cloudEnqueue (shutdownUnderway : Bool) (len : ℤ) (x : α)
  | popOne
  | popLocked (limit : Option ℕ) (eager : Bool)

/-- **The sites**, by what the source calls them. Where a site uses two pipes it
stands here once for each. -/
inductive PipeSite (α : Type) where
  | sosPackSnapIntoValQueue (snap : α)
  | sosValSnapQueueToBuffer
  | sosValSnapQueueFromBuffer (snaps : List α)
  | sosdListenLoop (msg : α)
  | sosdCloudProcessBuffer (msg : α)
  | sosdHandleAnnounce (task : α)
  | sosdHandlePublish (task : α)
  | sosdHandleValSnaps (task : α)
  | sosdHandleQuery (task : α)
  | sosdHandleCacheGrab (task : α)
  | sosdCloudHandleTriggerpull (task : α)
  | sosdDbHandleSosaQuery (task : α)
  | sosdThreadFeedbackSync
  | sosdThreadLocalSync
  | sosdThreadLocalSyncForward (msg : α)
  | sosdThreadDbSync
  | sosdThreadCloudSend
  | sosdCloudEnqueue (shutdownUnderway : Bool) (len : ℤ) (msg : α)
  | sosdDbInsertVals
  | sosdDbInsertValsRequeue (snaps : List α)

/-- What a site does. -/
def PipeSite.op {α : Type} : PipeSite α → PipeOp α
  | sosPackSnapIntoValQueue snap => .push [snap]
  | sosValSnapQueueToBuffer => .popLocked none false
  | sosValSnapQueueFromBuffer snaps => .push snaps
  | sosdListenLoop msg => .push [msg]
  | sosdCloudProcessBuffer msg => .push [msg]
  | sosdHandleAnnounce task => .push [task]
  | sosdHandlePublish task => .push [task]
  | sosdHandleValSnaps task => .push [task]
  | sosdHandleQuery task => .push [task]
  | sosdHandleCacheGrab task => .push [task]
  | sosdCloudHandleTriggerpull task => .push [task]
  | sosdDbHandleSosaQuery task => .push [task]
  | sosdThreadFeedbackSync => .popOne
  | sosdThreadLocalSync => .popOne
  | sosdThreadLocalSyncForward msg => .push [msg]
  | sosdThreadDbSync => .popLocked (some 256) true
  | sosdThreadCloudSend => .popLocked none true
  | sosdCloudEnqueue shutdownUnderway len msg => .cloudEnqueue shutdownUnderway len msg
  | sosdDbInsertVals => .popLocked none true
  | sosdDbInsertValsRequeue snaps => .push snaps

/-! ## The steps -/

/-- **Where a thread is** in an operation, or behind its last one. -/
inductive PipePc (α : Type) where
  | returned
  | pushLock (xs : List α)
  | pushing (xs : List α)
  | enqueueLock (x : α)
  | enqueuing (x : α)
  | counting (n : ℕ)
  | popFirst
  | subtractLock (n : ℕ)
  | depthLock (limit : Option ℕ) (eager : Bool)
  | depthTest (limit : Option ℕ) (eager : Bool)
  | popping (got left : ℕ) (eager : Bool)
  | subtracting (n : ℕ)
  | unlocking

/-- **What the threads share**: the pipe, where a word that is no item is `none`,
with its count and its lock. What was meant to be enqueued, what was popped,
and how often `SOSD_cloud_enqueue` has pushed is kept for the statements. -/
structure SharedPipe (ι α : Type) where
  items : List (Option α)
  elemCount : ℤ
  syncLock : LockState ι
  meant : List α
  popped : List (Option α)
  enqueued : ℕ

/-- A thread: where it is, and what it will do. -/
structure PipeThread (α : Type) where
  pc : PipePc α
  sites : List (PipeSite α)

namespace PipePc

variable {α : Type}

/-- The thread has the lock. -/
def Holds : PipePc α → Prop
  | pushing _ => True
  | enqueuing _ => True
  | counting _ => True
  | depthTest _ _ => True
  | popping _ _ _ => True
  | subtracting _ => True
  | unlocking => True
  | _ => False

/-- What it has popped and not yet subtracted. -/
def pending : PipePc α → ℕ
  | subtractLock n => n
  | popping got _ _ => got
  | subtracting n => n
  | _ => 0

/-- What it has pushed and not yet added. -/
def owed : PipePc α → ℕ
  | counting n => n
  | _ => 0

/-- `SOSD_cloud_enqueue` is about to push. -/
def Enqueues : PipePc α → Prop
  | enqueuing _ => True
  | _ => False

instance (pc : PipePc α) : Decidable pc.Enqueues := by
  cases pc <;> unfold Enqueues <;> infer_instance

end PipePc

/-- Where an operation begins. `SOSD_cloud_enqueue` does nothing for a message of
no length, or once a shutdown is underway. -/
def PipeOp.entry {α : Type} : PipeOp α → PipePc α
  | push xs => .pushLock xs
  | cloudEnqueue shutdownUnderway len x =>
      if shutdownUnderway = true ∨ len = 0 then .returned else .enqueueLock x
  | popOne => .popFirst
  | popLocked limit eager => .depthLock limit eager

/-- `sizeof(SOS_buffer *)`. -/
def sizeofPtr : ℕ := 8

namespace SharedPipe

variable {ι α : Type} [DecidableEq ι] (i : ι) (s : SharedPipe ι α)

/-- Taking the lock. -/
def lockPipe (pc : PipePc α) : Option (SharedPipe ι α × PipePc α) :=
  (s.syncLock.acquire i).map fun syncLock => ({ s with syncLock }, pc)

/-- `pipe_push` of what is meant, and of what lies behind it. -/
def pushAll (xs : List α) (strays : ℕ) : SharedPipe ι α :=
  { s with
    items := s.items ++ xs.map some ++ List.replicate strays none
    meant := s.meant ++ xs }

/-- Taking the first elements out. -/
def take (n : ℕ) : SharedPipe ι α :=
  { s with items := s.items.drop n, popped := s.popped ++ s.items.take n }

/-- How many a consumer asks for. -/
def depth (limit : Option ℕ) : ℤ :=
  match limit with
  | none => s.elemCount
  | some most => min s.elemCount most

/-- **The next step of an operation.** A pop blocks while the pipe is empty. -/
def opStep : PipePc α → Option (SharedPipe ι α × PipePc α)
  | .returned => none
  | .pushLock xs => s.lockPipe i (.pushing xs)
  | .pushing xs => some (s.pushAll xs 0, .counting xs.length)
  | .enqueueLock x => s.lockPipe i (.enqueuing x)
  | .enqueuing x =>
      some ({ s.pushAll [x] (sizeofPtr - 1) with enqueued := s.enqueued + 1 }, .counting 1)
  | .counting n => some ({ s with elemCount := s.elemCount + n }, .unlocking)
  | .popFirst => if s.items = [] then none else some (s.take 1, .subtractLock 1)
  | .subtractLock n => s.lockPipe i (.subtracting n)
  | .depthLock limit eager => s.lockPipe i (.depthTest limit eager)
  | .depthTest limit eager =>
      some (s, if 0 < s.depth limit then .popping 0 (s.depth limit).toNat eager else .unlocking)
  | .popping got left eager =>
      if s.items = [] then none
      else
        let n := min left s.items.length
        some (s.take n,
          if eager = true ∨ left = n then .subtracting (got + n)
          else .popping (got + n) (left - n) eager)
  | .subtracting n => some ({ s with elemCount := s.elemCount - n }, .unlocking)
  | .unlocking => some ({ s with syncLock := s.syncLock.release i }, .returned)

end SharedPipe

variable {ι α : Type} [DecidableEq ι]

/-- **A turn of a thread**: it goes on with its operation, or begins the next. -/
def pipeAct (i : ι) (s : SharedPipe ι α) (t : PipeThread α) :
    Option (SharedPipe ι α × PipeThread α) :=
  match t.pc with
  | .returned =>
      match t.sites with
      | [] => none
      | site :: rest => some (s, ⟨site.op.entry, rest⟩)
  | pc => (s.opStep i pc).map fun r => (r.1, ⟨r.2, t.sites⟩)

/-- The pipe with its threads. -/
abbrev PipeThreads (ι α : Type) := Config ι (SharedPipe ι α) (PipeThread α)

namespace PipeThreads

/-- `SOS_pipe_init`, and nobody at the pipe. -/
def start (sites : ι → List (PipeSite α)) : PipeThreads ι α :=
  ⟨⟨[], 0, .unheld, [], [], 0⟩, fun i => ⟨.returned, sites i⟩⟩

variable [Fintype ι]

/-- What has been popped and not yet subtracted, by all. -/
def pending (s : PipeThreads ι α) : ℕ := total (fun _ t => t.pc.pending) s.thread

/-- What has been pushed and not yet added, by all. -/
def owed (s : PipeThreads ι α) : ℕ := total (fun _ t => t.pc.owed) s.thread

/-- **The count is right**: it is what is in the pipe, and what was popped and not
yet subtracted. What is popped was meant to be enqueued, each once. -/
structure Right (s : PipeThreads ι α) : Prop where
  count : s.shared.elemCount = s.shared.items.length + s.pending
  nonneg : 0 ≤ s.shared.elemCount
  once : s.shared.popped ++ s.shared.items = s.shared.meant.map some

/-- **The turn is no push of `SOSD_cloud_enqueue`.** -/
def KeepsToItems (s : PipeThreads ι α) (i : ι) : Prop := ¬ (s.thread i).pc.Enqueues

instance (s : PipeThreads ι α) (i : ι) : Decidable (s.KeepsToItems i) := by
  unfold KeepsToItems
  infer_instance

/-! ## The invariant -/

/-- **What every turn keeps**: the count, and seven words for each message that
`SOSD_cloud_enqueue` has pushed. -/
structure CountInv (s : PipeThreads ι α) : Prop where
  owned : s.shared.syncLock.Owned fun i => (s.thread i).pc.Holds
  count : s.shared.elemCount + (sizeofPtr - 1 : ℕ) * s.shared.enqueued + s.owed =
    s.shared.items.length + s.pending
  meant : (s.shared.popped ++ s.shared.items).filterMap id = s.shared.meant
  strays : (s.shared.popped ++ s.shared.items).countP Option.isNone =
    (sizeofPtr - 1) * s.shared.enqueued

variable {s s' : PipeThreads ι α} {i : ι}

omit [DecidableEq ι] in
theorem countInv_start (sites : ι → List (PipeSite α)) : CountInv (start sites) where
  owned := LockState.owned_unheld (P := fun t : PipeThread α => t.pc.Holds) fun _ => id
  count := by
    have hpending : (start sites).pending = 0 := total_eq_zero fun _ => rfl
    have howed : (start sites).owed = 0 := total_eq_zero fun _ => rfl
    rw [hpending, howed]
    rfl
  meant := rfl
  strays := rfl

/-- **A turn that keeps the balance** between the pipe, the count and what the
threads have in hand. -/
theorem CountInv.move (h : CountInv s) {shared : SharedPipe ι α} {t : PipeThread α} {pc : PipePc α}
    (hpc : (s.thread i).pc = pc)
    (howned : shared.syncLock.Owned fun j => (Function.update s.thread i t j).pc.Holds)
    (hbalance : shared.elemCount + (sizeofPtr - 1 : ℕ) * shared.enqueued + t.pc.owed +
        s.shared.items.length + pc.pending =
      s.shared.elemCount + (sizeofPtr - 1 : ℕ) * s.shared.enqueued + pc.owed +
        shared.items.length + t.pc.pending)
    (hmeant : (shared.popped ++ shared.items).filterMap id = shared.meant)
    (hstrays : (shared.popped ++ shared.items).countP Option.isNone =
      (sizeofPtr - 1) * shared.enqueued) :
    CountInv ⟨shared, Function.update s.thread i t⟩ := by
  subst hpc
  refine ⟨howned, ?_, hmeant, hstrays⟩
  have hpending := total_update (fun _ (t : PipeThread α) => t.pc.pending) s.thread i t
  have howed := total_update (fun _ (t : PipeThread α) => t.pc.owed) s.thread i t
  have hcount := h.count
  unfold PipeThreads.pending PipeThreads.owed at hcount ⊢
  show shared.elemCount + (sizeofPtr - 1 : ℕ) * shared.enqueued +
    (total _ (Function.update s.thread i t) : ℕ) =
      shared.items.length + (total _ (Function.update s.thread i t) : ℕ)
  omega

/-- The lock stays with whom it is. -/
theorem CountInv.stays (h : CountInv s) {t : PipeThread α} {pc : PipePc α}
    (hpc : (s.thread i).pc = pc) (hholds : t.pc.Holds ↔ pc.Holds) :
    s.shared.syncLock.Owned fun j => (Function.update s.thread i t j).pc.Holds := by
  subst hpc
  exact h.owned.other (P := fun t : PipeThread α => t.pc.Holds) hholds

/-! ### The turns -/

omit [Fintype ι] in
/-- A thread that is in an operation goes on with it. -/
theorem pipeAct_of_ne {shared : SharedPipe ι α} {t : PipeThread α} (h : t.pc ≠ .returned) :
    pipeAct i shared t = (shared.opStep i t.pc).map fun r => (r.1, ⟨r.2, t.sites⟩) := by
  obtain ⟨pc, sites⟩ := t
  cases pc with
  | returned => exact absurd rfl h
  | _ => rfl

omit [Fintype ι] in
/-- **A turn** begins an operation, or is a step of the one the thread is in. -/
theorem pipeAct_eq_some {shared shared' : SharedPipe ι α} {t t' : PipeThread α}
    (h : pipeAct i shared t = some (shared', t')) :
    (t.pc = .returned ∧ shared' = shared ∧ ∃ site : PipeSite α, t'.pc = site.op.entry) ∨
    shared.opStep i t.pc = some (shared', t'.pc) := by
  by_cases hpc : t.pc = .returned
  · obtain ⟨pc, sites⟩ := t
    obtain rfl : pc = .returned := hpc
    cases sites with
    | nil => cases h
    | cons site rest =>
        cases h
        exact .inl ⟨rfl, rfl, site, rfl⟩
  · rw [pipeAct_of_ne hpc] at h
    obtain ⟨r, hr, heq⟩ := Option.map_eq_some_iff.mp h
    cases heq
    exact .inr hr

/-- **The lock is taken.** -/
theorem CountInv.lockPipe (h : CountInv s) {shared : SharedPipe ι α} {pc pc' : PipePc α}
    {t : PipeThread α} (hpc : (s.thread i).pc = pc)
    (hstep : s.shared.lockPipe i pc' = some (shared, t.pc)) (hholds : pc'.Holds)
    (hpending : pc'.pending = pc.pending) (howed : pc'.owed = pc.owed) :
    CountInv ⟨shared, Function.update s.thread i t⟩ := by
  obtain ⟨syncLock, hlock, heq⟩ := Option.map_eq_some_iff.mp hstep
  obtain ⟨rfl, rfl⟩ := Prod.mk.inj heq
  refine h.move hpc ?_ ?_ h.meant h.strays
  · exact h.owned.acquire (P := fun t : PipeThread α => t.pc.Holds) hlock hholds
  · rw [hpending, howed]

omit [DecidableEq ι] [Fintype ι] in
/-- Taking elements out of the pipe loses none. -/
theorem popped_take (shared : SharedPipe ι α) (n : ℕ) :
    (shared.take n).popped ++ (shared.take n).items = shared.popped ++ shared.items := by
  show shared.popped ++ shared.items.take n ++ shared.items.drop n = _
  rw [List.append_assoc, List.take_append_drop]

/-- **Elements are popped.** -/
theorem CountInv.take (h : CountInv s) {n : ℕ} (hn : n ≤ s.shared.items.length)
    {t : PipeThread α} {pc : PipePc α} (hpc : (s.thread i).pc = pc)
    (hholds : t.pc.Holds ↔ pc.Holds) (hpending : t.pc.pending = pc.pending + n)
    (howed : t.pc.owed = pc.owed) :
    CountInv ⟨s.shared.take n, Function.update s.thread i t⟩ := by
  have hlen : (s.shared.take n).items.length + n = s.shared.items.length := by
    show (s.shared.items.drop n).length + n = _
    rw [List.length_drop]
    omega
  refine h.move hpc (h.stays hpc hholds) ?_ ?_ ?_
  · show s.shared.elemCount + (sizeofPtr - 1 : ℕ) * s.shared.enqueued + t.pc.owed +
        s.shared.items.length + pc.pending = _
    rw [hpending, howed, ← hlen]
    push_cast
    ring
  · rw [popped_take]
    exact h.meant
  · rw [popped_take]
    exact h.strays

/-- **Elements are pushed**, and words that are none behind them. -/
theorem CountInv.pushAll (h : CountInv s) (xs : List α) (enqueues : ℕ) {t : PipeThread α}
    {pc : PipePc α} (hpc : (s.thread i).pc = pc) (hholds : t.pc.Holds ↔ pc.Holds)
    (hpending : t.pc.pending = pc.pending) (howed : t.pc.owed = pc.owed + xs.length) :
    CountInv ⟨{ s.shared.pushAll xs ((sizeofPtr - 1) * enqueues) with
      enqueued := s.shared.enqueued + enqueues }, Function.update s.thread i t⟩ := by
  refine h.move hpc (h.stays hpc hholds) ?_ ?_ ?_
  · show s.shared.elemCount + (sizeofPtr - 1 : ℕ) * (s.shared.enqueued + enqueues : ℕ) + t.pc.owed +
        s.shared.items.length + pc.pending = s.shared.elemCount + _ + pc.owed +
        (s.shared.items ++ xs.map some ++ List.replicate _ none).length + t.pc.pending
    rw [hpending, howed]
    simp only [List.length_append, List.length_map, List.length_replicate]
    push_cast
    ring
  · show (s.shared.popped ++ (s.shared.items ++ xs.map some ++ List.replicate _ none)).filterMap id =
      s.shared.meant ++ xs
    rw [← List.append_assoc, ← List.append_assoc, List.filterMap_append, List.filterMap_append,
      h.meant]
    simp
  · show (s.shared.popped ++ (s.shared.items ++ xs.map some ++ List.replicate _ none)).countP
      Option.isNone = (sizeofPtr - 1) * (s.shared.enqueued + enqueues)
    rw [← List.append_assoc, ← List.append_assoc, List.countP_append, List.countP_append, h.strays,
      Nat.mul_add]
    simp [List.countP_map, List.countP_replicate]

/-- **The count is adjusted**, by what the thread has pushed or popped. -/
theorem CountInv.adjust (h : CountInv s) (amount : ℤ) {t : PipeThread α} {pc : PipePc α}
    (hpc : (s.thread i).pc = pc) (hholds : t.pc.Holds ↔ pc.Holds)
    (hamount : amount + t.pc.owed + pc.pending = pc.owed + t.pc.pending) :
    CountInv ⟨{ s.shared with elemCount := s.shared.elemCount + amount },
      Function.update s.thread i t⟩ := by
  refine h.move hpc (h.stays hpc hholds) ?_ h.meant h.strays
  show s.shared.elemCount + amount + (sizeofPtr - 1 : ℕ) * s.shared.enqueued + t.pc.owed +
      s.shared.items.length + pc.pending =
    s.shared.elemCount + (sizeofPtr - 1 : ℕ) * s.shared.enqueued + pc.owed +
      s.shared.items.length + t.pc.pending
  omega

/-- **A step of an operation.** -/
theorem CountInv.opStep (h : CountInv s) {shared : SharedPipe ι α} {t : PipeThread α}
    (hstep : s.shared.opStep i (s.thread i).pc = some (shared, t.pc)) :
    CountInv ⟨shared, Function.update s.thread i t⟩ := by
  obtain ⟨pc', sites⟩ := t
  cases hpc : (s.thread i).pc with
  | returned =>
      rw [hpc] at hstep
      cases hstep
  | pushLock xs =>
      rw [hpc] at hstep
      exact h.lockPipe hpc hstep trivial rfl rfl
  | pushing xs =>
      rw [hpc] at hstep
      cases hstep
      -- no word behind the items, as no message of `SOSD_cloud_enqueue`
      exact h.pushAll xs 0 hpc Iff.rfl rfl (Nat.zero_add _).symm
  | enqueueLock x =>
      rw [hpc] at hstep
      exact h.lockPipe hpc hstep trivial rfl rfl
  | enqueuing x =>
      rw [hpc] at hstep
      cases hstep
      exact h.pushAll [x] 1 hpc Iff.rfl rfl rfl
  | counting n =>
      rw [hpc] at hstep
      cases hstep
      refine h.adjust n hpc Iff.rfl ?_
      simp only [PipePc.owed, PipePc.pending]
      omega
  | popFirst =>
      rw [hpc] at hstep
      obtain ⟨hsome, heq⟩ := Option.ite_none_left_eq_some.mp hstep
      cases heq
      exact h.take (List.length_pos_iff.mpr hsome) hpc Iff.rfl rfl rfl
  | subtractLock n =>
      rw [hpc] at hstep
      exact h.lockPipe hpc hstep trivial rfl rfl
  | depthLock limit eager =>
      rw [hpc] at hstep
      exact h.lockPipe hpc hstep trivial rfl rfl
  | depthTest limit eager =>
      rw [hpc] at hstep
      obtain ⟨rfl, rfl⟩ := Prod.mk.inj (Option.some.inj hstep)
      -- as an adjustment by nothing
      rw [show s.shared = { s.shared with elemCount := s.shared.elemCount + 0 } by
        rw [Int.add_zero]]
      refine h.adjust 0 hpc ?_ ?_
      · dsimp only
        split <;> exact Iff.rfl
      · dsimp only
        split <;> rfl
  | popping got left eager =>
      rw [hpc] at hstep
      obtain ⟨-, heq⟩ := Option.ite_none_left_eq_some.mp hstep
      obtain ⟨rfl, rfl⟩ := Prod.mk.inj (Option.some.inj heq)
      refine h.take (Nat.min_le_right _ _) hpc ?_ ?_ ?_
      · dsimp only
        split <;> exact Iff.rfl
      · dsimp only
        split <;> rfl
      · dsimp only
        split <;> rfl
  | subtracting n =>
      rw [hpc] at hstep
      cases hstep
      refine h.adjust (-n) hpc Iff.rfl ?_
      simp only [PipePc.owed, PipePc.pending]
      omega
  | unlocking =>
      rw [hpc] at hstep
      cases hstep
      refine h.move hpc ?_ rfl h.meant h.strays
      refine h.owned.release (P := fun t : PipeThread α => t.pc.Holds) ?_ id
      rw [hpc]
      trivial

/-- **Every turn** keeps the invariant. -/
theorem CountInv.step (s : PipeThreads ι α) (i : ι) (s' : PipeThreads ι α) (h : CountInv s)
    (hstep : step pipeAct s i = some s') : CountInv s' := by
  obtain ⟨shared, t, hact, rfl⟩ := step_eq_some hstep
  rcases pipeAct_eq_some hact with ⟨hpc, rfl, site, hentry⟩ | hop
  -- an operation begins without the lock, and with nothing in hand
  · have hempty (op : PipeOp α) : ¬ op.entry.Holds ∧ op.entry.pending = 0 ∧ op.entry.owed = 0 := by
      cases op with
      | cloudEnqueue shutdownUnderway len x =>
          rw [PipeOp.entry]
          split <;> exact ⟨id, rfl, rfl⟩
      | _ => exact ⟨id, rfl, rfl⟩
    obtain ⟨hholds, hpending, howed⟩ := hempty site.op
    refine h.move hpc (h.stays hpc (iff_of_false ?_ id)) ?_ h.meant h.strays
    · rw [hentry]
      exact hholds
    · rw [hentry, hpending, howed]
      rfl
  · exact h.opStep hop

/-- Elements without a stray word are items. -/
theorem eq_map_some {l : List (Option α)} (h : l.countP Option.isNone = 0) :
    l = (l.filterMap id).map some := by
  induction l with
  | nil => rfl
  | cons e rest ih =>
      cases e with
      | none => simp at h
      | some x =>
          rw [List.countP_cons_of_neg (by simp)] at h
          show some x :: rest = some x :: (rest.filterMap id).map some
          rw [← ih h]

omit [DecidableEq ι] in
/-- **When the count is right**, while nobody holds the lock. -/
theorem CountInv.right_iff (h : CountInv s) (hfree : s.shared.syncLock.holder = none) :
    s.Right ↔ s.shared.enqueued = 0 := by
  have howed : s.owed = 0 := by
    refine total_eq_zero fun i => ?_
    have hnot : ¬ (s.thread i).pc.Holds := fun hholds => by
      have hholder := (h.owned.holder i).mpr hholds
      rw [hfree] at hholder
      cases hholder
    cases hpc : (s.thread i).pc with
    | counting n =>
        rw [hpc] at hnot
        exact absurd trivial hnot
    | _ => rfl
  have hcount := h.count
  rw [howed] at hcount
  have hsize : ((sizeofPtr - 1 : ℕ) : ℤ) = 7 := rfl
  rw [hsize] at hcount
  constructor
  · intro hright
    have hsame := hright.count
    omega
  · intro hzero
    have hstrays := h.strays
    rw [hzero, Nat.mul_zero] at hstrays
    refine ⟨?_, ?_, ?_⟩
    · rw [hzero] at hcount
      omega
    · rw [hzero] at hcount
      omega
    · rw [eq_map_some hstrays, h.meant]

/-! ## The pushes of `SOSD_cloud_enqueue` -/

omit [Fintype ι] in
theorem enqueued_opStep {shared shared' : SharedPipe ι α} {pc pc' : PipePc α}
    (h : shared.opStep i pc = some (shared', pc')) :
    (¬ pc.Enqueues → shared'.enqueued = shared.enqueued) ∧
      (pc.Enqueues → shared'.enqueued = shared.enqueued + 1) := by
  have hlock {next : PipePc α} (h : shared.lockPipe i next = some (shared', pc')) :
      shared'.enqueued = shared.enqueued := by
    obtain ⟨syncLock, -, heq⟩ := Option.map_eq_some_iff.mp h
    cases heq
    rfl
  cases pc with
  | returned => cases h
  | pushLock xs => exact ⟨fun _ => hlock h, fun hpush => hpush.elim⟩
  | enqueueLock x => exact ⟨fun _ => hlock h, fun hpush => hpush.elim⟩
  | subtractLock n => exact ⟨fun _ => hlock h, fun hpush => hpush.elim⟩
  | depthLock limit eager => exact ⟨fun _ => hlock h, fun hpush => hpush.elim⟩
  | enqueuing x =>
      cases h
      exact ⟨fun hpush => absurd trivial hpush, fun _ => rfl⟩
  | popFirst =>
      obtain ⟨-, heq⟩ := Option.ite_none_left_eq_some.mp h
      cases heq
      exact ⟨fun _ => rfl, fun hpush => hpush.elim⟩
  | popping got left eager =>
      obtain ⟨-, heq⟩ := Option.ite_none_left_eq_some.mp h
      cases heq
      exact ⟨fun _ => rfl, fun hpush => hpush.elim⟩
  | _ =>
      cases h
      exact ⟨fun _ => rfl, fun hpush => hpush.elim⟩

omit [Fintype ι] in
/-- **A turn counts as a push** exactly if it is one. -/
theorem enqueued_step (h : step pipeAct s i = some s') :
    (s.KeepsToItems i → s'.shared.enqueued = s.shared.enqueued) ∧
      (¬ s.KeepsToItems i → s.shared.enqueued < s'.shared.enqueued) := by
  obtain ⟨shared, t, hact, rfl⟩ := step_eq_some h
  rcases pipeAct_eq_some hact with ⟨hpc, rfl, -⟩ | hop
  · refine ⟨fun _ => rfl, fun hpush => absurd ?_ hpush⟩
    rw [KeepsToItems, hpc]
    exact id
  · obtain ⟨hkeeps, hpushes⟩ := enqueued_opStep hop
    refine ⟨hkeeps, ?_⟩
    intro hpush
    show s.shared.enqueued < shared.enqueued
    rw [hpushes (not_not.mp hpush)]
    exact Nat.lt_succ_self _

omit [Fintype ι] in
/-- None has been counted exactly if there was none. -/
theorem enqueued_eq_zero_iff {sites : ι → List (PipeSite α)} {schedule : List ι}
    (hrun : run (step pipeAct) (start sites) schedule = some s) :
    s.shared.enqueued = 0 ↔ Along (step pipeAct) KeepsToItems (start sites) schedule :=
  (along_iff_of_count (fun s : PipeThreads ι α => s.shared.enqueued)
    (fun _ _ _ hok hstep => (enqueued_step hstep).1 hok)
    (fun _ _ _ hbad hstep => (enqueued_step hstep).2 hbad) hrun).symm

end PipeThreads

open PipeThreads

/-- **The count of a pipe is right, in every state in which nobody holds its lock,
exactly if `SOSD_cloud_enqueue` has not pushed into it** on the way there. -/
theorem queue_counters_iff [Fintype ι] {sites : ι → List (PipeSite α)} {schedule : List ι}
    {s : PipeThreads ι α} (hrun : run (step pipeAct) (start sites) schedule = some s)
    (hfree : s.shared.syncLock.holder = none) :
    s.Right ↔ Along (step pipeAct) KeepsToItems (start sites) schedule := by
  have hinv := run_preserves CountInv.step (countInv_start sites) hrun
  exact (hinv.right_iff hfree).trans (enqueued_eq_zero_iff hrun)

/-- A producer and a consumer that pops before it takes the lock. -/
def handedOnSites (i : Fin 2) : List (PipeSite ℕ) :=
  if i = 0 then [.sosdListenLoop 7] else [.sosdThreadLocalSync]

/-- The consumer has popped the message and not yet counted. -/
def handedOn : List (Fin 2) := [0, 0, 0, 0, 0, 1, 1]

theorem queue_counters_handed_on :
    ∃ s : PipeThreads (Fin 2) ℕ, run (step pipeAct) (start handedOnSites) handedOn = some s ∧
      s.shared.elemCount = 1 ∧ s.shared.items = [] ∧ s.Right := by
  have hruns : ((run (step pipeAct) (start handedOnSites) handedOn).map fun s =>
      (s.shared.syncLock.holder, s.shared.elemCount, s.shared.items)) = some (none, 1, []) := by
    decide
  obtain ⟨s, hs, heq⟩ := Option.map_eq_some_iff.mp hruns
  obtain ⟨hfree, hrest⟩ := Prod.mk.inj heq
  obtain ⟨hcount, hitems⟩ := Prod.mk.inj hrest
  have halong : Along (step pipeAct) KeepsToItems (start handedOnSites) handedOn := by decide
  exact ⟨s, hs, hcount, hitems, (queue_counters_iff hs hfree).mpr halong⟩

/-- One message for `SOSD_cloud_enqueue`. -/
def enqueueSites (_ : Fin 1) : List (PipeSite ℕ) := [.sosdCloudEnqueue false 28 7]

/-- **One enqueue puts the count wrong**: it is one, and eight words are in the
pipe. -/
theorem not_queue_counters : ¬ ∀ (schedule : List (Fin 1)) (s : PipeThreads (Fin 1) ℕ),
    run (step pipeAct) (start enqueueSites) schedule = some s →
      s.shared.syncLock.holder = none → s.Right := by
  intro hall
  have hruns : ((run (step pipeAct) (start enqueueSites) [0, 0, 0, 0, 0]).map fun s =>
      (s.shared.syncLock.holder, s.shared.popped ++ s.shared.items, s.shared.meant)) =
      some (none, [some 7, none, none, none, none, none, none, none], [7]) := by decide
  obtain ⟨s, hs, heq⟩ := Option.map_eq_some_iff.mp hruns
  obtain ⟨hfree, hrest⟩ := Prod.mk.inj heq
  obtain ⟨hitems, hmeant⟩ := Prod.mk.inj hrest
  have honce := (hall _ s hs hfree).once
  rw [hitems, hmeant] at honce
  cases honce

end SosFlow
