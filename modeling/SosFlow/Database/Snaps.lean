import SosFlow.Database.Tasks

/-!
# Snapshots on their way into the database

A task for snapshots takes whatever is in the queue, also what belongs to
later tasks, and those find nothing. So tasks and snapshots do not come in
pairs. What holds is that the handler pushes its snapshots before its task:
as long as there is something in the queue, a task that will take it is
outstanding.
-/

namespace SosFlow

open Trace

namespace Database

/-- **No snapshot is stranded or inserted twice.** -/
structure SnapsInOrder (s : Database) : Prop where
  awaited : s.daemon.queue.items ≠ [] → .valSnaps ∈ s.pushing ∨ .valSnaps ∈ s.tasks.items ∨
    .valSnaps ∈ s.batch
  order : s.pushed = s.inserted ++ s.grabbed ++ s.daemon.queue.items
  rows : s.tblVals = s.inserted.map SosValSnap.row
  batch : s.batch.length ≤ batchMax

/-- **What holds between any two steps.** -/
structure SnapsInv (s : Database) : Prop where
  hasQueue : s.daemon.snapQueue.isSome
  counted : s.daemon.queue.Counted
  awaited : s.daemon.queue.items ≠ [] → .valSnaps ∈ s.outstanding
  order : s.pushed = s.inserted ++ s.grabbed ++ s.daemon.queue.items
  rows : s.tblVals = s.inserted.map SosValSnap.row
  batch : s.batch.length ≤ batchMax

namespace SnapsInv

variable {s s' : Database}

theorem start (config : SosConfig) (dbUpdateFrame : Bool) :
    SnapsInv (.start config dbUpdateFrame) where
  hasQueue := rfl
  counted := SosPipe.counted_empty
  awaited h := absurd rfl h
  order := rfl
  rows := rfl
  batch := Nat.zero_le _

/-- A step that leaves the snapshots alone and forgets no task for them. -/
theorem frame (h : SnapsInv s) (hqueue : s'.daemon.snapQueue = s.daemon.snapQueue)
    (hgrabbed : s'.grabbed = s.grabbed) (hrows : s'.tblVals = s.tblVals)
    (hpushed : s'.pushed = s.pushed) (hinserted : s'.inserted = s.inserted)
    (hbatch : s'.batch.length ≤ batchMax)
    (hawaited : .valSnaps ∈ s.outstanding → .valSnaps ∈ s'.outstanding) : SnapsInv s' := by
  have hsame : s'.daemon.queue = s.daemon.queue := by rw [Daemon.queue, Daemon.queue, hqueue]
  refine ⟨hqueue ▸ h.hasQueue, hsame ▸ h.counted, fun hne => ?_, ?_, ?_, hbatch⟩
  · rw [hsame] at hne
    exact hawaited (h.awaited hne)
  · rw [hpushed, hinserted, hgrabbed, hsame]
    exact h.order
  · rw [hrows, hinserted]
    exact h.rows

/-- **A handler pushes its snapshots**, and its task is about to follow. -/
theorem valSnaps (h : SnapsInv s) {g : SosGuid} {snaps : List SosValSnap} {d : Daemon}
    (hd : s.daemon.Ingested g snaps d) :
    SnapsInv { s with
      daemon := d
      pushing := s.pushing ++ [.valSnaps]
      pushed := s.pushed ++ s.daemon.pushes g snaps } := by
  have hqueue := hd.queue h.hasQueue
  have hitems : d.queue = s.daemon.queue.pushAll (s.daemon.pushes g snaps) := by
    rw [Daemon.queue, hqueue, Option.getD_some]
  refine ⟨Option.isSome_iff_exists.mpr ⟨_, hqueue⟩, ?_, fun _ => ?_, ?_, h.rows, h.batch⟩
  · change d.queue.Counted
    rw [hitems]
    exact h.counted.pushAll _
  · exact List.mem_append_left _ (List.mem_append_left _ (List.mem_append_right _
      (List.mem_singleton_self _)))
  · change s.pushed ++ _ = s.inserted ++ s.grabbed ++ d.queue.items
    rw [hitems, h.order]
    exact List.append_assoc _ _ _

/-- **A task takes them all.** -/
theorem grab (h : SnapsInv s) (hgrabbed : s.grabbed = []) : SnapsInv s.grab := by
  rw [grab_eq h.counted h.hasQueue hgrabbed]
  refine ⟨rfl, SosPipe.counted_empty, fun hne => absurd rfl hne, ?_, h.rows, h.batch⟩
  have horder := h.order
  rw [hgrabbed, List.append_nil] at horder
  exact horder.trans (List.append_nil _).symm

/-- **What it took is inserted.** -/
theorem insertVals (h : SnapsInv s) : SnapsInv s.insertVals := by
  have horder : s.pushed = s.inserted ++ s.grabbed ++ [] ++ s.daemon.queue.items := by
    rw [List.append_nil]
    exact h.order
  have hrows : s.tblVals ++ s.grabbed.map SosValSnap.row =
      (s.inserted ++ s.grabbed).map SosValSnap.row := by
    rw [List.map_append, ← h.rows]
  unfold Database.insertVals
  dsimp only
  split
  · exact ⟨h.hasQueue, h.counted, h.awaited, horder, hrows, h.batch⟩
  · exact ⟨h.hasQueue, h.counted, h.awaited, horder, hrows, h.batch⟩

/-- **The next task of a batch.** Only one for snapshots takes any. -/
theorem runTask (h : SnapsInv s) (hgrabbed : s.grabbed = []) {t : DbTask} {rest : List DbTask}
    (hbatch : s.batch = t :: rest) : SnapsInv ({ s with batch := rest }.runTask t) := by
  have hperm := outstanding_runTask_perm hbatch
  have hrest : rest.length ≤ batchMax := by
    have hle := h.batch
    rw [hbatch, List.length_cons] at hle
    omega
  have hmem : t ≠ .valSnaps → .valSnaps ∈ s.outstanding →
      .valSnaps ∈ ({ s with batch := rest }.runTask t).outstanding := by
    intro hne hmem
    rcases List.mem_cons.mp (hperm.mem_iff.mp hmem) with heq | hmem
    · exact absurd heq.symm hne
    · exact hmem
  cases t with
  | announce g => exact h.frame rfl rfl rfl rfl rfl hrest (hmem fun heq => (by cases heq))
  | publish g => exact h.frame rfl rfl rfl rfl rfl hrest (hmem fun heq => (by cases heq))
  | valSnaps =>
      have hsame : ({ s with batch := rest } : Database).runTask .valSnaps =
          { s.grab with batch := rest } := by
        unfold Database.runTask Database.grab
        dsimp only
        split <;> rfl
      have hgrab := h.grab hgrabbed
      rw [hsame]
      refine ⟨hgrab.hasQueue, hgrab.counted, fun hne => ?_, hgrab.order, hgrab.rows, hrest⟩
      refine absurd ?_ hne
      change s.grab.daemon.queue.items = []
      rw [grab_eq h.counted h.hasQueue hgrabbed]
      rfl

/-- **Every step** keeps the invariant. -/
theorem step (s : Database) (step : DbStep) (s' : Database) (h : SnapsInv s)
    (hstep : dbStep s step = some s') : SnapsInv s' := by
  cases moves hstep with
  | announce m =>
      refine h.frame rfl rfl rfl rfl rfl h.batch fun hmem => ?_
      simp only [outstanding, Database.announce, List.mem_append] at hmem ⊢
      tauto
  | @publish m d hd =>
      obtain ⟨pub, -, rfl⟩ := Option.map_eq_some_iff.mp hd
      exact h.frame rfl rfl rfl rfl rfl h.batch id
  | @flag g =>
      refine h.frame rfl rfl rfl rfl rfl h.batch fun hmem => ?_
      have hpushing : .valSnaps ∈ s.pushing → .valSnaps ∈ (s.flag g).pushing := by
        unfold Database.flag
        dsimp only
        split
        · exact List.mem_append_left _
        · exact id
      change .valSnaps ∈ (s.flag g).pushing ++ s.tasks.items ++ s.batch
      simp only [outstanding, List.mem_append] at hmem ⊢
      tauto
  | dropped => exact h
  | valSnaps hd => exact h.valSnaps hd
  | push ht => exact h.frame rfl rfl rfl rfl rfl h.batch (outstanding_push ht).mem_iff.mpr
  | pop hbatch =>
      refine h.frame rfl rfl rfl rfl rfl ?_ (outstanding_pop hbatch).mem_iff.mpr
      change (s.tasks.items.take _).length ≤ batchMax
      rw [List.length_take]
      have hmax : (batchMax : ℤ) = 256 := rfl
      have hmax' : batchMax = 256 := rfl
      omega
  | run hgrabbed hbatch => exact h.runTask hgrabbed hbatch
  | insert => exact h.insertVals

end SnapsInv

end Database

/-- **No snapshot is stranded or inserted twice**, in every state that a run
reaches. -/
theorem snaps_in_order {config : SosConfig} {dbUpdateFrame : Bool} {steps : List DbStep}
    {s : Database} (hrun : run dbStep (.start config dbUpdateFrame) steps = some s) :
    s.SnapsInOrder := by
  have hinv := run_preserves Database.SnapsInv.step (Database.SnapsInv.start _ _) hrun
  refine ⟨fun hne => ?_, hinv.order, hinv.rows, hinv.batch⟩
  have hmem := hinv.awaited hne
  simp only [Database.outstanding, List.mem_append] at hmem
  tauto

/-- Two handlers, of which the first one's task takes the snapshots of both. -/
def overtakenSteps : List DbStep :=
  [.announce (sosPubInit plainConfig 5 .empty 0).announceMsg, .push (.announce 5),
    .valSnaps 5 [default] fun _ => 0, .push .valSnaps, .valSnaps 5 [default] fun _ => 0, .pop, .run,
    .run, .insert, .push .valSnaps, .pop, .run]

theorem snaps_in_order_overtaken :
    ∃ s, run dbStep (.start plainConfig true) overtakenSteps = some s ∧ s.SnapsInOrder ∧
      s.inserted.length = 2 := by
  have hrun : ((run dbStep (.start plainConfig true) overtakenSteps).map fun s =>
      s.inserted.length) = some 2 := by decide
  obtain ⟨s, hs, hlen⟩ := Option.map_eq_some_iff.mp hrun
  exact ⟨s, hs, snaps_in_order hs, hlen⟩

end SosFlow
