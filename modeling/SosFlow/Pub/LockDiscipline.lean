import SosFlow.Pub.Publish
import SosFlow.Lib.Lock
import SosFlow.Lib.Interleave

/-!
# Who holds the lock of a pub

`SOS_pack`, `SOS_announce` and `SOS_publish` take `pub->lock` and give it
back, and a thread that calls them does not hold it. Two paths do not. A
value that does not pack makes `SOS_pack` return with the lock held, and
`SOS_val_snap_queue_to_buffer` gives the lock of its caller back when the
queue is empty, before the caller gives it back as well.

A step is what a call does between two operations on the lock, and the turns
of any number of threads interleave. What the messages say does not matter
here: a value in a pub that its type cannot read is read all the same, and a
message is sent or not.
-/

namespace SosFlow

open Trace Interleave Outcome

/-- **The arguments of `SOS_pack` and of `SOS_pack_related`**: those for a value,
or a type that is none. -/
inductive PackRequest where
  | value (a : PackArgs)
  | invalid

/-- The value packs: it is a number or a string. -/
def PackRequest.Packable : PackRequest → Prop
  | value a => a.val.type ≠ .bytes
  | invalid => False

instance (c : PackRequest) : Decidable c.Packable := by
  cases c <;> unfold PackRequest.Packable <;> infer_instance

/-- A call. -/
inductive PubCall where
  | pack (c : PackRequest)
  | announce
  | publish (send : Double)

/-- Who called `SOS_announce`. -/
inductive AnnounceCaller where
  | user
  | sosPublish (send : Double)

/-- **Where a thread is** in a call, or behind its last one. -/
inductive PubPc where
  | returned
  | packLock (c : PackRequest)
  | packBody (c : PackRequest)
  | packUnlock
  | announceTest (k : AnnounceCaller)
  | announceLock (k : AnnounceCaller)
  | announceBuild (k : AnnounceCaller)
  | announceUnlock (k : AnnounceCaller)
  | announceSend (k : AnnounceCaller)
  | publishTest (send : Double)
  | publishLock (send : Double)
  | publishBuild (send : Double)
  | publishSend
  | queueTest
  | queueUnlock
  | queueBuild
  | snapsSend
  | publishUnlock

namespace PubPc

/-- The thread has taken the lock and not given it back. -/
def Holds : PubPc → Prop
  | packBody _ => True
  | packUnlock => True
  | announceBuild _ => True
  | announceUnlock _ => True
  | publishBuild _ => True
  | publishSend => True
  | queueTest => True
  | queueUnlock => True
  | queueBuild => True
  | snapsSend => True
  | publishUnlock => True
  | _ => False

end PubPc

/-- **What the threads share**: the pub, its queue, if there is one, and its
lock. -/
structure LockedPub (ι : Type) where
  pub : SosPub
  queue : Option (SosPipe SosValSnap)
  lock : LockState ι

/-- **A thread**: where it is, and the calls it will make. -/
structure PubThread where
  pc : PubPc
  calls : List PubCall

/-- Where a call begins. -/
def PubCall.entry : PubCall → PubPc
  | pack c => .packLock c
  | announce => .announceTest .user
  | publish send => .publishTest send

/-- Where `SOS_announce` returns to. -/
def AnnounceCaller.next : AnnounceCaller → PubPc
  | user => .returned
  | sosPublish send => .publishLock send

namespace LockedPub

variable {ι : Type} [DecidableEq ι] (role : SosRole) (i : ι) (s : LockedPub ι)

/-- The thread takes the lock. -/
def lockPub (pc : PubPc) : Option (LockedPub ι × PubPc) :=
  (s.lock.acquire i).map fun lock => ({ s with lock }, pc)

/-- It gives the lock back. -/
def unlockPub (pc : PubPc) : Option (LockedPub ι × PubPc) :=
  some ({ s with lock := s.lock.release i }, pc)

/-- **`SOS_pack` with its lock held.** What is refused returns at once. Where
the value is read as an address that is none the process ends. -/
def packBody : PackRequest → Option (LockedPub ι × PubPc)
  | .invalid => some (s, .returned)
  | .value a =>
      match sosPackRelated role s.pub s.queue a with
      | .ok (pub, queue) => some ({ s with pub, queue }, .packUnlock)
      | .error .refused => some (s, .returned)
      | .error _ => none

/-- `SOS_val_snap_queue_to_buffer` tests the queue. -/
def queueTest : Option (LockedPub ι × PubPc) :=
  match s.queue with
  | none => none
  | some queue => some (s, if queue.elemCount < 1 then .queueUnlock else .queueBuild)

/-- It pops the snapshots and builds the message. -/
def queueBuild : Option (LockedPub ι × PubPc) :=
  some ({ s with queue := s.queue.map fun queue => (queue.pop queue.elemCount.toNat).2 },
    .snapsSend)

/-- **The next step of a call.** -/
def callStep : PubPc → Option (LockedPub ι × PubPc)
  | .returned => none
  | .packLock c => s.lockPub i (.packBody c)
  | .packBody c => s.packBody role c
  | .packUnlock => s.unlockPub i .returned
  | .announceTest k => some (s, if s.pub.announced then k.next else .announceLock k)
  | .announceLock k => s.lockPub i (.announceBuild k)
  | .announceBuild k => some ({ s with pub := s.pub.afterAnnounce }, .announceUnlock k)
  | .announceUnlock k => s.unlockPub i (.announceSend k)
  | .announceSend k => some (s, k.next)
  | .publishTest send =>
      some (s, if s.pub.announced then .publishLock send else .announceTest (.sosPublish send))
  | .publishLock send => s.lockPub i (.publishBuild send)
  | .publishBuild send => some ({ s with pub := s.pub.afterPublish send }, .publishSend)
  | .publishSend => some (s, .queueTest)
  | .queueTest => s.queueTest
  | .queueUnlock => s.unlockPub i .publishUnlock
  | .queueBuild => s.queueBuild
  | .snapsSend => some (s, .publishUnlock)
  | .publishUnlock => s.unlockPub i .returned

/-- The step keeps off the two paths on which the lock is not kept. -/
def OffPath : PubPc → Prop
  | .packBody c => c.Packable
  | .queueTest => ∀ queue ∈ s.queue, 1 ≤ queue.elemCount
  | _ => True

instance (pc : PubPc) : Decidable (s.OffPath pc) := by
  cases pc <;> unfold OffPath <;> infer_instance

end LockedPub

variable {ι : Type} [DecidableEq ι]

/-- **A turn of a thread**: it makes its next call, or goes on with the one it is
in. -/
def pubAct (role : SosRole) (i : ι) (s : LockedPub ι) (t : PubThread) :
    Option (LockedPub ι × PubThread) :=
  match t.pc with
  | .returned =>
      match t.calls with
      | [] => none
      | call :: rest => some (s, ⟨call.entry, rest⟩)
  | pc => (s.callStep role i pc).map fun r => (r.1, ⟨r.2, t.calls⟩)

/-- The pub with its threads. -/
abbrev PubThreads (ι : Type) := Config ι (LockedPub ι) PubThread

namespace PubThreads

/-- Nobody holds the lock, and nobody has made a call. -/
def start (pub : SosPub) (queue : Option (SosPipe SosValSnap)) (calls : ι → List PubCall) :
    PubThreads ι :=
  ⟨⟨pub, queue, .unheld⟩, fun i => ⟨.returned, calls i⟩⟩

/-- **The lock is kept**: nobody has given it back without holding it, and a
thread between two calls does not hold it. -/
structure LockKept (s : PubThreads ι) : Prop where
  proper : s.shared.lock.misused = false
  returned : ∀ i, (s.thread i).pc = .returned → s.shared.lock.holder ≠ some i

/-- **The turn keeps off the two paths**: what is packed is a number or a
string, and the queue that is tested is not empty. -/
def OffPath (s : PubThreads ι) (i : ι) : Prop := s.shared.OffPath (s.thread i).pc

instance (s : PubThreads ι) (i : ι) : Decidable (s.OffPath i) :=
  inferInstanceAs (Decidable (s.shared.OffPath (s.thread i).pc))

end PubThreads

/-- A call keeps off the two paths, by the pub it is made on. -/
def PubCall.OffPath (queue : Option (SosPipe SosValSnap)) : PubCall → Prop
  | pack c => c.Packable
  | announce => True
  | publish _ => ∀ q ∈ queue, 1 ≤ q.elemCount

/-! ## What a step does to the lock -/

namespace LockedPub

variable {role : SosRole} {i : ι} {s s' : LockedPub ι} {pc pc' : PubPc}

/-- **A step on the lock**: it is taken, or given back, or left alone. -/
inductive MovesLock (i : ι) (s s' : LockedPub ι) (pc pc' : PubPc) : Prop where
  | takes (lock : s.lock.acquire i = some s'.lock) (holds : pc'.Holds)
  | gives (lock : s'.lock = s.lock.release i) (held : pc.Holds) (holds : ¬ pc'.Holds)
  | leaves (lock : s'.lock = s.lock) (holds : pc'.Holds ↔ pc.Holds)

omit [DecidableEq ι] in
/-- Taking the lock changes nothing else. -/
theorem lockPub_eq_some (h : s.lockPub i pc = some (s', pc')) :
    pc' = pc ∧ ∃ lock, s.lock.acquire i = some lock ∧ s' = { s with lock } := by
  obtain ⟨lock, hlock, heq⟩ := Option.map_eq_some_iff.mp h
  obtain ⟨rfl, rfl⟩ := Prod.mk.inj heq
  exact ⟨rfl, lock, hlock, rfl⟩

theorem movesLock_lockPub (h : s.lockPub i pc = some (s', pc')) (hpc : pc.Holds) {pc₀ : PubPc} :
    MovesLock i s s' pc₀ pc' := by
  obtain ⟨rfl, lock, hlock, rfl⟩ := lockPub_eq_some h
  exact .takes hlock hpc

theorem movesLock_unlockPub (h : s.unlockPub i pc = some (s', pc')) (hpc : ¬ pc.Holds)
    {pc₀ : PubPc} (hheld : pc₀.Holds) : MovesLock i s s' pc₀ pc' := by
  cases h
  exact .gives rfl hheld hpc

omit [DecidableEq ι] in
/-- A value that does not pack is refused. -/
theorem packBody_refused {c : PackRequest} (hc : ¬ c.Packable) :
    s.packBody role c = some (s, .returned) := by
  cases c with
  | invalid => rfl
  | value a =>
      have hbytes : a.val.type = .bytes := not_not.mp hc
      have hrefused : sosPackRelated role s.pub s.queue a = .error .refused := by
        rw [sosPackRelated, sosPackSnapSituateInPub, if_pos hbytes]
        rfl
      rw [packBody, hrefused]

/-- No other value is. -/
theorem sosPackRelated_notRefused {pub : SosPub} {queue : Option (SosPipe SosValSnap)}
    {a : PackArgs} (ha : a.val.type ≠ .bytes) :
    Leaves (fun fault => fault ≠ .refused) (fun _ => True) (sosPackRelated role pub queue a) := by
  have hof {α : Type} (x : Option α) :
      Leaves (fun fault => fault ≠ PackFault.refused) (fun _ => True) (ofOption .badVal x) := by
    cases x with
    | none =>
        rw [ofOption, leaves_error]
        simp
    | some v => trivial
  have hsituate : Leaves (fun fault => fault ≠ .refused) (fun _ => True)
      (sosPackSnapSituateInPub pub a) := by
    rw [sosPackSnapSituateInPub, if_neg ha]
    exact (hof _).bind fun _ _ => trivial
  have hcache (pub : SosPub) (snap : SosValSnap) :
      Leaves (fun fault => fault ≠ .refused) (fun _ => True) (packIntoCache role pub snap) := by
    cases role with
    | client => trivial
    | daemon =>
        unfold packIntoCache
        cases sosPackSnapAddToPubCache pub snap with
        | ok pub' => trivial
        | error fault =>
            show PackFault.cache fault ≠ .refused
            simp
  refine hsituate.bind fun placed _ => ?_
  have hrenew (pub : SosPub) (snap : SosValSnap) : Leaves (fun fault => fault ≠ .refused)
      (fun _ => True) (sosPackSnapRenewPubData pub snap a.now) :=
    (hof _).bind fun _ _ => (hof _).bind fun _ _ => trivial
  refine (hrenew placed.1 placed.2).bind fun renewed _ => ?_
  exact (hcache _ _).bind fun _ _ => trivial

omit [DecidableEq ι] in
/-- **One that packs** goes on to give the lock back. -/
theorem packBody_packs {c : PackRequest} (hc : c.Packable)
    (h : s.packBody role c = some (s', pc')) : s'.lock = s.lock ∧ pc' = .packUnlock := by
  cases c with
  | invalid => exact hc.elim
  | value a =>
      rw [packBody] at h
      cases hpack : sosPackRelated role s.pub s.queue a with
      | ok r =>
          rw [hpack] at h
          cases h
          exact ⟨rfl, rfl⟩
      | error fault =>
          -- the other faults end the process, which takes no step then
          have hfault := (sosPackRelated_notRefused hc).of_error hpack
          rw [hpack] at h
          cases fault with
          | refused => exact absurd rfl hfault
          | badVal => cases h
          | cache fault => cases h

/-- **The spec of a step** that keeps off the two paths. -/
theorem movesLock_callStep (hpc : pc ≠ .queueUnlock) (hok : s.OffPath pc)
    (h : s.callStep role i pc = some (s', pc')) :
    MovesLock i s s' pc pc' ∧ pc' ≠ .queueUnlock := by
  have hnext (k : AnnounceCaller) : ¬ k.next.Holds ∧ k.next ≠ .queueUnlock := by
    cases k <;> exact ⟨id, by simp [AnnounceCaller.next]⟩
  cases pc with
  | returned => cases h
  | packLock c =>
      refine ⟨movesLock_lockPub h trivial, ?_⟩
      rw [(lockPub_eq_some h).1]
      simp
  | packBody c =>
      obtain ⟨hlock, rfl⟩ := packBody_packs hok h
      exact ⟨.leaves hlock Iff.rfl, by simp⟩
  | packUnlock =>
      refine ⟨movesLock_unlockPub h id trivial, ?_⟩
      cases h
      simp
  | announceTest k =>
      cases h
      split
      · exact ⟨.leaves rfl (iff_of_false (hnext k).1 id), (hnext k).2⟩
      · exact ⟨.leaves rfl Iff.rfl, by simp⟩
  | announceLock k =>
      refine ⟨movesLock_lockPub h trivial, ?_⟩
      rw [(lockPub_eq_some h).1]
      simp
  | announceBuild k =>
      cases h
      exact ⟨.leaves rfl Iff.rfl, by simp⟩
  | announceUnlock k =>
      refine ⟨movesLock_unlockPub h id trivial, ?_⟩
      cases h
      simp
  | announceSend k =>
      cases h
      exact ⟨.leaves rfl (iff_of_false (hnext k).1 id), (hnext k).2⟩
  | publishTest send =>
      cases h
      split
      · exact ⟨.leaves rfl Iff.rfl, by simp⟩
      · exact ⟨.leaves rfl Iff.rfl, by simp⟩
  | publishLock send =>
      refine ⟨movesLock_lockPub h trivial, ?_⟩
      rw [(lockPub_eq_some h).1]
      simp
  | publishBuild send =>
      cases h
      exact ⟨.leaves rfl Iff.rfl, by simp⟩
  | publishSend =>
      cases h
      exact ⟨.leaves rfl Iff.rfl, by simp⟩
  | queueTest =>
      -- an empty queue would be the way to the second unlock
      change s.queueTest = _ at h
      unfold queueTest at h
      cases hqueue : s.queue with
      | none =>
          rw [hqueue] at h
          cases h
      | some queue =>
          rw [hqueue] at h
          have hsome : ¬ queue.elemCount < 1 := not_lt.mpr (hok queue hqueue)
          change some (s, if queue.elemCount < 1 then _ else _) = _ at h
          rw [if_neg hsome] at h
          cases h
          exact ⟨.leaves rfl Iff.rfl, by simp⟩
  | queueUnlock => exact absurd rfl hpc
  | queueBuild =>
      cases h
      exact ⟨.leaves rfl Iff.rfl, by simp⟩
  | snapsSend =>
      cases h
      exact ⟨.leaves rfl Iff.rfl, by simp⟩
  | publishUnlock =>
      refine ⟨movesLock_unlockPub h id trivial, ?_⟩
      cases h
      simp

end LockedPub

/-! ## Every interleaving -/

namespace PubThreads

variable {role : SosRole} {s s' : PubThreads ι}

/-- **What every turn keeps**: the lock is owned by the thread that is where it
holds it, and no thread gives back the lock of its caller. -/
structure LockInv (s : PubThreads ι) : Prop where
  owned : s.shared.lock.Owned fun i => (s.thread i).pc.Holds
  noTheft : ∀ i, (s.thread i).pc ≠ .queueUnlock

omit [DecidableEq ι] in
theorem lockInv_start (pub : SosPub) (queue : Option (SosPipe SosValSnap))
    (calls : ι → List PubCall) : LockInv (start pub queue calls) :=
  ⟨LockState.owned_unheld (P := fun t : PubThread => t.pc.Holds) fun _ => id, fun _ => by simp [start]⟩

omit [DecidableEq ι] in
theorem LockInv.lockKept (h : LockInv s) : s.LockKept := by
  refine ⟨h.owned.proper, ?_⟩
  intro i hreturned hholder
  have hholds := (h.owned.holder i).mp hholder
  rw [hreturned] at hholds
  exact hholds

/-- A thread that is in a call goes on with it. -/
theorem pubAct_of_ne {i : ι} {shared : LockedPub ι} {t : PubThread} (h : t.pc ≠ .returned) :
    pubAct role i shared t =
      (shared.callStep role i t.pc).map fun r => (r.1, ⟨r.2, t.calls⟩) := by
  obtain ⟨pc, calls⟩ := t
  cases pc with
  | returned => exact absurd rfl h
  | _ => rfl

/-- **A turn** is a new call, or a step of the one the thread is in. -/
theorem pubAct_eq_some {i : ι} {shared shared' : LockedPub ι} {t t' : PubThread}
    (h : pubAct role i shared t = some (shared', t')) :
    (t.pc = .returned ∧ shared' = shared ∧ ∃ call, t'.pc = call.entry ∧ t.calls = call :: t'.calls) ∨
    (shared.callStep role i t.pc = some (shared', t'.pc) ∧ t'.calls = t.calls) := by
  by_cases hpc : t.pc = .returned
  · obtain ⟨pc, calls⟩ := t
    obtain rfl : pc = .returned := hpc
    cases calls with
    | nil => cases h
    | cons call rest =>
        cases h
        exact .inl ⟨rfl, rfl, call, rfl, rfl⟩
  · rw [pubAct_of_ne hpc] at h
    obtain ⟨r, hr, heq⟩ := Option.map_eq_some_iff.mp h
    cases heq
    exact .inr ⟨hr, rfl⟩

/-- **A turn that keeps off the two paths** keeps the invariant. -/
theorem LockInv.step (s : PubThreads ι) (i : ι) (s' : PubThreads ι) (h : LockInv s)
    (hok : s.OffPath i) (hstep : step (pubAct role) s i = some s') : LockInv s' := by
  obtain ⟨shared, t, hact, rfl⟩ := step_eq_some hstep
  have hothers (hpc : t.pc ≠ .queueUnlock) (j : ι) :
      (Function.update s.thread i t j).pc ≠ .queueUnlock := by
    by_cases hj : j = i
    · rw [hj, Function.update_self]
      exact hpc
    · rw [Function.update_of_ne hj]
      exact h.noTheft j
  rcases pubAct_eq_some hact with ⟨hreturned, rfl, call, hentry, -⟩ | ⟨hcall, -⟩
  -- no call begins with the lock
  · have hfree : ¬ t.pc.Holds ∧ t.pc ≠ .queueUnlock := by
      rw [hentry]
      cases call <;> exact ⟨id, by simp [PubCall.entry]⟩
    refine ⟨h.owned.other (P := fun t : PubThread => t.pc.Holds) ?_, hothers hfree.2⟩
    refine iff_of_false hfree.1 ?_
    rw [hreturned]
    exact id
  · obtain ⟨hmoves, hpc⟩ := LockedPub.movesLock_callStep (h.noTheft i) hok hcall
    refine ⟨?_, hothers hpc⟩
    cases hmoves with
    | takes hlock hholds =>
        exact h.owned.acquire (P := fun t : PubThread => t.pc.Holds) hlock hholds
    | gives hlock hheld hholds =>
        show shared.lock.Owned _
        rw [hlock]
        exact h.owned.release (P := fun t : PubThread => t.pc.Holds) hheld hholds
    | leaves hlock hholds =>
        show shared.lock.Owned _
        rw [hlock]
        exact h.owned.other (P := fun t : PubThread => t.pc.Holds) hholds

/-- **The lock is kept in every interleaving** whose turns keep off the two
paths. -/
theorem lockKept_of_along {pub : SosPub} {queue : Option (SosPipe SosValSnap)}
    {calls : ι → List PubCall} {schedule : List ι}
    (hok : Along (step (pubAct role)) OffPath (start pub queue calls) schedule)
    (hrun : run (step (pubAct role)) (start pub queue calls) schedule = some s) : s.LockKept :=
  (run_invariant LockInv.step (lockInv_start pub queue calls) hok hrun).lockKept

/-! ## One call of a thread that is alone -/

/-- **How far a call has got**, as far as it decides the two paths: what it packs
is what it was called with, and up to the test the queue is as it was. -/
def Through (call : PubCall) (queue : Option (SosPipe SosValSnap)) (shared : LockedPub Unit) :
    PubPc → Prop
  | .packLock c => call = .pack c
  | .packBody c => call = .pack c
  | .announceTest (.sosPublish send) => call = .publish send ∧ shared.queue = queue
  | .announceLock (.sosPublish send) => call = .publish send ∧ shared.queue = queue
  | .announceBuild (.sosPublish send) => call = .publish send ∧ shared.queue = queue
  | .announceUnlock (.sosPublish send) => call = .publish send ∧ shared.queue = queue
  | .announceSend (.sosPublish send) => call = .publish send ∧ shared.queue = queue
  | .publishTest send => call = .publish send ∧ shared.queue = queue
  | .publishLock send => call = .publish send ∧ shared.queue = queue
  | .publishBuild send => call = .publish send ∧ shared.queue = queue
  | .publishSend => (∃ send, call = .publish send) ∧ shared.queue = queue
  | .queueTest => (∃ send, call = .publish send) ∧ shared.queue = queue
  | _ => True

variable {call : PubCall} {queue : Option (SosPipe SosValSnap)} {pub : SosPub}

/-- A call that keeps off the two paths has every step off them. -/
theorem Through.offPath {shared : LockedPub Unit} {pc : PubPc} (h : Through call queue shared pc)
    (hok : call.OffPath queue) : shared.OffPath pc := by
  cases pc with
  | packBody c =>
      obtain rfl : call = .pack c := h
      exact hok
  | queueTest =>
      obtain ⟨⟨send, rfl⟩, hqueue⟩ := h
      intro q hq
      exact hok q (hqueue ▸ hq)
  | _ => trivial

theorem Through.step {shared shared' : LockedPub Unit} {pc pc' : PubPc}
    (h : Through call queue shared pc) (hstep : shared.callStep role () pc = some (shared', pc')) :
    Through call queue shared' pc' := by
  cases pc with
  | returned => cases hstep
  | packLock c =>
      obtain ⟨rfl, lock, -, rfl⟩ := LockedPub.lockPub_eq_some hstep
      exact h
  | packBody c =>
      cases c with
      | invalid =>
          cases hstep
          trivial
      | value a =>
          change shared.packBody role (.value a) = _ at hstep
          rw [LockedPub.packBody] at hstep
          split at hstep
          · cases hstep
            trivial
          · cases hstep
            trivial
          · cases hstep
  | announceTest k =>
      cases hstep
      cases k with
      | user => split <;> trivial
      | sosPublish send => split <;> exact h
  | announceLock k =>
      obtain ⟨rfl, lock, -, rfl⟩ := LockedPub.lockPub_eq_some hstep
      cases k with
      | user => trivial
      | sosPublish send => exact h
  | publishTest send =>
      cases hstep
      split <;> exact h
  | publishLock send =>
      obtain ⟨rfl, lock, -, rfl⟩ := LockedPub.lockPub_eq_some hstep
      exact h
  | publishBuild send =>
      cases hstep
      exact ⟨⟨send, h.1⟩, h.2⟩
  | publishSend =>
      cases hstep
      exact h
  | queueTest =>
      change shared.queueTest = _ at hstep
      unfold LockedPub.queueTest at hstep
      split at hstep
      · cases hstep
      · cases hstep
        split <;> trivial
  | announceBuild k =>
      cases hstep
      cases k with
      | user => trivial
      | sosPublish send => exact h
  | announceUnlock k =>
      cases hstep
      cases k with
      | user => trivial
      | sosPublish send => exact h
  | announceSend k =>
      cases hstep
      cases k with
      | user => trivial
      | sosPublish send => exact h
  | _ =>
      cases hstep
      trivial

/-- **A thread that makes one call**: it has not begun, or is on its way through
it. -/
def Solo (call : PubCall) (queue : Option (SosPipe SosValSnap)) (s : PubThreads Unit) : Prop :=
  ((s.thread ()).pc = .returned ∧ (s.thread ()).calls = [call] ∧ s.shared.queue = queue) ∨
    ((s.thread ()).calls = [] ∧ Through call queue s.shared (s.thread ()).pc)

theorem Solo.step {s s' : PubThreads Unit} (h : Solo call queue s)
    (hstep : Interleave.step (pubAct role) s () = some s') : Solo call queue s' := by
  obtain ⟨shared, t, hact, rfl⟩ := step_eq_some hstep
  refine .inr ?_
  show (Function.update s.thread () t ()).calls = [] ∧
    Through call queue shared (Function.update s.thread () t ()).pc
  rw [Function.update_self]
  rcases pubAct_eq_some hact with ⟨hreturned, rfl, called, hentry, hcalls⟩ | ⟨hcall, hcalls⟩
  -- a thread that begins a call had only this one to make
  · rcases h with ⟨-, hone, hqueue⟩ | ⟨hnone, -⟩
    · obtain ⟨rfl, hrest⟩ := List.cons.inj (hone.symm.trans hcalls)
      refine ⟨hrest.symm, ?_⟩
      rw [hentry]
      cases call with
      | pack c => exact rfl
      | announce => trivial
      | publish send => exact ⟨rfl, hqueue⟩
    · rw [hnone] at hcalls
      cases hcalls
  · rcases h with ⟨hreturned, -⟩ | ⟨hnone, hthrough⟩
    · rw [hreturned] at hcall
      cases hcall
    · exact ⟨hcalls.trans hnone, hthrough.step hcall⟩

/-- What it is about to do is off the two paths. -/
theorem Solo.offPath {s : PubThreads Unit} (h : Solo call queue s) (hok : call.OffPath queue) :
    s.OffPath () := by
  rcases h with ⟨hreturned, -⟩ | ⟨-, hthrough⟩
  · show s.shared.OffPath (s.thread ()).pc
    rw [hreturned]
    trivial
  · exact hthrough.offPath hok

/-- **A call that keeps off the two paths keeps the lock.** -/
theorem lockKept_of_offPath (hok : call.OffPath queue) {schedule : List Unit} {s : PubThreads Unit}
    (hrun : run (step (pubAct role)) (start pub queue fun _ => [call]) schedule = some s) :
    s.LockKept := by
  have hstep : ∀ (s : PubThreads Unit) i s', LockInv s ∧ Solo call queue s →
      Interleave.step (pubAct role) s i = some s' → LockInv s' ∧ Solo call queue s' := by
    intro s i s' hs hstep
    exact ⟨hs.1.step s i s' (hs.2.offPath hok) hstep, hs.2.step hstep⟩
  have hstart : LockInv (start pub queue fun _ : Unit => [call]) ∧
      Solo call queue (start pub queue fun _ => [call]) :=
    ⟨lockInv_start pub queue _, .inl ⟨rfl, rfl, rfl⟩⟩
  exact (run_preserves hstep hstart hrun).1.lockKept

/-- A turn of a thread that is alone. -/
theorem reaches_turn {shared : LockedPub Unit} {t : PubThread} (shared' : LockedPub Unit)
    (t' : PubThread) {s : PubThreads Unit}
    (h : pubAct role () shared t = some (shared', t'))
    (hrest : Reaches (step (pubAct role)) ⟨shared', fun _ => t'⟩ s) :
    Reaches (step (pubAct role)) ⟨shared, fun _ => t⟩ s := by
  refine hrest.head (a := ()) ?_
  rw [step_unit, h]
  rfl

variable (role pub queue) in
/-- **What does not pack** makes the call return with the lock held. -/
theorem not_lockKept_pack {c : PackRequest} (hc : ¬ c.Packable) : ∃ s : PubThreads Unit,
    Reaches (step (pubAct role)) (start pub queue fun _ => [.pack c]) s ∧ ¬ s.LockKept := by
  refine ⟨⟨⟨pub, queue, ⟨some (), false⟩⟩, fun _ => ⟨.returned, []⟩⟩, ?_, ?_⟩
  · refine reaches_turn ⟨pub, queue, .unheld⟩ ⟨.packLock c, []⟩ rfl ?_
    refine reaches_turn ⟨pub, queue, ⟨some (), false⟩⟩ ⟨.packBody c, []⟩ rfl ?_
    refine reaches_turn _ _ ?_ (.refl _)
    rw [pubAct_of_ne (by simp)]
    show (LockedPub.packBody role _ c).map _ = _
    rw [LockedPub.packBody_refused hc]
    rfl
  · intro hkept
    exact hkept.returned () rfl rfl

/-- The locked part of `SOS_publish`, when it finds the queue empty. -/
theorem reaches_misused {q : SosPipe SosValSnap} (hempty : q.elemCount < 1) (send : Double) :
    Reaches (step (pubAct role))
      (⟨⟨pub, some q, .unheld⟩, fun _ => ⟨.publishLock send, []⟩⟩ : PubThreads Unit)
      ⟨⟨pub.afterPublish send, some q, ⟨none, true⟩⟩, fun _ => ⟨.returned, []⟩⟩ := by
  refine reaches_turn ⟨pub, some q, ⟨some (), false⟩⟩
    ⟨.publishBuild send, []⟩ rfl ?_
  refine reaches_turn ⟨pub.afterPublish send, some q, ⟨some (), false⟩⟩
    ⟨.publishSend, []⟩ rfl ?_
  refine reaches_turn ⟨pub.afterPublish send, some q, ⟨some (), false⟩⟩
    ⟨.queueTest, []⟩ rfl ?_
  have htest : pubAct role () ⟨pub.afterPublish send, some q, ⟨some (), false⟩⟩ ⟨.queueTest, []⟩ =
      some (⟨pub.afterPublish send, some q, ⟨some (), false⟩⟩, ⟨.queueUnlock, []⟩) := by
    show some (_, (⟨if q.elemCount < 1 then .queueUnlock else .queueBuild, []⟩ : PubThread)) = _
    rw [if_pos hempty]
  refine reaches_turn _ _ htest ?_
  refine reaches_turn ⟨pub.afterPublish send, some q, ⟨none, false⟩⟩
    ⟨.publishUnlock, []⟩ rfl ?_
  exact reaches_turn _ _ rfl (.refl _)

variable (role pub) in
/-- **An empty queue** makes `SOS_publish` give back a lock it does not hold. -/
theorem not_lockKept_publish {q : SosPipe SosValSnap} (hempty : q.elemCount < 1) (send : Double) :
    ∃ s : PubThreads Unit,
      Reaches (step (pubAct role)) (start pub (some q) fun _ => [.publish send]) s ∧
        ¬ s.LockKept := by
  have hbad (pub : SosPub) : ¬ LockKept (⟨⟨pub, some q, ⟨none, true⟩⟩,
      fun _ => ⟨.returned, []⟩⟩ : PubThreads Unit) := fun hkept => by cases hkept.proper
  by_cases hannounced : pub.announced = true
  · refine ⟨_, ?_, hbad (pub.afterPublish send)⟩
    refine reaches_turn ⟨pub, some q, .unheld⟩ ⟨.publishTest send, []⟩ rfl ?_
    have htest : pubAct role () ⟨pub, some q, .unheld⟩ ⟨.publishTest send, []⟩ =
        some (⟨pub, some q, .unheld⟩, ⟨.publishLock send, []⟩) := by
      show some (_, (⟨if pub.announced then _ else _, []⟩ : PubThread)) = _
      rw [if_pos hannounced]
    exact reaches_turn _ _ htest (reaches_misused hempty send)
  · refine ⟨_, ?_, hbad (pub.afterAnnounce.afterPublish send)⟩
    refine reaches_turn ⟨pub, some q, .unheld⟩ ⟨.publishTest send, []⟩ rfl ?_
    have htest : pubAct role () ⟨pub, some q, .unheld⟩ ⟨.publishTest send, []⟩ =
        some (⟨pub, some q, .unheld⟩, ⟨.announceTest (.sosPublish send), []⟩) := by
      show some (_, (⟨if pub.announced then _ else _, []⟩ : PubThread)) = _
      rw [if_neg hannounced]
    refine reaches_turn _ _ htest ?_
    have hagain : pubAct role () ⟨pub, some q, .unheld⟩ ⟨.announceTest (.sosPublish send), []⟩ =
        some (⟨pub, some q, .unheld⟩, ⟨.announceLock (.sosPublish send), []⟩) := by
      show some (_, (⟨if pub.announced then _ else _, []⟩ : PubThread)) = _
      rw [if_neg hannounced]
    refine reaches_turn _ _ hagain ?_
    refine reaches_turn ⟨pub, some q, ⟨some (), false⟩⟩
      ⟨.announceBuild (.sosPublish send), []⟩ rfl ?_
    refine reaches_turn ⟨pub.afterAnnounce, some q, ⟨some (), false⟩⟩
      ⟨.announceUnlock (.sosPublish send), []⟩ rfl ?_
    refine reaches_turn ⟨pub.afterAnnounce, some q, .unheld⟩
      ⟨.announceSend (.sosPublish send), []⟩ rfl ?_
    exact reaches_turn _ _ rfl (reaches_misused hempty send)

/-- **When a call of a thread that is alone keeps the lock.** -/
theorem lockKept_iff : (∀ schedule, ∀ s : PubThreads Unit,
    run (step (pubAct role)) (start pub queue fun _ => [call]) schedule = some s → s.LockKept) ↔
    call.OffPath queue := by
  refine ⟨?_, fun hok schedule s hrun => lockKept_of_offPath hok hrun⟩
  intro hall
  have hreach : ∀ s : PubThreads Unit,
      Reaches (step (pubAct role)) (start pub queue fun _ => [call]) s → s.LockKept := by
    rintro s ⟨schedule, hrun⟩
    exact hall schedule s hrun
  by_contra hbad
  cases call with
  | announce => exact hbad trivial
  | pack c =>
      obtain ⟨s, hs, hnot⟩ := not_lockKept_pack role queue pub hbad
      exact hnot (hreach s hs)
  | publish send =>
      have hqueue : ∃ q, queue = some q ∧ q.elemCount < 1 := by
        by_contra hnone
        refine hbad ?_
        intro q hq
        by_contra hlt
        exact hnone ⟨q, hq, not_le.mp hlt⟩
      obtain ⟨q, rfl, hempty⟩ := hqueue
      obtain ⟨s, hs, hnot⟩ := not_lockKept_publish role pub hempty send
      exact hnot (hreach s hs)

end PubThreads

open PubThreads

/-- **The discipline of `pub->lock`.** A call of a thread that is alone keeps the
lock exactly if it packs a number or a string, or publishes a queue that is not
empty; and so does every interleaving of calls that do. -/
theorem lock_discipline (role : SosRole) :
    (∀ (call : PubCall) (pub : SosPub) (queue : Option (SosPipe SosValSnap)),
      (∀ schedule, ∀ s : PubThreads Unit,
        run (step (pubAct role)) (start pub queue fun _ => [call]) schedule = some s →
          s.LockKept) ↔ call.OffPath queue) ∧
    (∀ (ι : Type) [DecidableEq ι] (pub : SosPub) (queue : Option (SosPipe SosValSnap))
      (calls : ι → List PubCall) (schedule : List ι) (s : PubThreads ι),
      Along (step (pubAct role)) PubThreads.OffPath (start pub queue calls) schedule →
        run (step (pubAct role)) (start pub queue calls) schedule = some s → s.LockKept) := by
  refine ⟨fun call pub queue => lockKept_iff, ?_⟩
  intro ι _ pub queue calls schedule s hok hrun
  exact lockKept_of_along hok hrun

/-- One thread packs an integer and publishes it, while another announces the pub. -/
def twoPubUsers : Bool → List PubCall
  | false => [.pack (.value ⟨nameX, .int 5, 0, 9, 0⟩), .publish 0]
  | true => [.announce]

/-- The second waits for the lock, and the first finds the pub announced. -/
def twoPubSchedule : List Bool :=
  [false, false, true, true, false, false, true, true, false, true, true, false, false, false,
    false, false, false, false, false]

/-- Behind all the calls the lock is as it was. -/
theorem lock_discipline_two : ∃ s : PubThreads Bool,
    run (step (pubAct .client)) (start (sosPubInit plainConfig 5 .empty 0) (some .empty) twoPubUsers)
      twoPubSchedule = some s ∧
    (∀ i, s.thread i = ⟨.returned, []⟩) ∧ s.LockKept := by
  obtain ⟨s, hrun⟩ : ∃ s, run (step (pubAct .client))
      (start (sosPubInit plainConfig 5 .empty 0) (some .empty) twoPubUsers) twoPubSchedule =
        some s := ⟨_, rfl⟩
  have hok : Along (step (pubAct .client)) PubThreads.OffPath
      (start (sosPubInit plainConfig 5 .empty 0) (some .empty) twoPubUsers) twoPubSchedule := by
    decide +kernel
  refine ⟨s, hrun, fun i => ?_, (lock_discipline .client).2 _ _ _ _ _ _ hok hrun⟩
  cases hrun
  cases i with
  | false => rfl
  | true => rfl

/-- **A pub that has nothing new to publish**: its lock is given back twice. -/
theorem not_lock_discipline : ¬ ∀ (call : PubCall) (pub : SosPub) (queue : SosPipe SosValSnap)
    (schedule : List Unit) (s : PubThreads Unit),
    run (step (pubAct .client)) (start pub (some queue) fun _ => [call]) schedule = some s →
      s.LockKept := by
  intro hall
  obtain ⟨s, ⟨schedule, hrun⟩, hnot⟩ := not_lockKept_publish .client
    (sosPubInit plainConfig 5 .empty 0) (show SosPipe.empty.elemCount < 1 by decide) 0
  exact hnot (hall (.publish 0) _ .empty schedule s hrun)

end SosFlow
