import SosFlow.Pipe.Copies

/-!
# A pipe is a queue

In every interleaving of any number of threads the bytes that were popped,
and behind them the bytes in use, are the bytes that were pushed, in the
order in which `end` was moved over them. No turn reads a byte that was not
written, or leaves the buffer, or finds it freed.

The invariant is `FifoInv`. Of the threads it says what each may rely on,
and a turn is shown by what it does to the pipe: nothing, a part of a push
or of a pop, or a resize.
-/

namespace SosFlow

open Interleave Trace Cyclic

variable {ι α : Type}

namespace PipeUsers

/-- **What every turn keeps.** -/
structure FifoInv (c : PipeUsers ι α) : Prop where
  sound : c.shared.pipe.Sound
  fifo : ∃ queued, c.shared.pipe.contents = queued.map some ∧
    c.shared.received ++ queued = c.shared.sent.map Prod.snd
  endOwned : c.shared.endLock.Owned fun i => (c.thread i).pos.HoldsEnd
  beginOwned : c.shared.beginLock.Owned fun i => (c.thread i).pos.HoldsBegin
  ok : ∀ i, (c.thread i).pos.Ok c.shared.pipe
  whole : ∀ i, ∀ call ∈ (c.thread i).calls, call.Whole c.shared.pipe.elemSize

variable {c : PipeUsers ι α} {i : ι} {s' : PipeShared ι α} {pos pos' : PipePos α}

/-- **Nobody is at the pipe yet.** -/
theorem fifoInv_start {p : PipeT α} {calls : ι → List (PipeCall α)} (hsound : p.Sound)
    (hempty : p.contents = []) (hcalls : ∀ i, ∀ call ∈ calls i, call.Whole p.elemSize) :
    FifoInv (start p calls) where
  sound := hsound
  fifo := ⟨[], hempty, rfl⟩
  endOwned := LockState.owned_unheld (P := fun t : PipeUser α => t.pos.HoldsEnd) fun _ => id
  beginOwned := LockState.owned_unheld (P := fun t : PipeUser α => t.pos.HoldsBegin) fun _ => id
  ok := fun _ => trivial
  whole := hcalls

variable [DecidableEq ι]

/-- **What a turn does with the locks.** -/
structure LockMoves (s s' : PipeShared ι α) (i : ι) (pos pos' : PipePos α) : Prop where
  endLock : s.endLock.Moves s'.endLock i pos.HoldsEnd pos'.HoldsEnd
  beginLock : s.beginLock.Moves s'.beginLock i pos.HoldsBegin pos'.HoldsBegin

/-- **A thread moves**, and what the others rely on stays true. -/
theorem FifoInv.move (h : FifoInv c) (hpos : (c.thread i).pos = pos) {calls : List (PipeCall α)}
    (hcalls : ∀ call ∈ calls, call.Whole c.shared.pipe.elemSize)
    (hlocks : LockMoves c.shared s' i pos pos')
    (hsound : s'.pipe.Sound) (helem : s'.pipe.elemSize = c.shared.pipe.elemSize)
    (hfifo : ∃ queued, s'.pipe.contents = queued.map some ∧
      s'.received ++ queued = s'.sent.map Prod.snd)
    (hok : pos'.Ok s'.pipe) (hothers : ∀ j, j ≠ i → (c.thread j).pos.Ok s'.pipe) :
    FifoInv ⟨s', Function.update c.thread i ⟨pos', calls⟩⟩ where
  sound := hsound
  fifo := hfifo
  endOwned := h.endOwned.moves (P := fun t : PipeUser α => t.pos.HoldsEnd)
    (hpos.symm ▸ hlocks.endLock)
  beginOwned := h.beginOwned.moves (P := fun t : PipeUser α => t.pos.HoldsBegin)
    (hpos.symm ▸ hlocks.beginLock)
  ok := (Function.forall_update_iff c.thread fun _ t => t.pos.Ok s'.pipe).mpr ⟨hok, hothers⟩
  whole := by
    rw [show s'.pipe.elemSize = c.shared.pipe.elemSize from helem]
    exact (Function.forall_update_iff c.thread fun _ t =>
      ∀ call ∈ t.calls, call.Whole c.shared.pipe.elemSize).mpr ⟨hcalls, fun j _ => h.whole j⟩

/-- **A turn that leaves the pipe alone.** -/
theorem FifoInv.quiet (h : FifoInv c) (hpos : (c.thread i).pos = pos) {calls : List (PipeCall α)}
    (hcalls : ∀ call ∈ calls, call.Whole c.shared.pipe.elemSize)
    (hsame : s'.pipe = c.shared.pipe ∧ s'.sent = c.shared.sent ∧ s'.received = c.shared.received)
    (hlocks : LockMoves c.shared s' i pos pos') (hok : pos'.Ok c.shared.pipe) :
    FifoInv ⟨s', Function.update c.thread i ⟨pos', calls⟩⟩ := by
  obtain ⟨hpipe, hsent, hreceived⟩ := hsame
  refine h.move hpos hcalls hlocks (hpipe ▸ h.sound) (hpipe ▸ rfl) ?_ (hpipe ▸ hok) ?_
  · rw [hpipe, hsent, hreceived]
    exact h.fifo
  · exact fun j _ => hpipe ▸ h.ok j

/-- A lock is taken. -/
theorem FifoInv.lockEnd (h : FifoInv c) (hpos : (c.thread i).pos = pos) {target : PipePos α}
    (hstep : c.shared.lockEnd i target = some (s', pos')) (hend : target.HoldsEnd)
    (hbegin : target.HoldsBegin ↔ pos.HoldsBegin) (hok : target.Ok c.shared.pipe) :
    FifoInv ⟨s', Function.update c.thread i ⟨pos', (c.thread i).calls⟩⟩ := by
  obtain ⟨l, hl, heq⟩ := Option.map_eq_some_iff.mp hstep
  obtain ⟨rfl, rfl⟩ := Prod.mk.inj heq
  exact h.quiet hpos (h.whole i) ⟨rfl, rfl, rfl⟩ ⟨.taken hl hend, .stays rfl hbegin⟩ hok

theorem FifoInv.lockBegin (h : FifoInv c) (hpos : (c.thread i).pos = pos) {target : PipePos α}
    (hstep : c.shared.lockBegin i target = some (s', pos')) (hbegin : target.HoldsBegin)
    (hend : target.HoldsEnd ↔ pos.HoldsEnd) (hok : target.Ok c.shared.pipe) :
    FifoInv ⟨s', Function.update c.thread i ⟨pos', (c.thread i).calls⟩⟩ := by
  obtain ⟨l, hl, heq⟩ := Option.map_eq_some_iff.mp hstep
  obtain ⟨rfl, rfl⟩ := Prod.mk.inj heq
  exact h.quiet hpos (h.whole i) ⟨rfl, rfl, rfl⟩ ⟨.stays rfl hend, .taken hl hbegin⟩ hok

/-- **A turn of the one who has `end_lock`.** -/
theorem FifoInv.appends (h : FifoInv c) (hpos : (c.thread i).pos = pos) (hholds : pos.HoldsEnd)
    (hlocks : LockMoves c.shared s' i pos pos')
    (hstep : c.shared.pipe.Appends s'.pipe) (hsound : s'.pipe.Sound)
    (hfifo : ∃ queued, s'.pipe.contents = queued.map some ∧
      s'.received ++ queued = s'.sent.map Prod.snd) (hok : pos'.Ok s'.pipe) :
    FifoInv ⟨s', Function.update c.thread i ⟨pos', (c.thread i).calls⟩⟩ := by
  refine h.move hpos (h.whole i) hlocks hsound hstep.elemSize hfifo hok ?_
  intro j hj
  exact (h.ok j).appends hstep fun hj' => hj (h.endOwned.unique hj' (hpos.symm ▸ hholds))

/-- **A turn of the one who has `begin_lock`.** -/
theorem FifoInv.removes (h : FifoInv c) (hpos : (c.thread i).pos = pos) (hholds : pos.HoldsBegin)
    (hlocks : LockMoves c.shared s' i pos pos')
    (hstep : c.shared.pipe.Removes s'.pipe) (hsound : s'.pipe.Sound)
    (hfifo : ∃ queued, s'.pipe.contents = queued.map some ∧
      s'.received ++ queued = s'.sent.map Prod.snd) (hok : pos'.Ok s'.pipe) :
    FifoInv ⟨s', Function.update c.thread i ⟨pos', (c.thread i).calls⟩⟩ := by
  refine h.move hpos (h.whole i) hlocks hsound hstep.elemSize hfifo hok ?_
  intro j hj
  exact (h.ok j).removes hstep fun hj' => hj (h.beginOwned.unique hj' (hpos.symm ▸ hholds))

/-- **A turn of the one who has both locks**: a resize. -/
theorem FifoInv.resized (h : FifoInv c) (hpos : (c.thread i).pos = pos)
    (hholds : pos.HoldsEnd ∧ pos.HoldsBegin) (hlocks : LockMoves c.shared s' i pos pos')
    (hsame : s'.sent = c.shared.sent ∧ s'.received = c.shared.received)
    (hstep : c.shared.pipe.SameQueue s'.pipe) (hsound : s'.pipe.Sound) (hok : pos'.Ok s'.pipe) :
    FifoInv ⟨s', Function.update c.thread i ⟨pos', (c.thread i).calls⟩⟩ := by
  refine h.move hpos (h.whole i) hlocks hsound hstep.elemSize ?_ hok ?_
  · rw [hstep.contents, hsame.1, hsame.2]
    exact h.fifo
  · intro j hj
    exact (h.ok j).resized hstep.elemSize
      (fun hj' => hj (h.endOwned.unique hj' (hpos.symm ▸ hholds.1)))
      fun hj' => hj (h.beginOwned.unique hj' (hpos.symm ▸ hholds.2))

/-! ## The turns -/

omit [DecidableEq ι] in
/-- Where a call begins. -/
theorem entry_cases (call : PipeCall α) (elemSize : ℕ) :
    call.entry elemSize = .returned ∨
    (∃ elems, call = .pipePush elems ∧ call.entry elemSize = .pushLock elems) ∨
    ∃ n eager, call.entry elemSize = .popLock (n * elemSize) eager := by
  cases call with
  | pipePush elems =>
      by_cases h : elems = []
      · exact .inl (if_pos h)
      · exact .inr (.inl ⟨elems, rfl, if_neg h⟩)
  | pipePop count =>
      by_cases h : count * elemSize = 0
      · exact .inl (if_pos h)
      · exact .inr (.inr ⟨count, false, if_neg h⟩)
  | pipePopEager count =>
      by_cases h : count * elemSize = 0
      · exact .inl (if_pos h)
      · exact .inr (.inr ⟨count, true, if_neg h⟩)

/-- **A call begins** without a lock. -/
theorem FifoInv.enters (h : FifoInv c) {call : PipeCall α} {rest : List (PipeCall α)}
    (ht : c.thread i = ⟨.returned, call :: rest⟩) :
    FifoInv ⟨c.shared, Function.update c.thread i ⟨call.entry c.shared.pipe.elemSize, rest⟩⟩ := by
  have hwhole := h.whole i
  rw [ht] at hwhole
  have hcalls := fun call' hcall' => hwhole call' (List.mem_cons_of_mem _ hcall')
  have hpos : (c.thread i).pos = .returned := by rw [ht]
  rcases entry_cases call c.shared.pipe.elemSize with heq | ⟨elems, rfl, heq⟩ | ⟨n, eager, heq⟩
  · rw [heq]
    exact h.quiet hpos hcalls ⟨rfl, rfl, rfl⟩ ⟨.stays rfl Iff.rfl, .stays rfl Iff.rfl⟩ trivial
  · rw [heq]
    exact h.quiet hpos hcalls ⟨rfl, rfl, rfl⟩ ⟨.stays rfl Iff.rfl, .stays rfl Iff.rfl⟩
      (hwhole _ List.mem_cons_self)
  · rw [heq]
    exact h.quiet hpos hcalls ⟨rfl, rfl, rfl⟩ ⟨.stays rfl Iff.rfl, .stays rfl Iff.rfl⟩
      (Nat.dvd_mul_left _ _)

variable {spurious : Bool}

/-- The test of a push. -/
theorem FifoInv.pushTest {elems : List α} (h : FifoInv c)
    (hpos : (c.thread i).pos = .pushTest elems)
    (hstep : c.shared.callStep spurious i (.pushTest elems) = some (s', pos')) :
    FifoInv ⟨s', Function.update c.thread i ⟨pos', (c.thread i).calls⟩⟩ := by
  have hok : c.shared.pipe.elemSize ∣ elems.length := by
    have hi := h.ok i
    rw [hpos] at hi
    exact hi
  have hused := h.sound.bytesInUse_le
  have hmaxle := h.sound.capacity_le
  obtain ⟨rfl, rfl⟩ := Prod.mk.inj (Option.some.inj hstep)
  refine h.quiet hpos (h.whole i) ⟨rfl, rfl, rfl⟩ ?_ ?_
  · split
    · exact ⟨.stays rfl Iff.rfl, .stays rfl Iff.rfl⟩
    · split
      · exact ⟨.stays rfl Iff.rfl, .stays rfl Iff.rfl⟩
      · exact ⟨.stays rfl Iff.rfl, .stays rfl Iff.rfl⟩
  · split
    case isTrue => exact hok
    case isFalse hroom =>
      split
      case isTrue => exact ⟨hok, by omega⟩
      case isFalse => exact h.sound.pushPlan_ok hok (by omega)

/-- The growth of the buffer. -/
theorem FifoInv.pushGrow {elems : List α} (h : FifoInv c)
    (hpos : (c.thread i).pos = .pushGrow elems)
    (hstep : c.shared.callStep spurious i (.pushGrow elems) = some (s', pos')) :
    FifoInv ⟨s', Function.update c.thread i ⟨pos', (c.thread i).calls⟩⟩ := by
  have hok : (PipePos.pushGrow elems).Ok c.shared.pipe := hpos ▸ h.ok i
  obtain ⟨p', hp', hsound', hsame, hroom⟩ := h.sound.growFor_spec hok.1 hok.2
  simp only [PipeShared.callStep, hp'] at hstep
  obtain ⟨rfl, rfl⟩ := Prod.mk.inj (Option.some.inj hstep)
  refine h.resized hpos ⟨trivial, trivial⟩ ?_ ⟨rfl, rfl⟩ hsame hsound' ?_
  · exact ⟨.stays rfl Iff.rfl, .given rfl trivial id⟩
  · refine hsound'.pushPlan_ok ((dvd_of_eq hsame.elemSize).trans hok.1) ?_
    rw [hsame.bytesInUse, hsame.maxCap]
    exact hroom

/-- A byte of a push is written. -/
theorem FifoInv.pushCopy {a : ℕ} {x : α} {todo : List (ℕ × α)} {snap : PipeSnapshot}
    {now rest : List α} (h : FifoInv c)
    (hpos : (c.thread i).pos = .pushCopy ((a, x) :: todo) snap now rest)
    (hstep : c.shared.callStep spurious i (.pushCopy ((a, x) :: todo) snap now rest) =
      some (s', pos')) :
    FifoInv ⟨s', Function.update c.thread i ⟨pos', (c.thread i).calls⟩⟩ := by
  have hok : (PipePos.pushCopy ((a, x) :: todo) snap now rest).Ok c.shared.pipe := hpos ▸ h.ok i
  obtain ⟨queued, hqueued, hsent⟩ := h.fifo
  obtain ⟨hlt, hsound', happends, hwriting, hcontents⟩ := h.sound.writeCell hok.1
  simp only [PipeShared.callStep, PipeShared.writeCell] at hstep
  rw [if_pos ⟨hok.1.block, hlt⟩] at hstep
  obtain ⟨rfl, rfl⟩ := Prod.mk.inj (Option.some.inj hstep)
  refine h.appends hpos trivial ?_ happends hsound' ?_ ⟨hwriting, hok.2⟩
  · exact ⟨.stays rfl Iff.rfl, .stays rfl Iff.rfl⟩
  · exact ⟨queued, hcontents.trans hqueued, hsent⟩

/-- **The end of a push**: its bytes are behind the others. -/
theorem FifoInv.publishEnd {snap : PipeSnapshot} {now rest : List α} (h : FifoInv c)
    (hpos : (c.thread i).pos = .pushCopy [] snap now rest)
    (hstep : c.shared.callStep spurious i (.pushCopy [] snap now rest) = some (s', pos')) :
    FifoInv ⟨s', Function.update c.thread i ⟨pos', (c.thread i).calls⟩⟩ := by
  have hok : (PipePos.pushCopy [] snap now rest).Ok c.shared.pipe := hpos ▸ h.ok i
  obtain ⟨queued, hqueued, hsent⟩ := h.fifo
  obtain ⟨hsound', happends, hcontents⟩ := h.sound.publishEnd hok.1
  obtain ⟨rfl, rfl⟩ := Prod.mk.inj (Option.some.inj hstep)
  refine h.appends hpos trivial ?_ happends hsound' ⟨queued ++ now, ?_, ?_⟩ hok.2
  · exact ⟨.given rfl trivial id, .stays rfl Iff.rfl⟩
  · rw [List.map_append, ← hqueued]
    exact hcontents
  · show c.shared.received ++ (queued ++ now) =
      (c.shared.sent ++ now.map fun x => (i, x)).map Prod.snd
    rw [List.map_append, List.map_map, ← hsent, List.append_assoc]
    congr 2
    exact (List.map_id now).symm

/-- The test of a pop. -/
theorem FifoInv.popTest {left : ℕ} {eager : Bool} (h : FifoInv c)
    (hpos : (c.thread i).pos = .popTest left eager)
    (hstep : c.shared.callStep spurious i (.popTest left eager) = some (s', pos')) :
    FifoInv ⟨s', Function.update c.thread i ⟨pos', (c.thread i).calls⟩⟩ := by
  have hok : (PipePos.popTest left eager : PipePos α).Ok c.shared.pipe := hpos ▸ h.ok i
  obtain ⟨rfl, rfl⟩ := Prod.mk.inj (Option.some.inj hstep)
  refine h.quiet hpos (h.whole i) ⟨rfl, rfl, rfl⟩ ?_ ?_
  · split
    · exact ⟨.stays rfl Iff.rfl, .stays rfl Iff.rfl⟩
    · exact ⟨.stays rfl Iff.rfl, .stays rfl Iff.rfl⟩
  · split
    · exact hok
    · exact h.sound.popPlan_ok hok

/-- A byte of a pop is read. -/
theorem FifoInv.popCopy {a : ℕ} {todo : List ℕ} {got : List α} {snap : PipeSnapshot} {left : ℕ}
    {eager : Bool} (h : FifoInv c)
    (hpos : (c.thread i).pos = .popCopy (a :: todo) got snap left eager)
    (hstep : c.shared.callStep spurious i (.popCopy (a :: todo) got snap left eager) =
      some (s', pos')) :
    FifoInv ⟨s', Function.update c.thread i ⟨pos', (c.thread i).calls⟩⟩ := by
  have hok : (PipePos.popCopy (a :: todo) got snap left eager).Ok c.shared.pipe := hpos ▸ h.ok i
  obtain ⟨queued, hqueued, -⟩ := h.fifo
  obtain ⟨x, hcell, hreading⟩ := hok.1.readCell h.sound hqueued
  simp only [PipeShared.callStep, PipeShared.readCell, hcell] at hstep
  rw [if_pos hok.1.block] at hstep
  obtain ⟨rfl, rfl⟩ := Prod.mk.inj (Option.some.inj hstep)
  refine h.quiet hpos (h.whole i) ⟨rfl, rfl, rfl⟩ ?_ ⟨hreading, hok.2⟩
  exact ⟨.stays rfl Iff.rfl, .stays rfl Iff.rfl⟩

/-- **The end of a pop**: its bytes were the first. -/
theorem FifoInv.publishBegin {got : List α} {snap : PipeSnapshot} {left : ℕ} {eager : Bool}
    (h : FifoInv c) (hpos : (c.thread i).pos = .popCopy [] got snap left eager)
    (hstep : c.shared.callStep spurious i (.popCopy [] got snap left eager) = some (s', pos')) :
    FifoInv ⟨s', Function.update c.thread i ⟨pos', (c.thread i).calls⟩⟩ := by
  have hok : (PipePos.popCopy [] got snap left eager).Ok c.shared.pipe := hpos ▸ h.ok i
  obtain ⟨queued, hqueued, hsent⟩ := h.fifo
  obtain ⟨hsound', hremoves, hcontents⟩ := h.sound.publishBegin hok.1
  obtain ⟨rfl, rfl⟩ := Prod.mk.inj (Option.some.inj hstep)
  have hdvd := hok.1.dvd
  rw [List.length_nil, Nat.add_zero] at hdvd
  have hleft := Nat.dvd_sub hok.2 hdvd
  obtain ⟨front, queued', rfl, hfront, hrest⟩ :=
    List.map_eq_append_iff.mp (hqueued.symm.trans hcontents)
  obtain rfl := (List.map_inj_right fun _ _ => Option.some.inj).mp hfront
  rw [← List.append_assoc] at hsent
  refine h.removes hpos trivial ?_ hremoves hsound' ⟨queued', hrest.symm, hsent⟩ ?_
  · split
    · exact ⟨.stays rfl Iff.rfl, .given rfl trivial id⟩
    · exact ⟨.stays rfl Iff.rfl, .given rfl trivial id⟩
  · split
    · exact hleft
    · exact hleft

/-- **A step of a call keeps the invariant.** -/
theorem FifoInv.callStep (h : FifoInv c) (hpos : (c.thread i).pos = pos)
    (hstep : c.shared.callStep spurious i pos = some (s', pos')) :
    FifoInv ⟨s', Function.update c.thread i ⟨pos', (c.thread i).calls⟩⟩ := by
  have hok : pos.Ok c.shared.pipe := hpos ▸ h.ok i
  have hcalls := h.whole i
  cases pos with
  | returned => cases hstep
  | fault => cases hstep
  | pushLock elems => exact h.lockEnd hpos hstep trivial Iff.rfl hok
  | pushTest elems => exact h.pushTest hpos hstep
  | pushWait elems =>
      obtain ⟨rfl, rfl⟩ := Prod.mk.inj (Option.some.inj hstep)
      refine h.quiet hpos hcalls ⟨rfl, rfl, rfl⟩ ?_ hok
      exact ⟨.given rfl trivial id, .stays rfl Iff.rfl⟩
  | pushAsleep elems =>
      obtain ⟨-, hsome⟩ := Option.ite_none_right_eq_some.mp hstep
      obtain ⟨rfl, rfl⟩ := Prod.mk.inj (Option.some.inj hsome)
      refine h.quiet hpos hcalls ⟨rfl, rfl, rfl⟩ ?_ hok
      exact ⟨.stays rfl Iff.rfl, .stays rfl Iff.rfl⟩
  | pushGrowLock elems => exact h.lockBegin hpos hstep trivial Iff.rfl hok
  | pushGrow elems => exact h.pushGrow hpos hstep
  | pushCopy todo snap now rest =>
      cases todo with
      | cons cell todo => exact h.pushCopy hpos hstep
      | nil => exact h.publishEnd hpos hstep
  | pushSignal pushed rest =>
      obtain ⟨rfl, rfl⟩ := Prod.mk.inj (Option.some.inj hstep)
      refine h.quiet hpos hcalls ⟨rfl, rfl, rfl⟩ ?_ ?_
      · split
        · exact ⟨.stays rfl Iff.rfl, .stays rfl Iff.rfl⟩
        · exact ⟨.stays rfl Iff.rfl, .stays rfl Iff.rfl⟩
      · split
        · trivial
        · exact hok
  | popLock left eager => exact h.lockBegin hpos hstep trivial Iff.rfl hok
  | popTest left eager => exact h.popTest hpos hstep
  | popWait left eager =>
      obtain ⟨rfl, rfl⟩ := Prod.mk.inj (Option.some.inj hstep)
      refine h.quiet hpos hcalls ⟨rfl, rfl, rfl⟩ ?_ hok
      exact ⟨.stays rfl Iff.rfl, .given rfl trivial id⟩
  | popAsleep left eager =>
      obtain ⟨-, hsome⟩ := Option.ite_none_right_eq_some.mp hstep
      obtain ⟨rfl, rfl⟩ := Prod.mk.inj (Option.some.inj hsome)
      refine h.quiet hpos hcalls ⟨rfl, rfl, rfl⟩ ?_ hok
      exact ⟨.stays rfl Iff.rfl, .stays rfl Iff.rfl⟩
  | popCopy todo got snap left eager =>
      cases todo with
      | cons a todo => exact h.popCopy hpos hstep
      | nil => exact h.publishBegin hpos hstep
  | popTrimEnd popped left eager => exact h.lockEnd hpos hstep trivial Iff.rfl hok
  | popTrimBegin popped left eager => exact h.lockBegin hpos hstep trivial Iff.rfl hok
  | popTrim popped left eager =>
      obtain ⟨p', hp', hsound', hsame⟩ := h.sound.trim_spec
      simp only [PipeShared.callStep, hp'] at hstep
      obtain ⟨rfl, rfl⟩ := Prod.mk.inj (Option.some.inj hstep)
      refine h.resized hpos ⟨trivial, trivial⟩ ?_ ⟨rfl, rfl⟩ hsame hsound'
        ((dvd_of_eq hsame.elemSize).trans hok)
      exact ⟨.given rfl trivial id, .given rfl trivial id⟩
  | popSignal popped left eager =>
      obtain ⟨rfl, rfl⟩ := Prod.mk.inj (Option.some.inj hstep)
      refine h.quiet hpos hcalls ⟨rfl, rfl, rfl⟩ ?_ ?_
      · split
        · exact ⟨.stays rfl Iff.rfl, .stays rfl Iff.rfl⟩
        · exact ⟨.stays rfl Iff.rfl, .stays rfl Iff.rfl⟩
      · split
        · trivial
        · exact hok

/-- **A turn keeps the invariant.** -/
theorem FifoInv.step {c' : PipeUsers ι α} (h : FifoInv c)
    (hstep : step (pipeTurn spurious) c i = some c') : FifoInv c' := by
  obtain ⟨shared, ⟨pos', calls'⟩, hturn, rfl⟩ := step_eq_some hstep
  rcases pipeTurn_eq_some hturn with ⟨call, rest, ht, rfl, heq⟩ | ⟨hcall, hcalls⟩
  · rw [heq]
    exact h.enters ht
  · obtain rfl : calls' = (c.thread i).calls := hcalls
    exact h.callStep rfl hcall

/-- **A run keeps it.** -/
theorem FifoInv.run {c' : PipeUsers ι α} {schedule : List ι} (h : FifoInv c)
    (hrun : Trace.run (Interleave.step (pipeTurn spurious)) c schedule = some c') : FifoInv c' :=
  run_preserves (fun _ _ _ h hstep => h.step hstep) h hrun

end PipeUsers

end SosFlow
