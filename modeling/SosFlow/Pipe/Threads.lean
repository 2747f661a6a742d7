import SosFlow.Lib.Condition
import SosFlow.Lib.Lock
import SosFlow.Lib.Interleave
import SosFlow.Pipe.Sizes

/-!
# Threads at a pipe

Two locks guard a pipe: a push holds `end_lock`, a pop holds `begin_lock`,
and only a resize has both. So a push copies its bytes in while a pop copies
others out, and each works on a snapshot in which the other's pointer may be
old. Here any number of threads push and pop, and a turn is one step of one
of them: taking a lock, looking at the pipe, or one byte of a copy. All
handles stay open, so nobody is turned away.

A thread that finds nothing to do waits on a condition. The test and the
wait are two turns, since the signal is sent without the lock that the
waiting thread holds. For a single element one of those who wait is woken,
for more of them all. A byte outside the buffer, one that was never written,
or a pointer into a buffer that was freed is a fault.
-/

namespace SosFlow

open Interleave Trace

/-- What a thread calls. The count of a push is in its bytes. -/
inductive PipeCall (α : Type) where
  | pipePush (elems : List α)
  | pipePop (count : ℕ)
  | pipePopEager (count : ℕ)
deriving DecidableEq

/-- **Where a thread is.** A pop carries the bytes it still wants and whether it is
the eager one. -/
inductive PipePos (α : Type) where
  | returned
  | pushLock (elems : List α)
  | pushTest (elems : List α)
  | pushWait (elems : List α)
  | pushAsleep (elems : List α)
  | pushGrowLock (elems : List α)
  | pushGrow (elems : List α)
  | pushCopy (todo : List (ℕ × α)) (s : PipeSnapshot) (now rest : List α)
  | pushSignal (pushed : ℕ) (rest : List α)
  | popLock (left : ℕ) (eager : Bool)
  | popTest (left : ℕ) (eager : Bool)
  | popWait (left : ℕ) (eager : Bool)
  | popAsleep (left : ℕ) (eager : Bool)
  | popCopy (todo : List ℕ) (got : List α) (s : PipeSnapshot) (left : ℕ) (eager : Bool)
  | popTrimEnd (popped left : ℕ) (eager : Bool)
  | popTrimBegin (popped left : ℕ) (eager : Bool)
  | popTrim (popped left : ℕ) (eager : Bool)
  | popSignal (popped left : ℕ) (eager : Bool)
  | fault
deriving DecidableEq

/-- **What the threads share**: the pipe with its locks and conditions. The bytes that were
pushed, with who pushed them, and those that were popped are kept for the statements. -/
structure PipeShared (ι α : Type) where
  pipe : PipeT α
  endLock : LockState ι
  beginLock : LockState ι
  justPushed : CondState ι
  justPopped : CondState ι
  sent : List (ι × α)
  received : List α

/-- A thread: where it is, and what it will call. -/
structure PipeUser (α : Type) where
  pos : PipePos α
  calls : List (PipeCall α)

namespace PipePos

variable {α : Type}

/-- The thread has `end_lock`. -/
def HoldsEnd : PipePos α → Prop
  | pushTest _ => True
  | pushWait _ => True
  | pushGrowLock _ => True
  | pushGrow _ => True
  | pushCopy _ _ _ _ => True
  | popTrimBegin _ _ _ => True
  | popTrim _ _ _ => True
  | _ => False

/-- The thread has `begin_lock`. -/
def HoldsBegin : PipePos α → Prop
  | pushGrow _ => True
  | popTest _ _ => True
  | popWait _ _ => True
  | popCopy _ _ _ _ _ => True
  | popTrim _ _ _ => True
  | _ => False

/-- What a push has yet to put into the pipe. -/
def pending : PipePos α → List α
  | pushLock elems => elems
  | pushTest elems => elems
  | pushWait elems => elems
  | pushAsleep elems => elems
  | pushGrowLock elems => elems
  | pushGrow elems => elems
  | pushCopy _ _ now rest => now ++ rest
  | pushSignal _ rest => rest
  | _ => []

end PipePos

/-- Where a call begins: with nothing to push or to pop it returns. -/
def PipeCall.entry {α : Type} (elemSize : ℕ) : PipeCall α → PipePos α
  | pipePush elems => if elems = [] then .returned else .pushLock elems
  | pipePop count =>
      if count * elemSize = 0 then .returned else .popLock (count * elemSize) false
  | pipePopEager count =>
      if count * elemSize = 0 then .returned else .popLock (count * elemSize) true

/-- `process_push`, to come: as many bytes as `max_cap` leaves room for. -/
def PipeT.pushPlan {α : Type} (p : PipeT α) (elems : List α) : PipePos α :=
  let s := p.makeSnapshot
  let pushed := min elems.length (p.maxCap - s.bytesInUse)
  let written := s.processPush (elems.take pushed)
  .pushCopy written.1 { s with endPtr := written.2 } (elems.take pushed) (elems.drop pushed)

/-- `pop_without_locking`, to come: as many bytes as are wanted and in use. -/
def PipeT.popPlan {α : Type} (p : PipeT α) (left : ℕ) (eager : Bool) : PipePos α :=
  let s := p.makeSnapshot
  let read := s.popWithoutLocking (min left s.bytesInUse)
  .popCopy read.1 [] { s with beginPtr := read.2 } left eager

/-- **What is said of bytes that were moved**: a signal for a single element, and a
broadcast for more. -/
def PipeT.notify {ι α : Type} (p : PipeT α) (moved : ℕ) (cond : CondState ι) : CondState ι :=
  if moved = p.elemSize then cond.signal else cond.broadcast

@[simp] theorem PipeT.notify_idle {ι α : Type} (p : PipeT α) (moved : ℕ) :
    p.notify moved (.idle : CondState ι) = .idle := by
  unfold PipeT.notify
  split
  · exact CondState.signal_idle
  · rfl

namespace PipeShared

variable {ι α : Type} [DecidableEq ι] (spurious : Bool) (i : ι) (s : PipeShared ι α)

/-- Taking `end_lock`. -/
def lockEnd (pos : PipePos α) : Option (PipeShared ι α × PipePos α) :=
  (s.endLock.acquire i).map fun endLock => ({ s with endLock }, pos)

/-- Taking `begin_lock`. -/
def lockBegin (pos : PipePos α) : Option (PipeShared ι α × PipePos α) :=
  (s.beginLock.acquire i).map fun beginLock => ({ s with beginLock }, pos)

/-- **One byte is written**, into the buffer the snapshot is of. -/
def writeCell (snap : PipeSnapshot) (a : ℕ) (x : α) (pos : PipePos α) :
    PipeShared ι α × PipePos α :=
  if snap.block = s.pipe.block ∧ a < s.pipe.buffer.length then
    ({ s with pipe := { s.pipe with buffer := s.pipe.buffer.set a (some x) } }, pos)
  else (s, .fault)

/-- **One byte is read**, from the buffer the snapshot is of. -/
def readCell (snap : PipeSnapshot) (a : ℕ) (pos : α → PipePos α) : PipeShared ι α × PipePos α :=
  if snap.block = s.pipe.block then
    match s.pipe.buffer[a]? with
    | some (some x) => (s, pos x)
    | _ => (s, .fault)
  else (s, .fault)

/-- The end of a push: `end` moves, and `end_lock` is free. -/
def publishEnd (snap : PipeSnapshot) (now : List α) : PipeShared ι α :=
  { s with
    pipe := { s.pipe with endPtr := snap.endPtr }
    endLock := s.endLock.release i
    sent := s.sent ++ now.map fun x => (i, x) }

/-- The end of a pop: `begin` moves, and `begin_lock` is free. -/
def publishBegin (snap : PipeSnapshot) (got : List α) : PipeShared ι α :=
  { s with
    pipe := { s.pipe with beginPtr := snap.beginPtr }
    beginLock := s.beginLock.release i
    received := s.received ++ got }

/-- **The next step of a call.** A thread that sleeps is woken by a signal, or for
no reason where that may happen. -/
def callStep : PipePos α → Option (PipeShared ι α × PipePos α)
  | .returned => none
  | .pushLock elems => s.lockEnd i (.pushTest elems)
  | .pushTest elems =>
      some (s,
        if s.pipe.bytesInUse = s.pipe.maxCap then .pushWait elems
        else if s.pipe.capacity < s.pipe.bytesInUse + elems.length then .pushGrowLock elems
        else s.pipe.pushPlan elems)
  | .pushWait elems =>
      some ({ s with endLock := s.endLock.release i, justPopped := s.justPopped.wait i },
        .pushAsleep elems)
  | .pushAsleep elems =>
      if spurious = true ∨ ¬ s.justPopped.Asleep i then
        some ({ s with justPopped := s.justPopped.wake i }, .pushLock elems)
      else none
  | .pushGrowLock elems => s.lockBegin i (.pushGrow elems)
  | .pushGrow elems =>
      match s.pipe.growFor elems.length with
      | none => some (s, .fault)
      | some pipe =>
          some ({ s with pipe, beginLock := s.beginLock.release i }, pipe.pushPlan elems)
  | .pushCopy ((a, x) :: todo) snap now rest =>
      some (s.writeCell snap a x (.pushCopy todo snap now rest))
  | .pushCopy [] snap now rest => some (s.publishEnd i snap now, .pushSignal now.length rest)
  | .pushSignal pushed rest =>
      some ({ s with justPushed := s.pipe.notify pushed s.justPushed },
        if rest = [] then .returned else .pushLock rest)
  | .popLock left eager => s.lockBegin i (.popTest left eager)
  | .popTest left eager =>
      some (s, if s.pipe.bytesInUse = 0 then .popWait left eager else s.pipe.popPlan left eager)
  | .popWait left eager =>
      some ({ s with beginLock := s.beginLock.release i, justPushed := s.justPushed.wait i },
        .popAsleep left eager)
  | .popAsleep left eager =>
      if spurious = true ∨ ¬ s.justPushed.Asleep i then
        some ({ s with justPushed := s.justPushed.wake i }, .popLock left eager)
      else none
  | .popCopy (a :: todo) got snap left eager =>
      some (s.readCell snap a fun x => .popCopy todo (got ++ [x]) snap left eager)
  | .popCopy [] got snap left eager =>
      some (s.publishBegin i snap got,
        -- `trim_buffer` looks at its snapshot first, where `end` may be old
        if snap.capacity / 4 < snap.bytesInUse then
          .popSignal got.length (left - got.length) eager
        else .popTrimEnd got.length (left - got.length) eager)
  | .popTrimEnd popped left eager => s.lockEnd i (.popTrimBegin popped left eager)
  | .popTrimBegin popped left eager => s.lockBegin i (.popTrim popped left eager)
  | .popTrim popped left eager =>
      match s.pipe.trim with
      | none => some (s, .fault)
      | some pipe =>
          some ({ s with
            pipe
            beginLock := s.beginLock.release i
            endLock := s.endLock.release i }, .popSignal popped left eager)
  | .popSignal popped left eager =>
      some ({ s with justPopped := s.pipe.notify popped s.justPopped },
        if eager = true ∨ left = 0 then .returned else .popLock left eager)
  | .fault => none

end PipeShared

variable {ι α : Type} [DecidableEq ι]

/-- **A turn of a thread**: it goes on with its call, or makes the next. -/
def pipeTurn (spurious : Bool) (i : ι) (s : PipeShared ι α) (t : PipeUser α) :
    Option (PipeShared ι α × PipeUser α) :=
  match t.pos with
  | .returned =>
      match t.calls with
      | [] => none
      | call :: rest => some (s, ⟨call.entry s.pipe.elemSize, rest⟩)
  | pos => (s.callStep spurious i pos).map fun r => (r.1, ⟨r.2, t.calls⟩)

/-- The pipe with its threads. -/
abbrev PipeUsers (ι α : Type) := Config ι (PipeShared ι α) (PipeUser α)

/-- A pipe, and nobody at it yet. -/
def PipeUsers.start (p : PipeT α) (calls : ι → List (PipeCall α)) : PipeUsers ι α :=
  ⟨⟨p, .unheld, .unheld, .idle, .idle, [], []⟩, fun i => ⟨.returned, calls i⟩⟩

/-- A thread that is in a call goes on with it. -/
theorem pipeTurn_of_ne {spurious : Bool} {i : ι} {s : PipeShared ι α} {t : PipeUser α}
    (h : t.pos ≠ .returned) :
    pipeTurn spurious i s t = (s.callStep spurious i t.pos).map fun r => (r.1, ⟨r.2, t.calls⟩) := by
  obtain ⟨pos, calls⟩ := t
  cases pos with
  | returned => exact absurd rfl h
  | _ => rfl

/-- **A turn** makes the next call, or is a step of the one the thread is in. -/
theorem pipeTurn_eq_some {spurious : Bool} {i : ι} {s s' : PipeShared ι α} {t t' : PipeUser α}
    (h : pipeTurn spurious i s t = some (s', t')) :
    (∃ call rest, t = ⟨.returned, call :: rest⟩ ∧ s' = s ∧
      t' = ⟨call.entry s.pipe.elemSize, rest⟩) ∨
    (s.callStep spurious i t.pos = some (s', t'.pos) ∧ t'.calls = t.calls) := by
  by_cases hpos : t.pos = .returned
  · obtain ⟨pos, calls⟩ := t
    obtain rfl : pos = .returned := hpos
    cases calls with
    | nil => cases h
    | cons call rest =>
        obtain ⟨rfl, rfl⟩ := Prod.mk.inj (Option.some.inj h)
        exact .inl ⟨call, rest, rfl, rfl, rfl⟩
  · rw [pipeTurn_of_ne hpos] at h
    obtain ⟨⟨s₁, pos₁⟩, hstep, heq⟩ := Option.map_eq_some_iff.mp h
    obtain ⟨rfl, rfl⟩ := Prod.mk.inj heq
    exact .inr ⟨hstep, rfl⟩

end SosFlow
