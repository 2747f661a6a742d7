import SosFlow.Database.Snaps

/-!
# Flushing at shutdown

The listen loop pushes an ANNOUNCE, a PUBLISH or a VAL_SNAPS into the local
queue and acknowledges it. The thread `SOSD_THREAD_local_sync` pops one
message at a time and runs its handler, and the handlers leave their work for
the thread of the database. A SHUTDOWN is handled in the listen loop: it sets
`SOS->status`, and `main` then waits for the thread of the database.

That thread goes on while its own queue holds something. The thread before it
leaves as soon as it sees the status, whatever its queue holds, and nothing
makes the thread of the database wait for it. So what was acknowledged is kept
in the runs in which nothing is left in front of the thread of the database
when that leaves (`acknowledged_kept`), and is lost in others.
-/

namespace SosFlow

open Trace

/-- **A message that the listen loop acknowledges.** -/
inductive AckMsg where
  | announce (m : AnnounceMsg)
  | publish (m : PublishMsg)
  | valSnaps (g : SosGuid) (snaps : List SosValSnap)
deriving DecidableEq

namespace AckMsg

/-- Its snapshots, as they are for its pub. -/
def snaps : AckMsg → List SosValSnap
  | valSnaps g snaps => snaps.map fun snap => { snap with pubGuid := g }
  | _ => []

/-- What its handler does first. -/
def handler (clock : ℕ → Double) : AckMsg → DbStep
  | announce m => .announce m
  | publish m => .publish m
  | valSnaps g snaps => .valSnaps g snaps clock

end AckMsg

/-- Where `main` is. -/
inductive MainAt where
  | serving
  | replying (m : AckMsg)
  | joining
  | joined
deriving DecidableEq

/-- Where `SOSD_THREAD_local_sync` is. -/
inductive LocalAt where
  | testing
  | popping
  | holding (m : AckMsg)
  | finishing
  | left
deriving DecidableEq

/-- Where `SOSD_THREAD_db_sync` is. -/
inductive DbAt where
  | testing
  | popping
  | working
  | left
deriving DecidableEq

/-- The message that has been pushed and not yet acknowledged. -/
def MainAt.unacked : MainAt → List AckMsg
  | replying m => [m]
  | _ => []

/-- The message that has been popped and not yet handled. -/
def LocalAt.held : LocalAt → List AckMsg
  | holding m => [m]
  | _ => []

/-- No message is in the thread's hands. -/
def LocalAt.Idle (l : LocalAt) : Prop := l.held = [] ∧ l ≠ finishing

instance (l : LocalAt) : Decidable l.Idle := by
  unfold LocalAt.Idle
  infer_instance

/-- **The three threads**, with the messages that were acknowledged and those
that were applied to their pubs, oldest first. -/
structure FlushState where
  db : Database
  running : Bool
  main : MainAt
  acked : List AckMsg
  localQueue : List AckMsg
  localAt : LocalAt
  applied : List AckMsg
  dbAt : DbAt

/-- What one of the threads does next. -/
inductive FlushEvent where
  | receive (m : AckMsg)
  | ack
  | shutdown
  | join
  | localTest
  | localPop
  | localHandle (clock : ℕ → Double)
  | localFlag (g : SosGuid)
  | localPush (t : DbTask)
  | localDone
  | dbTest
  | dbPop
  | dbRun
  | dbInsert
  | dbDone

namespace FlushState

/-- A daemon with a database that has just started. -/
def start (config : SosConfig) (dbUpdateFrame : Bool) : FlushState :=
  ⟨.start config dbUpdateFrame, true, .serving, [], [], .testing, [], .testing⟩

variable (s : FlushState)

/-! ## The listen loop and `main` -/

/-- `SOSD_listen_loop` pushes a message. -/
def receive (m : AckMsg) : Option FlushState :=
  if s.main = .serving then
    some { s with localQueue := s.localQueue ++ [m], main := .replying m }
  else none

/-- It sends the ACK. -/
def ack : Option FlushState :=
  match s.main with
  | .replying m => some { s with acked := s.acked ++ [m], main := .serving }
  | _ => none

/-- `SOSD_handle_shutdown`, behind which the loop ends. -/
def shutdown : Option FlushState :=
  if s.main = .serving then some { s with running := false, main := .joining } else none

/-- `pthread_join` on the thread of the database. -/
def join : Option FlushState :=
  if s.main = .joining ∧ s.dbAt = .left then some { s with main := .joined } else none

/-! ## `SOSD_THREAD_local_sync` -/

/-- The test of its loop. -/
def localTest : Option FlushState :=
  if s.localAt = .testing then
    some { s with localAt := if s.running = true then .popping else .left }
  else none

/-- It pops a message, and blocks when there is none. -/
def localPop : Option FlushState :=
  match s.localQueue with
  | [] => none
  | m :: rest =>
      if s.localAt = .popping then some { s with localQueue := rest, localAt := .holding m }
      else none

/-- Its message is for a pub the daemon knows. An ANNOUNCE or a PUBLISH makes
its pub known. -/
def Known : AckMsg → Prop
  | .valSnaps g _ => s.db.daemon.pubTable g ≠ none
  | _ => True

instance (m : AckMsg) : Decidable (s.Known m) := by
  cases m <;> unfold Known <;> infer_instance

/-- The handler of its message. That of a VAL_SNAPS destroys what is for a pub
it does not know. -/
def localHandle (clock : ℕ → Double) : Option FlushState :=
  match s.localAt with
  | .holding m =>
      if s.Known m then
        (dbStep s.db (m.handler clock)).map fun db =>
          { s with db, localAt := .finishing, applied := s.applied ++ [m] }
      else some { s with localAt := .finishing }
  | _ => none

/-- What the handler does after that. -/
def localStep (step : DbStep) : Option FlushState :=
  if s.localAt = .finishing then (dbStep s.db step).map fun db => { s with db } else none

/-- The handler returns. What becomes of the message itself is no matter
here. -/
def localDone : Option FlushState :=
  if s.localAt = .finishing ∧ s.db.flagging = [] ∧ s.db.pushing = [] then
    some { s with localAt := .testing }
  else none

/-! ## `SOSD_THREAD_db_sync` -/

/-- The test of its loop. -/
def dbTest : Option FlushState :=
  if s.dbAt = .testing then
    some { s with
      dbAt := if s.running = true ∨ 0 < s.db.tasks.elemCount then .popping else .left }
  else none

/-- It takes a batch. -/
def dbPop : Option FlushState :=
  if s.dbAt = .popping then
    (dbStep s.db .pop).map fun db => { s with db, dbAt := .working }
  else none

/-- It goes on with its batch. -/
def dbWork (step : DbStep) : Option FlushState :=
  if s.dbAt = .working then (dbStep s.db step).map fun db => { s with db } else none

/-- The batch is done. -/
def dbDone : Option FlushState :=
  if s.dbAt = .working ∧ s.db.batch = [] ∧ s.db.grabbed = [] then
    some { s with dbAt := .testing }
  else none

end FlushState

/-- **One step** of one of the threads. -/
def flushStep (s : FlushState) : FlushEvent → Option FlushState
  | .receive m => s.receive m
  | .ack => s.ack
  | .shutdown => s.shutdown
  | .join => s.join
  | .localTest => s.localTest
  | .localPop => s.localPop
  | .localHandle clock => s.localHandle clock
  | .localFlag g => s.localStep (.flag g)
  | .localPush t => s.localStep (.push t)
  | .localDone => s.localDone
  | .dbTest => s.dbTest
  | .dbPop => s.dbPop
  | .dbRun => s.dbWork .run
  | .dbInsert => s.dbWork .insert
  | .dbDone => s.dbDone

namespace FlushState

/-- **What was acknowledged is kept**: once `main` has passed its join, every
message has been applied to its pub, and every snapshot has been inserted. -/
structure Kept (s : FlushState) : Prop where
  applied : s.main = .joined → s.applied = s.acked
  inserted : s.main = .joined → s.db.inserted = s.acked.flatMap AckMsg.snaps

/-- **The thread of the database leaves last**: when its test ends the loop,
the local queue is empty and no message is in the hands of the thread before it. And
what is handled is for a pub the daemon knows. -/
def LeavesLast (s : FlushState) : FlushEvent → Prop
  | .dbTest => s.running = false → s.db.tasks.elemCount ≤ 0 →
      s.localQueue = [] ∧ s.localAt.Idle
  | .localHandle _ => ∀ m ∈ s.localAt.held, s.Known m
  | _ => True

end FlushState

instance (s : FlushState) (e : FlushEvent) : Decidable (FlushState.LeavesLast s e) := by
  cases e <;> unfold FlushState.LeavesLast <;> infer_instance

/-! ## What the steps of the database leave alone -/

namespace Database

variable {s s' : Database}

/-- A step of a handler. -/
def Handles : DbStep → Prop
  | .pop => False
  | .run => False
  | .insert => False
  | _ => True

/-- **A handler** leaves the thread of the database its batch. -/
theorem handles_frame {step : DbStep} (hstep : Handles step) (h : dbStep s step = some s') :
    s'.batch = s.batch ∧ s'.grabbed = s.grabbed := by
  cases moves h with
  | pop => exact hstep.elim
  | run => exact hstep.elim
  | insert => exact hstep.elim
  | _ => exact ⟨rfl, rfl⟩

/-- **The thread of the database** leaves the handlers their tasks. -/
theorem thread_frame {step : DbStep} (hstep : ¬ Handles step) (h : dbStep s step = some s') :
    s'.flagging = s.flagging ∧ s'.pushing = s.pushing ∧ s'.pushed = s.pushed := by
  cases moves h with
  | pop => exact ⟨rfl, rfl, rfl⟩
  | @run t rest =>
      cases t with
      | announce g => exact ⟨rfl, rfl, rfl⟩
      | publish g => exact ⟨rfl, rfl, rfl⟩
      | valSnaps =>
          obtain ⟨snapQueue, grabbed, heq⟩ := grab_frame { s with batch := rest }
          rw [runTask, heq]
          exact ⟨rfl, rfl, rfl⟩
  | insert =>
      obtain ⟨tblPubs, tblData, pubNotes, valNotes, heq, -⟩ := s.insertVals_frame
      rw [heq]
      exact ⟨rfl, rfl, rfl⟩
  | _ => exact absurd trivial hstep

/-- Behind the test of `sync_pending` and the push of a task nothing else is
pushed. -/
theorem finishing_pushed {step : DbStep} (hstep : (∃ g, step = .flag g) ∨ ∃ t, step = .push t)
    (h : dbStep s step = some s') : s'.pushed = s.pushed := by
  obtain ⟨g, rfl⟩ | ⟨t, rfl⟩ := hstep
  · cases moves h with
    | flag => rfl
  · cases moves h with
    | push => rfl

/-- **The count of the tasks stays right.** -/
theorem counted_step (step : DbStep) (hs : s.tasks.Counted) (h : dbStep s step = some s') :
    s'.tasks.Counted := by
  cases moves h with
  | @push t ht => exact hs.push t
  | pop => exact hs.pop _
  | @run t rest =>
      cases t with
      | announce g => exact hs
      | publish g => exact hs
      | valSnaps =>
          obtain ⟨snapQueue, grabbed, heq⟩ := grab_frame { s with batch := rest }
          rw [runTask, heq]
          exact hs
  | insert =>
      obtain ⟨tblPubs, tblData, pubNotes, valNotes, heq, -⟩ := s.insertVals_frame
      rw [heq]
      exact hs
  | _ => exact hs

/-- **A pub is kept under its own guid.** -/
def Keyed (s : Database) : Prop := ∀ g, (s.daemon.pubFor g).guid = g

theorem keyed_start (config : SosConfig) (dbUpdateFrame : Bool) :
    Keyed (.start config dbUpdateFrame) := fun _ => rfl

/-- Putting a pub under its guid keeps it so. -/
theorem Keyed.putPub (h : s.Keyed) {g : SosGuid} (pub : SosPub) (hguid : pub.guid = g)
    (g' : SosGuid) : ((s.daemon.putPub g pub).pubFor g').guid = g' := by
  show ((if g' = g then some pub else s.daemon.pubTable g').getD (s.daemon.newPub g')).guid = g'
  split
  case isTrue heq => exact hguid.trans heq.symm
  case isFalse => exact h g'

theorem Keyed.step (step : DbStep) (hs : s.Keyed) (h : dbStep s step = some s') : s'.Keyed := by
  cases moves h with
  | announce m =>
      intro g
      exact hs.putPub { sosAnnounceFromBuffer (s.daemon.pubFor m.refGuid) m with
        announced := true } rfl g
  | @publish m d hd =>
      obtain ⟨pub, hpub, rfl⟩ := Option.map_eq_some_iff.mp hd
      have hguid : pub.guid = (s.daemon.pubFor m.refGuid).guid := by
        have hfield := congrArg SosPub.guid (receiveElems_republished hpub).rest
        exact hfield
      intro g
      exact hs.putPub pub (hguid.trans (hs m.refGuid)) g
  | @valSnaps g snaps clock d hd =>
      intro g'
      -- only the cache and the frame of a pub change
      have hcached : { d.pubFor g' with
          cache := (s.daemon.pubFor g').cache
          cacheHead := (s.daemon.pubFor g').cacheHead
          frame := (s.daemon.pubFor g').frame } = s.daemon.pubFor g' := hd.pub g'
      have hguid := congrArg SosPub.guid hcached
      exact Eq.trans hguid (hs g')
  | @run t rest =>
      cases t with
      | announce g => exact hs
      | publish g =>
          intro g'
          exact hs.putPub (s.daemon.pubFor g).stored (hs g) g'
      | valSnaps =>
          obtain ⟨snapQueue, grabbed, heq⟩ := grab_frame { s with batch := rest }
          rw [runTask, heq]
          exact hs
  | insert =>
      obtain ⟨tblPubs, tblData, pubNotes, valNotes, heq, -⟩ := s.insertVals_frame
      rw [heq]
      exact hs
  | _ => exact hs

end Database

/-! ## The invariant -/

/-- **What holds between any two steps** that meet the condition: the messages
are in the order in which they were received, and a thread that is between two
turns of its loop has nothing in its hands. -/
structure FlushInv (s : FlushState) : Prop where
  snaps : s.db.SnapsInv
  counted : s.db.tasks.Counted
  keyed : s.db.Keyed
  order : s.applied ++ s.localAt.held ++ s.localQueue = s.acked ++ s.main.unacked
  pushed : s.db.pushed = s.applied.flatMap AckMsg.snaps
  quiet : s.localAt ≠ .finishing → s.db.flagging = [] ∧ s.db.pushing = []
  rested : s.dbAt ≠ .working → s.db.batch = [] ∧ s.db.grabbed = []
  serving : s.running = true → s.main ≠ .joining ∧ s.main ≠ .joined
  stopped : s.running = false → s.main = .joining ∨ s.main = .joined
  left : s.dbAt = .left → s.running = false ∧ s.localQueue = [] ∧ s.localAt.Idle ∧
    s.db.tasks.items = []
  joined : s.main = .joined → s.dbAt = .left

namespace FlushInv

open FlushState

variable {s s' : FlushState}

theorem start (config : SosConfig) (dbUpdateFrame : Bool) :
    FlushInv (.start config dbUpdateFrame) where
  snaps := .start config dbUpdateFrame
  counted := SosPipe.counted_empty
  keyed := Database.keyed_start config dbUpdateFrame
  order := rfl
  pushed := rfl
  quiet _ := ⟨rfl, rfl⟩
  rested _ := ⟨rfl, rfl⟩
  serving _ := by simp [FlushState.start]
  stopped h := by cases h
  left h := by cases h
  joined h := by cases h

/-- A daemon whose `main` does not wait for the thread of the database has not
stopped. -/
theorem running_of (h : FlushInv s) (hjoining : s.main ≠ .joining) (hjoined : s.main ≠ .joined) :
    s.running = true := by
  by_contra hne
  rcases h.stopped (Bool.eq_false_of_not_eq_true hne) with hmain | hmain
  · exact hjoining hmain
  · exact hjoined hmain

/-- Nor has the thread of the database left it. -/
theorem not_left_of_running (h : FlushInv s) (hrunning : s.running = true) : s.dbAt ≠ .left := by
  intro hleft
  have hstopped := (h.left hleft).1
  rw [hrunning] at hstopped
  cases hstopped

/-! ### The listen loop -/

theorem receive (h : FlushInv s) {m : AckMsg} (hstep : s.receive m = some s') : FlushInv s' := by
  obtain ⟨hmain, heq⟩ := Option.ite_none_right_eq_some.mp hstep
  cases heq
  have hrunning := h.running_of (by rw [hmain]; simp) (by rw [hmain]; simp)
  have hleft := h.not_left_of_running hrunning
  refine { h with order := ?_, serving := ?_, stopped := ?_, left := ?_, joined := ?_ }
  -- the message is last on both sides: in the queue, and not acknowledged yet
  · show s.applied ++ s.localAt.held ++ (s.localQueue ++ [m]) = s.acked ++ [m]
    have horder := h.order
    rw [hmain] at horder
    rw [← List.append_assoc, horder]
    exact congrArg (· ++ [m]) (List.append_nil _)
  · intro _
    simp
  · intro hstopped
    rw [hrunning] at hstopped
    cases hstopped
  · intro hdb
    exact absurd hdb hleft
  · intro hjoined
    cases hjoined

theorem ack (h : FlushInv s) (hstep : s.ack = some s') : FlushInv s' := by
  cases hmain : s.main with
  | replying m =>
      rw [FlushState.ack, hmain] at hstep
      cases hstep
      have hrunning := h.running_of (by rw [hmain]; simp) (by rw [hmain]; simp)
      refine { h with order := ?_, serving := ?_, stopped := ?_, joined := ?_ }
      · have horder := h.order
        rw [hmain] at horder
        show s.applied ++ s.localAt.held ++ s.localQueue = s.acked ++ [m] ++ []
        rw [List.append_nil]
        exact horder
      · intro _
        simp
      · intro hstopped
        rw [hrunning] at hstopped
        cases hstopped
      · intro hjoined
        cases hjoined
  | serving =>
      rw [FlushState.ack, hmain] at hstep
      cases hstep
  | joining =>
      rw [FlushState.ack, hmain] at hstep
      cases hstep
  | joined =>
      rw [FlushState.ack, hmain] at hstep
      cases hstep

theorem shutdown (h : FlushInv s) (hstep : s.shutdown = some s') : FlushInv s' := by
  obtain ⟨hmain, heq⟩ := Option.ite_none_right_eq_some.mp hstep
  cases heq
  have hrunning := h.running_of (by rw [hmain]; simp) (by rw [hmain]; simp)
  have hleft := h.not_left_of_running hrunning
  refine { h with order := ?_, serving := ?_, stopped := ?_, left := ?_, joined := ?_ }
  · have horder := h.order
    rw [hmain] at horder
    exact horder
  · intro hstill
    cases hstill
  · intro _
    exact .inl rfl
  · intro hdb
    exact absurd hdb hleft
  · intro hjoined
    cases hjoined

theorem join (h : FlushInv s) (hstep : s.join = some s') : FlushInv s' := by
  obtain ⟨⟨hmain, hleft⟩, heq⟩ := Option.ite_none_right_eq_some.mp hstep
  cases heq
  have hstopped := (h.left hleft).1
  refine { h with order := ?_, serving := ?_, stopped := ?_, joined := ?_ }
  · have horder := h.order
    rw [hmain] at horder
    exact horder
  · intro hrunning
    rw [hstopped] at hrunning
    cases hrunning
  · intro _
    exact .inr rfl
  · intro _
    exact hleft

/-! ### The local thread -/

/-- **A thread at rest moves** to another place at which it has no message. -/
theorem moveLocal (h : FlushInv s) {l : LocalAt} (hheld : s.localAt.held = []) (hl : l.Idle)
    (hquiet : s.db.flagging = [] ∧ s.db.pushing = []) : FlushInv { s with localAt := l } := by
  refine { h with order := ?_, quiet := ?_, left := ?_ }
  · have horder := h.order
    rw [hheld] at horder
    show s.applied ++ l.held ++ s.localQueue = _
    rw [hl.1]
    exact horder
  · intro _
    exact hquiet
  · intro hleft
    obtain ⟨hstopped, hqueue, -, htasks⟩ := h.left hleft
    exact ⟨hstopped, hqueue, hl, htasks⟩

theorem localTest (h : FlushInv s) (hstep : s.localTest = some s') : FlushInv s' := by
  obtain ⟨hat, heq⟩ := Option.ite_none_right_eq_some.mp hstep
  cases heq
  refine h.moveLocal (by rw [hat]; rfl) ?_ (h.quiet (by rw [hat]; simp))
  split <;> exact ⟨rfl, by simp⟩

theorem localPop (h : FlushInv s) (hstep : s.localPop = some s') : FlushInv s' := by
  unfold FlushState.localPop at hstep
  cases hqueue : s.localQueue with
  | nil =>
      rw [hqueue] at hstep
      cases hstep
  | cons m rest =>
      rw [hqueue] at hstep
      obtain ⟨hat, heq⟩ := Option.ite_none_right_eq_some.mp hstep
      cases heq
      refine { h with order := ?_, quiet := ?_, left := ?_ }
      · have horder := h.order
        rw [hat, hqueue] at horder
        show s.applied ++ [m] ++ rest = _
        rw [List.append_assoc, List.singleton_append]
        rw [show s.applied ++ LocalAt.popping.held = s.applied from List.append_nil _] at horder
        exact horder
      · intro _
        exact h.quiet (by rw [hat]; simp)
      · intro hleft
        have hempty := (h.left hleft).2.1
        rw [hqueue] at hempty
        cases hempty

/-- The snapshots that the handler of a message pushes. -/
theorem pushed_handler {clock : ℕ → Double} {m : AckMsg} {db : Database} (hkeyed : s.db.Keyed)
    (hknown : s.Known m) (hdb : dbStep s.db (m.handler clock) = some db) :
    db.pushed = s.db.pushed ++ m.snaps := by
  cases m with
  | announce m =>
      cases hdb
      exact (List.append_nil _).symm
  | publish m =>
      obtain ⟨d, -, rfl⟩ := Option.map_eq_some_iff.mp hdb
      exact (List.append_nil _).symm
  | valSnaps g snaps =>
      obtain ⟨pub, hpub⟩ := Option.ne_none_iff_exists'.mp hknown
      have hguid : pub.guid = g := by
        have hkey := hkeyed g
        rw [Daemon.pubFor, hpub, Option.getD_some] at hkey
        exact hkey
      have hpushes : s.db.daemon.pushes g snaps = (AckMsg.valSnaps g snaps).snaps := by
        rw [Daemon.pushes, hpub, ← hguid]
        rfl
      change s.db.valSnaps g snaps clock = some db at hdb
      rw [Database.valSnaps, if_neg hknown] at hdb
      obtain ⟨d, -, rfl⟩ := Option.map_eq_some_iff.mp hdb
      exact congrArg (s.db.pushed ++ ·) hpushes

theorem localHandle (h : FlushInv s) {clock : ℕ → Double}
    (hok : s.LeavesLast (.localHandle clock)) (hstep : s.localHandle clock = some s') :
    FlushInv s' := by
  unfold FlushState.localHandle at hstep
  cases hat : s.localAt with
  | holding m =>
      rw [hat] at hstep
      have hknown : s.Known m := hok m (by rw [hat]; exact List.mem_singleton_self m)
      have hheld : s.localAt.held = [m] := by rw [hat]; rfl
      change (if s.Known m then _ else _) = some s' at hstep
      rw [if_pos hknown] at hstep
      obtain ⟨db, hdb, rfl⟩ := Option.map_eq_some_iff.mp hstep
      have hhandles : Database.Handles (m.handler clock) := by cases m <;> trivial
      obtain ⟨hbatch, hgrabbed⟩ := Database.handles_frame hhandles hdb
      refine { h with
        snaps := h.snaps.step _ _ _ hdb
        counted := Database.counted_step _ h.counted hdb
        keyed := h.keyed.step _ hdb
        order := ?_, pushed := ?_, quiet := ?_, rested := ?_, left := ?_ }
      · have horder := h.order
        rw [hheld] at horder
        show s.applied ++ [m] ++ [] ++ s.localQueue = _
        rw [List.append_nil]
        exact horder
      · show db.pushed = (s.applied ++ [m]).flatMap AckMsg.snaps
        rw [pushed_handler h.keyed hknown hdb, h.pushed, List.flatMap_append, List.flatMap_singleton]
      · intro hne
        exact absurd rfl hne
      · intro hne
        exact ⟨hbatch.trans (h.rested hne).1, hgrabbed.trans (h.rested hne).2⟩
      -- the thread of the database would have left a message in its hands
      · intro hleft
        have hidle := (h.left hleft).2.2.1.1
        rw [hheld] at hidle
        cases hidle
  | testing =>
      rw [hat] at hstep
      cases hstep
  | popping =>
      rw [hat] at hstep
      cases hstep
  | finishing =>
      rw [hat] at hstep
      cases hstep
  | left =>
      rw [hat] at hstep
      cases hstep

theorem localStep (h : FlushInv s) {step : DbStep}
    (hkind : (∃ g, step = .flag g) ∨ ∃ t, step = .push t) (hstep : s.localStep step = some s') :
    FlushInv s' := by
  obtain ⟨hat, heq⟩ := Option.ite_none_right_eq_some.mp hstep
  obtain ⟨db, hdb, rfl⟩ := Option.map_eq_some_iff.mp heq
  have hhandles : Database.Handles step := by
    obtain ⟨g, rfl⟩ | ⟨t, rfl⟩ := hkind <;> trivial
  obtain ⟨hbatch, hgrabbed⟩ := Database.handles_frame hhandles hdb
  refine { h with
    snaps := h.snaps.step _ _ _ hdb
    counted := Database.counted_step _ h.counted hdb
    keyed := h.keyed.step _ hdb
    pushed := (Database.finishing_pushed hkind hdb).trans h.pushed
    quiet := ?_, rested := ?_, left := ?_ }
  · intro hne
    exact absurd hat hne
  · intro hne
    exact ⟨hbatch.trans (h.rested hne).1, hgrabbed.trans (h.rested hne).2⟩
  · intro hleft
    exact absurd hat (h.left hleft).2.2.1.2

theorem localDone (h : FlushInv s) (hstep : s.localDone = some s') : FlushInv s' := by
  obtain ⟨⟨hat, hquiet⟩, heq⟩ := Option.ite_none_right_eq_some.mp hstep
  cases heq
  exact h.moveLocal (by rw [hat]; rfl) ⟨rfl, by simp⟩ hquiet

/-! ### The thread of the database -/

theorem dbTest (h : FlushInv s) (hok : s.LeavesLast .dbTest) (hstep : s.dbTest = some s') :
    FlushInv s' := by
  obtain ⟨hat, heq⟩ := Option.ite_none_right_eq_some.mp hstep
  cases heq
  have hrested := h.rested (by rw [hat]; simp)
  have hmain : s.main ≠ .joined := by
    intro hjoined
    have hleft := h.joined hjoined
    rw [hat] at hleft
    cases hleft
  refine { h with rested := fun _ => hrested, left := ?_, joined := fun hj => absurd hj hmain }
  intro hleft
  change (if s.running = true ∨ 0 < s.db.tasks.elemCount then DbAt.popping else DbAt.left) = _
    at hleft
  split at hleft
  · cases hleft
  -- the loop ends on the count of the pipe, which is the length of its list
  · rename_i hends
    rw [not_or, Bool.not_eq_true, not_lt] at hends
    obtain ⟨hqueue, hidle⟩ := hok hends.1 hends.2
    have hcount : s.db.tasks.elemCount = s.db.tasks.items.length := h.counted
    have hle := hends.2
    have htasks : s.db.tasks.items = [] := List.eq_nil_of_length_eq_zero (by omega)
    exact ⟨hends.1, hqueue, hidle, htasks⟩

/-- **The thread works** on what it has popped. -/
theorem work (h : FlushInv s) {step : DbStep} (hkind : ¬ Database.Handles step) {db : Database}
    (hdb : dbStep s.db step = some db) (hat : s.dbAt ≠ .left) :
    FlushInv { s with db, dbAt := .working } := by
  obtain ⟨hflagging, hpushing, hpushed⟩ := Database.thread_frame hkind hdb
  refine { h with
    snaps := h.snaps.step _ _ _ hdb
    counted := Database.counted_step _ h.counted hdb
    keyed := h.keyed.step _ hdb
    pushed := hpushed.trans h.pushed
    quiet := ?_, rested := ?_, left := ?_, joined := ?_ }
  · intro hne
    exact ⟨hflagging.trans (h.quiet hne).1, hpushing.trans (h.quiet hne).2⟩
  · intro hne
    exact absurd rfl hne
  · intro hleft
    cases hleft
  · intro hjoined
    exact absurd (h.joined hjoined) hat

theorem dbPop (h : FlushInv s) (hstep : s.dbPop = some s') : FlushInv s' := by
  obtain ⟨hat, heq⟩ := Option.ite_none_right_eq_some.mp hstep
  obtain ⟨db, hdb, rfl⟩ := Option.map_eq_some_iff.mp heq
  exact h.work id hdb (by rw [hat]; simp)

theorem dbWork (h : FlushInv s) {step : DbStep} (hkind : ¬ Database.Handles step)
    (hstep : s.dbWork step = some s') : FlushInv s' := by
  obtain ⟨hat, heq⟩ := Option.ite_none_right_eq_some.mp hstep
  obtain ⟨db, hdb, rfl⟩ := Option.map_eq_some_iff.mp heq
  have hwork := h.work hkind hdb (by rw [hat]; simp)
  rw [← hat] at hwork
  exact hwork

theorem dbDone (h : FlushInv s) (hstep : s.dbDone = some s') : FlushInv s' := by
  obtain ⟨⟨hat, hrested⟩, heq⟩ := Option.ite_none_right_eq_some.mp hstep
  cases heq
  refine { h with rested := fun _ => hrested, left := ?_, joined := ?_ }
  · intro hleft
    cases hleft
  · intro hjoined
    have hleft := h.joined hjoined
    rw [hat] at hleft
    cases hleft

/-! ### Every step -/

/-- **Every step that meets the condition** keeps the invariant. -/
theorem step (s : FlushState) (e : FlushEvent) (s' : FlushState) (h : FlushInv s)
    (hok : s.LeavesLast e) (hstep : flushStep s e = some s') : FlushInv s' := by
  cases e with
  | receive m => exact h.receive hstep
  | ack => exact h.ack hstep
  | shutdown => exact h.shutdown hstep
  | join => exact h.join hstep
  | localTest => exact h.localTest hstep
  | localPop => exact h.localPop hstep
  | localHandle clock => exact h.localHandle hok hstep
  | localFlag g => exact h.localStep (.inl ⟨g, rfl⟩) hstep
  | localPush t => exact h.localStep (.inr ⟨t, rfl⟩) hstep
  | localDone => exact h.localDone hstep
  | dbTest => exact h.dbTest hok hstep
  | dbPop => exact h.dbPop hstep
  | dbRun => exact h.dbWork id hstep
  | dbInsert => exact h.dbWork id hstep
  | dbDone => exact h.dbDone hstep

/-- **Nothing is left** anywhere once the thread of the database has left. -/
theorem kept (h : FlushInv s) : s.Kept := by
  have happlied : s.main = .joined → s.applied = s.acked := by
    intro hjoined
    obtain ⟨-, hqueue, hidle, -⟩ := h.left (h.joined hjoined)
    have horder := h.order
    rw [hqueue, hidle.1, hjoined, List.append_nil, List.append_nil] at horder
    exact horder.trans (List.append_nil _)
  refine ⟨happlied, ?_⟩
  intro hjoined
  have hleft := h.joined hjoined
  obtain ⟨-, -, hidle, htasks⟩ := h.left hleft
  obtain ⟨hbatch, hgrabbed⟩ := h.rested (by rw [hleft]; simp)
  -- a snapshot in the queue has its task somewhere, and there is none left
  have hempty : s.db.daemon.queue.items = [] := by
    by_contra hne
    have hmem := h.snaps.awaited hne
    rw [Database.outstanding, (h.quiet hidle.2).2, htasks, hbatch] at hmem
    cases hmem
  have horder := h.snaps.order
  rw [hgrabbed, hempty, List.append_nil, List.append_nil] at horder
  rw [← horder, h.pushed, happlied hjoined]

end FlushInv

open FlushState

/-- **What was acknowledged is kept** in every run in which the thread of the
database leaves last. -/
theorem acknowledged_kept {config : SosConfig} {dbUpdateFrame : Bool} {events : List FlushEvent}
    {s : FlushState} (hok : Along flushStep LeavesLast (.start config dbUpdateFrame) events)
    (hrun : run flushStep (.start config dbUpdateFrame) events = some s) : s.Kept :=
  (run_invariant FlushInv.step (FlushInv.start config dbUpdateFrame) hok hrun).kept

/-- One snapshot of a pub that was announced, flushed before the thread of the
database leaves. -/
def flushedEvents : List FlushEvent :=
  [.receive (.announce (sosPubInit plainConfig 5 .empty 0).announceMsg), .ack,
    .receive (.valSnaps 5 [default]), .ack, .localTest, .localPop, .localHandle fun _ => 0,
    .localPush (.announce 5), .localDone, .localTest, .localPop, .shutdown,
    .localHandle fun _ => 0, .localPush .valSnaps, .localDone, .localTest, .dbTest, .dbPop, .dbRun,
    .dbRun, .dbInsert, .dbDone, .dbTest, .join]

theorem acknowledged_kept_flushed :
    ∃ s, run flushStep (.start plainConfig true) flushedEvents = some s ∧ s.Kept ∧
      s.main = .joined ∧ s.acked.length = 2 := by
  have hruns : ((run flushStep (.start plainConfig true) flushedEvents).map fun s =>
      (s.main, s.acked.length)) = some (.joined, 2) := by decide
  have halong : Along flushStep LeavesLast (.start plainConfig true) flushedEvents := by decide
  obtain ⟨s, hs, heq⟩ := Option.map_eq_some_iff.mp hruns
  obtain ⟨hmain, hlen⟩ := Prod.mk.inj heq
  exact ⟨s, hs, acknowledged_kept halong hs, hmain, hlen⟩

/-- An ANNOUNCE that is acknowledged, and a SHUTDOWN behind it. -/
def lostEvents : List FlushEvent :=
  [.receive (.announce (sosPubInit plainConfig 5 .empty 0).announceMsg), .ack, .shutdown, .dbTest,
    .join]

/-- **An acknowledged message is lost**: it is in the local queue when both
threads leave. -/
theorem not_acknowledged_kept :
    ¬ ∀ events s, run flushStep (.start plainConfig true) events = some s → s.Kept := by
  intro hall
  have hruns : ((run flushStep (.start plainConfig true) lostEvents).map fun s =>
      (s.main, s.applied.length, s.acked.length)) = some (.joined, 0, 1) := by decide
  obtain ⟨s, hs, heq⟩ := Option.map_eq_some_iff.mp hruns
  obtain ⟨hmain, hrest⟩ := Prod.mk.inj heq
  obtain ⟨happlied, hacked⟩ := Prod.mk.inj hrest
  have hkept := congrArg List.length ((hall lostEvents s hs).applied hmain)
  rw [happlied, hacked] at hkept
  cases hkept

/-! ## A shutdown of a drained daemon -/

namespace FlushState

/-- **The SHUTDOWN finds the local queue empty** and the local thread at rest. -/
def ShutWhenDrained (s : FlushState) : FlushEvent → Prop
  | .shutdown => s.localQueue = [] ∧ s.localAt.Idle
  | .localHandle _ => ∀ m ∈ s.localAt.held, s.Known m
  | _ => True

/-- Once the daemon has stopped, no message is in front of the thread of the
database. -/
def Drained (s : FlushState) : Prop :=
  s.running = false → s.localQueue = [] ∧ s.localAt.Idle ∧ (s.main = .joining ∨ s.main = .joined)

variable {s s' : FlushState}

/-- While the main thread is in its loop the daemon has not stopped. -/
theorem Drained.of_listening (h : s.Drained) (hjoining : s.main ≠ .joining)
    (hjoined : s.main ≠ .joined) (hrunning : s'.running = s.running) : s'.Drained := by
  intro hstopped
  rw [hrunning] at hstopped
  exact absurd (h hstopped).2.2 (not_or.mpr ⟨hjoining, hjoined⟩)

theorem Drained.receive {m : AckMsg} (h : s.Drained) (hstep : flushStep s (.receive m) = some s') :
    s'.Drained := by
  obtain ⟨hmain, heq⟩ := Option.ite_none_right_eq_some.mp hstep
  cases heq
  exact h.of_listening (by simp [hmain]) (by simp [hmain]) rfl

theorem Drained.ack (h : s.Drained) (hstep : s.ack = some s') : s'.Drained := by
  unfold FlushState.ack at hstep
  split at hstep
  case h_1 m hmain =>
    cases hstep
    exact h.of_listening (by simp [hmain]) (by simp [hmain]) rfl
  case h_2 => cases hstep

theorem Drained.join (h : s.Drained) (hstep : flushStep s .join = some s') : s'.Drained := by
  obtain ⟨-, heq⟩ := Option.ite_none_right_eq_some.mp hstep
  cases heq
  intro hstopped
  obtain ⟨hqueue, hidle, -⟩ := h hstopped
  exact ⟨hqueue, hidle, .inr rfl⟩

/-- The local thread looks at the status, or comes to its end: it is at rest. -/
theorem Drained.localTest (h : s.Drained) (hstep : flushStep s .localTest = some s') :
    s'.Drained := by
  obtain ⟨-, heq⟩ := Option.ite_none_right_eq_some.mp hstep
  cases heq
  intro hstopped
  obtain ⟨hqueue, -, hmain⟩ := h hstopped
  refine ⟨hqueue, ?_, hmain⟩
  show LocalAt.Idle (if s.running = true then _ else _)
  split <;> exact ⟨rfl, by simp⟩

theorem Drained.localDone (h : s.Drained) (hstep : flushStep s .localDone = some s') :
    s'.Drained := by
  obtain ⟨-, heq⟩ := Option.ite_none_right_eq_some.mp hstep
  cases heq
  intro hstopped
  obtain ⟨hqueue, -, hmain⟩ := h hstopped
  exact ⟨hqueue, ⟨rfl, by simp⟩, hmain⟩

/-- There is nothing to pop once the daemon has stopped. -/
theorem Drained.localPop (h : s.Drained) (hstep : s.localPop = some s') : s'.Drained := by
  unfold FlushState.localPop at hstep
  split at hstep
  case h_1 => cases hstep
  case h_2 m rest hqueue =>
    obtain ⟨-, heq⟩ := Option.ite_none_right_eq_some.mp hstep
    cases heq
    intro hstopped
    have hempty := (h hstopped).1
    rw [hqueue] at hempty
    cases hempty

/-- Nor is there a message in hand. -/
theorem Drained.localHandle {clock : ℕ → Double} (h : s.Drained)
    (hstep : s.localHandle clock = some s') : s'.Drained := by
  unfold FlushState.localHandle at hstep
  split at hstep
  case h_1 m hat =>
    have hrunning : s.running ≠ false := by
      intro hstopped
      have hheld := (h hstopped).2.1.1
      rw [hat] at hheld
      cases hheld
    split at hstep
    · obtain ⟨db, -, rfl⟩ := Option.map_eq_some_iff.mp hstep
      exact fun hstopped => absurd hstopped hrunning
    · cases hstep
      exact fun hstopped => absurd hstopped hrunning
  case h_2 => cases hstep

/-- A step on the database leaves the rest as it is. -/
theorem Drained.of_db {p : Prop} [Decidable p] {db : Option Database} (h : s.Drained)
    (hstep : (if p then db.map fun db => { s with db } else none) = some s') : s'.Drained := by
  obtain ⟨-, heq⟩ := Option.ite_none_right_eq_some.mp hstep
  obtain ⟨db, -, rfl⟩ := Option.map_eq_some_iff.mp heq
  exact h

theorem Drained.step (s : FlushState) (e : FlushEvent) (s' : FlushState) (h : s.Drained)
    (hok : s.ShutWhenDrained e) (hstep : flushStep s e = some s') : s'.Drained := by
  cases e with
  | receive m => exact h.receive hstep
  | ack => exact h.ack hstep
  | shutdown =>
      obtain ⟨-, heq⟩ := Option.ite_none_right_eq_some.mp hstep
      cases heq
      intro _
      exact ⟨hok.1, hok.2, .inl rfl⟩
  | join => exact h.join hstep
  | localTest => exact h.localTest hstep
  | localPop => exact h.localPop hstep
  | localHandle clock => exact h.localHandle hstep
  | localFlag g => exact h.of_db hstep
  | localPush t => exact h.of_db hstep
  | localDone => exact h.localDone hstep
  | dbTest =>
      obtain ⟨-, heq⟩ := Option.ite_none_right_eq_some.mp hstep
      cases heq
      exact h
  | dbPop =>
      obtain ⟨-, heq⟩ := Option.ite_none_right_eq_some.mp hstep
      obtain ⟨db, -, rfl⟩ := Option.map_eq_some_iff.mp heq
      exact h
  | dbRun => exact h.of_db hstep
  | dbInsert => exact h.of_db hstep
  | dbDone =>
      obtain ⟨-, heq⟩ := Option.ite_none_right_eq_some.mp hstep
      cases heq
      exact h

/-- A drained daemon's thread of the database leaves last. -/
theorem Drained.leavesLast (h : s.Drained) {e : FlushEvent} (hok : s.ShutWhenDrained e) :
    s.LeavesLast e := by
  cases e with
  | dbTest =>
      intro hstopped _
      exact ⟨(h hstopped).1, (h hstopped).2.1⟩
  | localHandle clock => exact hok
  | _ => trivial

end FlushState

/-- **Nothing is lost by a SHUTDOWN that finds the local queue empty.** -/
theorem kept_of_drained {config : SosConfig} {dbUpdateFrame : Bool} {events : List FlushEvent}
    {s : FlushState} (hok : Along flushStep ShutWhenDrained (.start config dbUpdateFrame) events)
    (hrun : run flushStep (.start config dbUpdateFrame) events = some s) : s.Kept := by
  have hstep : ∀ s e s', (FlushInv s ∧ s.Drained) → s.ShutWhenDrained e →
      flushStep s e = some s' → FlushInv s' ∧ s'.Drained := by
    intro s e s' hs hok hstep
    exact ⟨hs.1.step _ _ _ (hs.2.leavesLast hok) hstep, hs.2.step _ _ _ hok hstep⟩
  have hstart : FlushInv (.start config dbUpdateFrame) ∧ (start config dbUpdateFrame).Drained :=
    ⟨.start config dbUpdateFrame, fun hstopped => by cases hstopped⟩
  exact (run_invariant hstep hstart hok hrun).1.kept

end SosFlow
