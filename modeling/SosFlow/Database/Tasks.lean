import SosFlow.Database.Tables
import SosFlow.Daemon.Elements
import SosFlow.Lib.Trace

/-!
# The handlers and the thread of the database

A handler of the daemon does its part under the lock of the pub or of
`SOSD.db.snap_queue`, and then pushes a task for the thread of the database
under another lock. That thread pops at most 256 tasks at a time and runs
them in order.

A step below is what one of them does while it holds a lock, and between two
locks of a call any other may step. `flagging` and `pushing` hold what the
handlers still have to do. The pubs of the tables are never destroyed, so a
task names its pub by the guid; a task for a query changes nothing here and
is left out, and so is the check of `announced` for the value 1, which a
daemon's pub does not have.
-/

namespace SosFlow

/-- **`SOSD_db_task`.** -/
inductive DbTask where
  | announce (g : SosGuid)
  | publish (g : SosGuid)
  | valSnaps
deriving DecidableEq

/-- What happens to an element: an ANNOUNCE marks it, a PUBLISH of its pub is
handled, it is inserted as a row. -/
inductive DbEvent where
  | marked (g : SosGuid) (pos : ℕ) (type : ValType)
  | handled (g : SosGuid)
  | inserted (g : SosGuid) (pos : ℕ) (columns : DataColumns)
deriving DecidableEq

/-- **The daemon and its database.** `grabbed` is the snapshots the thread has
popped and not yet inserted. `pushed`, `inserted` and `log` are what
happened so far, oldest first. -/
structure Database where
  daemon : Daemon
  dbUpdateFrame : Bool
  syncPending : SosGuid → CInt
  flagging : List SosGuid
  pushing : List DbTask
  tasks : SosPipe DbTask
  batch : List DbTask
  grabbed : List SosValSnap
  tblPubs : List (DbRow PubColumns)
  tblData : List (DbRow DataColumns)
  tblVals : List ValRow
  pubNotes : List FrameNote
  valNotes : List FrameNote
  pushed : List SosValSnap
  inserted : List SosValSnap
  log : List DbEvent

/-- A step of a handler, or of the thread of the database. -/
inductive DbStep where
  | announce (m : AnnounceMsg)
  | publish (m : PublishMsg)
  | flag (g : SosGuid)
  | valSnaps (g : SosGuid) (snaps : List SosValSnap) (clock : ℕ → Double)
  | push (t : DbTask)
  | pop
  | run
  | insert

namespace Database

/-- A daemon that has just started, with its tables empty. -/
def start (config : SosConfig) (dbUpdateFrame : Bool) : Database where
  daemon := .start config (some .empty)
  dbUpdateFrame := dbUpdateFrame
  syncPending _ := 0
  flagging := []
  pushing := []
  tasks := .empty
  batch := []
  grabbed := []
  tblPubs := []
  tblData := []
  tblVals := []
  pubNotes := []
  valNotes := []
  pushed := []
  inserted := []
  log := []

variable (s : Database)

/-! ## The handlers -/

/-- The elements an ANNOUNCE marks. -/
def marks (m : AnnounceMsg) : List DbEvent :=
  (m.elems.zipIdx 0).filterMap fun p =>
    if ((s.daemon.pubFor m.refGuid).elemOr p.2).Redefined p.1 then
      some (.marked m.refGuid p.2 p.1.type)
    else none

/-- **`SOSD_handle_announce`**, up to the push that follows the first one. -/
def announce (m : AnnounceMsg) : Database :=
  { s with
    daemon := s.daemon.handleAnnounce m
    pushing := s.pushing ++
      (if s.daemon.pubTable m.refGuid = none then [.announce m.refGuid] else [])
    log := s.log ++ s.marks m }

/-- **`SOSD_handle_publish`**, up to its test of `sync_pending`. -/
def publish (m : PublishMsg) : Option Database :=
  (s.daemon.handlePublish m).map fun d =>
    { s with daemon := d, flagging := s.flagging ++ [m.refGuid] }

/-- The test of `sync_pending`, up to the push that follows if it was zero. -/
def flag (g : SosGuid) : Database :=
  { s with
    flagging := s.flagging.erase g
    syncPending := if s.syncPending g = 0 then Function.update s.syncPending g 1 else s.syncPending
    pushing := if s.syncPending g = 0 then s.pushing ++ [.publish g] else s.pushing
    log := s.log ++ [.handled g] }

/-- **`SOSD_handle_val_snaps`**, up to the push of its task. -/
def valSnaps (g : SosGuid) (snaps : List SosValSnap) (clock : ℕ → Double) : Option Database :=
  if s.daemon.pubTable g = none then some s
  else (s.daemon.handleValSnaps g snaps clock).toOption.map fun d =>
    { s with
      daemon := d
      pushing := s.pushing ++ [.valSnaps]
      pushed := s.pushed ++ s.daemon.pushes g snaps }

/-- The push of a task. -/
def push (t : DbTask) : Database :=
  { s with pushing := s.pushing.erase t, tasks := s.tasks.push t }

/-! ## The thread -/

/-- The most that is popped at a time. -/
def batchMax : ℕ := 256

/-- **`SOSD_THREAD_db_sync`** takes a batch. -/
def pop : Database :=
  let queueDepth := min s.tasks.elemCount batchMax
  { s with
    batch := (s.tasks.pop queueDepth.toNat).1
    tasks := (s.tasks.pop queueDepth.toNat).2 }

/-- **`SOSD_db_insert_pub`.** -/
def insertPub (g : SosGuid) : Database :=
  { s with tblPubs := s.tblPubs ++ [⟨(s.daemon.pubFor g).columns, 0⟩] }

/-- **`SOSD_db_insert_data`.** -/
def insertData (g : SosGuid) : Database :=
  let pub := s.daemon.pubFor g
  { s with
    daemon := s.daemon.putPub g pub.stored
    syncPending := Function.update s.syncPending g 0
    tblData := s.tblData ++ pub.toInsert.map fun p => ⟨pub.dataColumns p.1, 0⟩
    log := s.log ++ pub.toInsert.map fun p => .inserted g p.2 (pub.dataColumns p.1) }

/-- **`SOSD_db_insert_vals`** takes what is in the queue. -/
def grab : Database :=
  if s.daemon.queue.elemCount < 1 then s
  else { s with
    daemon := { s.daemon with
      snapQueue := some (s.daemon.queue.pop s.daemon.queue.elemCount.toNat).2 }
    grabbed := (s.daemon.queue.pop s.daemon.queue.elemCount.toNat).1 }

/-- It inserts what it took, with the notes and their UPDATEs. -/
def insertVals : Database :=
  let pubNotes := s.grabbed.foldl (noteFrame FrameNote.pubGuid) s.pubNotes
  let valNotes := s.grabbed.foldl (noteFrame FrameNote.guid) s.valNotes
  let s' := { s with
    tblVals := s.tblVals ++ s.grabbed.map SosValSnap.row
    inserted := s.inserted ++ s.grabbed
    grabbed := [] }
  if s.dbUpdateFrame then { s' with
    tblPubs := updateFrames PubColumns.guid FrameNote.pubGuid s.tblPubs pubNotes
    tblData := updateFrames DataColumns.guid FrameNote.guid s.tblData valNotes
    pubNotes := cleanNotes pubNotes
    valNotes := cleanNotes valNotes }
  else s'

/-- One task of a batch. -/
def runTask : DbTask → Database
  | .announce g => s.insertPub g
  | .publish g => s.insertData g
  | .valSnaps => s.grab

/-- The next task of the batch. -/
def next : Option Database :=
  match s.batch with
  | [] => none
  | t :: rest => some ({ s with batch := rest }.runTask t)

end Database

/-- **One step.** -/
def dbStep (s : Database) : DbStep → Option Database
  | .announce m => some (s.announce m)
  | .publish m => s.publish m
  | .flag g => if g ∈ s.flagging then some (s.flag g) else none
  | .valSnaps g snaps clock => s.valSnaps g snaps clock
  | .push t => if t ∈ s.pushing then some (s.push t) else none
  | .pop => if s.batch = [] ∧ s.grabbed = [] then some s.pop else none
  | .run => if s.grabbed = [] then s.next else none
  | .insert => if s.grabbed = [] then none else some s.insertVals

/-! ## What is outstanding -/

namespace Database

/-- **The tasks that have not been run**: those about to be pushed, those in the
queue, and the rest of the batch. -/
def outstanding (s : Database) : List DbTask := s.pushing ++ s.tasks.items ++ s.batch

variable {s s' : Database}

/-- A push is no change. -/
theorem outstanding_push {t : DbTask} (h : t ∈ s.pushing) :
    (s.push t).outstanding.Perm s.outstanding := by
  have herase : (s.pushing.erase t ++ [t]).Perm s.pushing :=
    (List.perm_append_singleton t _).trans (List.perm_cons_erase h).symm
  have hswap : (s.tasks.items ++ [t]).Perm ([t] ++ s.tasks.items) := List.perm_append_comm
  change (s.pushing.erase t ++ (s.tasks.items ++ [t]) ++ s.batch).Perm _
  refine List.Perm.append_right _ ((hswap.append_left _).trans ?_)
  rw [← List.append_assoc]
  exact herase.append_right _

/-- Nor is taking a batch. -/
theorem outstanding_pop (h : s.batch = []) : s.pop.outstanding.Perm s.outstanding := by
  change (s.pushing ++ s.tasks.items.drop _ ++ s.tasks.items.take _).Perm
    (s.pushing ++ s.tasks.items ++ s.batch)
  rw [h, List.append_nil, List.append_assoc]
  refine List.Perm.append_left _ (List.perm_append_comm.trans ?_)
  rw [List.take_append_drop]

/-- The inversion of a task. -/
theorem next_eq_some (h : s.next = some s') :
    ∃ t rest, s.batch = t :: rest ∧ s' = { s with batch := rest }.runTask t := by
  unfold next at h
  cases hbatch : s.batch with
  | nil =>
      rw [hbatch] at h
      cases h
  | cons t rest =>
      rw [hbatch] at h
      exact ⟨t, rest, rfl, (Option.some.inj h).symm⟩

/-- Running one leaves the others. -/
theorem outstanding_runTask (s : Database) (t : DbTask) :
    (s.runTask t).outstanding = s.outstanding := by
  cases t with
  | valSnaps =>
      change s.grab.outstanding = _
      unfold grab
      split <;> rfl
  | _ => rfl

/-- Behind a task that has been run the rest is outstanding. -/
theorem outstanding_runTask_perm {t : DbTask} {rest : List DbTask} (hbatch : s.batch = t :: rest) :
    s.outstanding.Perm (t :: ({ s with batch := rest }.runTask t).outstanding) := by
  rw [outstanding_runTask]
  change (s.pushing ++ s.tasks.items ++ s.batch).Perm (t :: (s.pushing ++ s.tasks.items ++ rest))
  rw [hbatch]
  exact List.perm_middle

/-- The inversion of the handler of VAL_SNAPS. -/
theorem valSnaps_eq_some {g : SosGuid} {snaps : List SosValSnap} {clock : ℕ → Double}
    (h : s.valSnaps g snaps clock = some s') :
    s' = s ∨ ∃ d, s.daemon.Ingested g snaps d ∧
      s' = { s with
        daemon := d
        pushing := s.pushing ++ [.valSnaps]
        pushed := s.pushed ++ s.daemon.pushes g snaps } := by
  unfold valSnaps at h
  split at h
  case isTrue => exact .inl (Option.some.inj h).symm
  case isFalse =>
    cases hd : s.daemon.handleValSnaps g snaps clock with
    | error fault =>
        rw [hd] at h
        cases h
    | ok d =>
        rw [hd] at h
        exact .inr ⟨d, Daemon.handleValSnaps_eq_ok hd, (Option.some.inj h).symm⟩

/-- **What a step does**, and when it can. A VAL_SNAPS may be dropped. -/
inductive Moves (s : Database) : DbStep → Database → Prop where
  | announce (m : AnnounceMsg) : Moves s (.announce m) (s.announce m)
  | publish {m : PublishMsg} {d : Daemon} (hd : s.daemon.handlePublish m = some d) :
      Moves s (.publish m) { s with daemon := d, flagging := s.flagging ++ [m.refGuid] }
  | flag {g : SosGuid} (hg : g ∈ s.flagging) : Moves s (.flag g) (s.flag g)
  | dropped {g : SosGuid} {snaps : List SosValSnap} {clock : ℕ → Double} :
      Moves s (.valSnaps g snaps clock) s
  | valSnaps {g : SosGuid} {snaps : List SosValSnap} {clock : ℕ → Double} {d : Daemon}
      (hd : s.daemon.Ingested g snaps d) :
      Moves s (.valSnaps g snaps clock) { s with
        daemon := d
        pushing := s.pushing ++ [.valSnaps]
        pushed := s.pushed ++ s.daemon.pushes g snaps }
  | push {t : DbTask} (ht : t ∈ s.pushing) : Moves s (.push t) (s.push t)
  | pop (hbatch : s.batch = []) (hgrabbed : s.grabbed = []) : Moves s .pop s.pop
  | run {t : DbTask} {rest : List DbTask} (hgrabbed : s.grabbed = []) (hbatch : s.batch = t :: rest) :
      Moves s .run ({ s with batch := rest }.runTask t)
  | insert (hgrabbed : s.grabbed ≠ []) : Moves s .insert s.insertVals

/-- **The inversion of a step.** -/
theorem moves {step : DbStep} (h : dbStep s step = some s') : Moves s step s' := by
  cases step with
  | announce m =>
      cases h
      exact .announce m
  | publish m =>
      obtain ⟨d, hd, rfl⟩ := Option.map_eq_some_iff.mp h
      exact .publish hd
  | flag g =>
      obtain ⟨hg, heq⟩ := Option.ite_none_right_eq_some.mp h
      cases heq
      exact .flag hg
  | valSnaps g snaps clock =>
      obtain rfl | ⟨d, hd, rfl⟩ := valSnaps_eq_some h
      · exact .dropped
      · exact .valSnaps hd
  | push t =>
      obtain ⟨ht, heq⟩ := Option.ite_none_right_eq_some.mp h
      cases heq
      exact .push ht
  | pop =>
      obtain ⟨hempty, heq⟩ := Option.ite_none_right_eq_some.mp h
      cases heq
      exact .pop hempty.1 hempty.2
  | run =>
      obtain ⟨hgrabbed, hnext⟩ := Option.ite_none_right_eq_some.mp h
      obtain ⟨t, rest, hbatch, rfl⟩ := next_eq_some hnext
      exact .run hgrabbed hbatch
  | insert =>
      obtain ⟨hgrabbed, heq⟩ := Option.ite_none_left_eq_some.mp h
      cases heq
      exact .insert hgrabbed

/-- Taking what is in the queue changes the queue and what was taken. -/
theorem grab_frame (s : Database) : ∃ snapQueue grabbed,
    s.grab = { s with daemon := { s.daemon with snapQueue }, grabbed } := by
  unfold grab
  split
  · exact ⟨s.daemon.snapQueue, s.grabbed, rfl⟩
  · exact ⟨_, _, rfl⟩

/-- Inserting it changes the tables, the notes, and what was taken. -/
theorem insertVals_frame (s : Database) : ∃ tblPubs tblData pubNotes valNotes,
    s.insertVals = { s with
      tblPubs, tblData, pubNotes, valNotes
      tblVals := s.tblVals ++ s.grabbed.map SosValSnap.row
      inserted := s.inserted ++ s.grabbed
      grabbed := [] } ∧
    tblData.map (·.columns) = s.tblData.map (·.columns) := by
  unfold insertVals
  dsimp only
  split
  · exact ⟨_, _, _, _, rfl, columns_updateFrames ..⟩
  · exact ⟨s.tblPubs, s.tblData, s.pubNotes, s.valNotes, rfl, rfl⟩

/-- Taking what a queue with the right count holds takes all of it. -/
theorem grab_eq (h : s.daemon.queue.Counted) (hqueue : s.daemon.snapQueue.isSome)
    (hgrabbed : s.grabbed = []) :
    s.grab = { s with
      daemon := { s.daemon with snapQueue := some .empty }
      grabbed := s.daemon.queue.items } := by
  unfold grab
  split
  case isTrue hlt =>
    have hcount : s.daemon.queue.elemCount = s.daemon.queue.items.length := h
    have hitems : s.daemon.queue.items = [] := List.eq_nil_of_length_eq_zero (by omega)
    obtain ⟨⟨items, elemCount⟩, hq⟩ := Option.isSome_iff_exists.mp hqueue
    have hthis : s.daemon.queue = ⟨items, elemCount⟩ := by rw [Daemon.queue, hq, Option.getD_some]
    rw [hthis] at hitems hcount
    obtain rfl : items = [] := hitems
    obtain rfl : elemCount = 0 := hcount
    rw [hthis, ← hgrabbed]
    change s = { s with daemon := { s.daemon with snapQueue := some ⟨[], 0⟩ } }
    have hsame : s.daemon.snapQueue = some ⟨[], 0⟩ := hq
    rw [← hsame]
  case isFalse => rw [h.pop_all]

end Database

end SosFlow
