import SosFlow.Daemon.Requests
import SosFlow.Database.QueryAnswer
import SosFlow.Database.Tasks

/-!
# From a query to its answer

The listen loop puts a query into the queue of the database, where the tasks
of other messages are. The thread of the database runs them in batches, and
puts a query with its results into the queue of the feedback thread, which
sends one answer at a time. A request of the caches is filled at once, so it
goes straight to the feedback queue; and so does a query where the database
is disabled, with a table of nothing.

The listen loop ends when `daemon.running` is zero, the feedback thread when
the status is no longer `SOS_STATUS_RUNNING`, and the thread of the database
when besides its queue is empty. A message SHUTDOWN sets both on the listen
loop; one that comes from another daemon sets one after the other, beside
whatever the listen loop does. The main thread joins the thread of the
database, closes the queues, and sets the status a last time.

The feedback thread pops without the lock of its queue. So a push, and its
signal with it, can come between the test of the pop and its wait, and the
thread then sleeps in front of what was pushed. And a send looks at the
status before it writes to the socket: a SHUTDOWN can come in between.

A step below is what a thread does between two accesses to what it shares.
-/

namespace SosFlow

open Trace

/-- What the thread of the database is to do. -/
inductive DbWork where
  | query (handle : QueryHandle)
  | other (task : DbTask)

/-- The query, if it is one. -/
def DbWork.query? : DbWork → Option QueryHandle
  | query handle => some handle
  | other _ => none

/-- **`SOSD_feedback_task`**, with the results that its handle has. -/
inductive FeedbackTask where
  | cache (handle : CacheGrabHandle) (results : ResultsTable)
  | query (handle : QueryHandle) (results : ResultsTable)
  | payload (p : SosdFeedbackPayload)

namespace FeedbackTask

/-- The query and its results, if it is one. -/
def query? : FeedbackTask → Option (QueryHandle × ResultsTable)
  | query handle results => some (handle, results)
  | _ => none

/-- The request of the caches and its results. -/
def cache? : FeedbackTask → Option (CacheGrabHandle × ResultsTable)
  | cache handle results => some (handle, results)
  | _ => none

end FeedbackTask

/-- `SOS->status`, from `SOS_STATUS_RUNNING` on. -/
inductive DaemonStatus where
  | running
  | shutdown
  | halting
deriving DecidableEq

/-- Where the main thread is: at the head of the listen loop, in front of a receive, in one,
behind the loop, behind the join, behind the closing of the queues, and behind that. -/
inductive MainThreadAt where
  | top
  | accepting
  | receiving
  | left
  | joined
  | closed
  | halted
deriving DecidableEq

/-- Where the thread of the database is. -/
inductive DbThreadAt where
  | top
  | waiting
  | working (batch : List DbWork)
  | left

/-- What is left of its batch. -/
def DbThreadAt.batch : DbThreadAt → List DbWork
  | working batch => batch
  | _ => []

/-- Where the feedback thread is: at the head of its loop, in front of the test of a pop,
behind one that found nothing, asleep on the condition, with a task, behind the look at
the status, and behind its loop. -/
inductive FeedbackThreadAt where
  | top
  | popping
  | waiting
  | asleep
  | holding (task : FeedbackTask)
  | sending (task : FeedbackTask)
  | left

namespace FeedbackThreadAt

/-- What it has popped and not yet settled. -/
def held : FeedbackThreadAt → List FeedbackTask
  | holding task => [task]
  | sending task => [task]
  | _ => []

/-- Where a signal finds it. -/
def woken : FeedbackThreadAt → FeedbackThreadAt
  | asleep => popping
  | pos => pos

@[simp] theorem held_woken (pos : FeedbackThreadAt) : pos.woken.held = pos.held := by
  cases pos <;> rfl

end FeedbackThreadAt

/-- **The three threads and their queues.** `stopping` says that the thread of the cloud is
between its two writes. The lists at the end are what happened so far, oldest first; of
what the feedback thread has settled they say whether it was sent, and of a payload
whether it was sent to somebody. -/
structure QueryPath where
  dbDisabled : Bool
  status : DaemonStatus
  running : Bool
  stopping : Bool
  main : MainThreadAt
  dbQueue : SosPipe DbWork
  db : DbThreadAt
  feedbackQueue : SosPipe FeedbackTask
  feedback : FeedbackThreadAt
  accepted : List QueryHandle
  grabbed : List (CacheGrabHandle × ResultsTable)
  executed : List (QueryHandle × ResultsTable)
  pushed : List FeedbackTask
  settled : List (FeedbackTask × Bool)

/-- A step of the listen loop and the main thread behind it, of the cloud, of another
thread that pushes, of the thread of the database, or of the feedback thread, which may
also wake up for no reason. -/
inductive QueryStep where
  | listen
  | receive
  | query (handle : QueryHandle)
  | cacheGrab (handle : CacheGrabHandle) (lf : Double → CString) (rounds : ℕ) (pubs : List SosPub)
    (duration : Double)
  | shutdown
  | otherMsg
  | join
  | close
  | halt
  | stop
  | shut
  | push (task : DbTask)
  | trigger (p : SosdFeedbackPayload)
  | dbCheck
  | dbPop
  | dbRun (prepare : CString → Option SqlStatement) (duration : Double)
  | dbOther
  | dbCommit
  | feedbackCheck
  | feedbackPop
  | feedbackWait
  | spurious
  | feedbackTest
  | feedbackSend (network : Bool)

/-- The text that labels the results of a request of the caches: `filters`. -/
def cacheFilters (h : CacheGrabHandle) : CString where
  bytes := ((literal "pub:\"").bytes ++ h.pubFilterRegex.bytes ++ (literal "\" val:\"").bytes ++
    h.valFilterRegex.bytes ++ (literal "\"").bytes).take 2047
  nonzero x hx := by
    have hmem := List.mem_of_mem_take hx
    simp only [List.mem_append] at hmem
    obtain (((hx | hx) | hx) | hx) | hx := hmem <;> exact CString.nonzero _ x hx

/-- What a request of the caches looks for. -/
def CacheGrabHandle.cacheQuery (h : CacheGrabHandle) : CacheQuery :=
  ⟨h.pubFilterRegex, h.valFilterRegex, h.frameHead.toInt, h.frameDepthLimit.toInt⟩

namespace QueryPath

/-- A daemon that enters its loops. Without a database there is no thread for it. -/
def start (dbDisabled : Bool) : QueryPath where
  dbDisabled := dbDisabled
  status := .running
  running := true
  stopping := false
  main := .top
  dbQueue := .empty
  db := if dbDisabled then .left else .top
  feedbackQueue := .empty
  feedback := .top
  accepted := []
  grabbed := []
  executed := []
  pushed := []
  settled := []

variable (s : QueryPath)

/-- A push into the queue of the feedback thread, with its signal. -/
def pushFeedback (task : FeedbackTask) : QueryPath :=
  { s with
    feedbackQueue := s.feedbackQueue.push task
    feedback := s.feedback.woken
    pushed := s.pushed ++ [task] }

/-! ## The main thread -/

/-- The head of the listen loop. -/
def listen : Option QueryPath :=
  if s.main = .top then some { s with main := if s.running then .accepting else .left } else none

/-- The start of a receive. When the status is `SOS_STATUS_SHUTDOWN` it brings nothing that
has a handler. -/
def receive : Option QueryPath :=
  if s.main = .accepting then
    some { s with main := if s.status = .shutdown then .top else .receiving }
  else none

/-- **`SOSD_handle_query`**, behind what it takes from the message. -/
def handleQuery (handle : QueryHandle) : QueryPath :=
  if s.dbDisabled then
    let results := ResultsTable.init.label handle.queryGuid (some handle.querySql)
    { s with
      accepted := s.accepted ++ [handle]
      executed := s.executed ++ [(handle, results)] }.pushFeedback (.query handle results)
  else { s with accepted := s.accepted ++ [handle], dbQueue := s.dbQueue.push (.query handle) }

/-- **`SOSD_handle_cache_grab`**, behind what it takes from the message. -/
def handleCacheGrab (handle : CacheGrabHandle) (lf : Double → CString) (rounds : ℕ)
    (pubs : List SosPub) (duration : Double) : Option QueryPath :=
  match handle.cacheQuery.toResults lf rounds pubs
    (ResultsTable.init.label handle.reqGuid (some (cacheFilters handle))) duration with
  | some (.ok results) =>
    some ({ s with grabbed := s.grabbed ++ [(handle, results)] }.pushFeedback
      (.cache handle results))
  | _ => none

/-- Back to the head of the loop, behind a message. -/
def heard (s : QueryPath) : QueryPath := { s with main := .top }

/-- **`SOSD_handle_shutdown`.** -/
def handleShutdown : QueryPath := { s with running := false, status := .shutdown }

/-! ## The thread of the database -/

/-- The head of the loop of `SOSD_THREAD_db_sync`. -/
def dbCheck : Option QueryPath :=
  match s.db with
  | .top =>
    if s.status = .running ∨ 0 < s.dbQueue.elemCount then some { s with db := .waiting }
    else some { s with db := .left }
  | _ => none

/-- It takes a batch, or goes back to the head. -/
def dbPop : Option QueryPath :=
  match s.db with
  | .waiting =>
    let queueDepth := min s.dbQueue.elemCount Database.batchMax
    if 0 < queueDepth then
      some { s with
        db := .working (s.dbQueue.pop queueDepth.toNat).1
        dbQueue := (s.dbQueue.pop queueDepth.toNat).2 }
    else some { s with db := .top }
  | _ => none

/-- It runs a query, if that is next. -/
def dbRun (prepare : CString → Option SqlStatement) (duration : Double) : Option QueryPath :=
  match s.db with
  | .working (.query handle :: rest) =>
    (sosdDbHandleSosaQuery prepare handle.queryGuid (some handle.querySql) duration).map
      fun results => { s with
        db := .working rest
        executed := s.executed ++ [(handle, results)] }.pushFeedback (.query handle results)
  | _ => none

/-- Or another task. -/
def dbOther : Option QueryPath :=
  match s.db with
  | .working (.other _ :: rest) => some { s with db := .working rest }
  | _ => none

/-- It commits behind the last one. -/
def dbCommit : Option QueryPath :=
  match s.db with
  | .working [] => some { s with db := .top }
  | _ => none

/-! ## The feedback thread -/

/-- The head of the loop of `SOSD_THREAD_feedback_sync`. -/
def feedbackCheck : Option QueryPath :=
  match s.feedback with
  | .top =>
    if s.status = .running then some { s with feedback := .popping }
    else some { s with feedback := .left }
  | _ => none

/-- The test of `pipe_pop_eager`: it takes a task, or finds the queue closed, or is to wait. -/
def feedbackPop : Option QueryPath :=
  match s.feedback, (s.feedbackQueue.pop 1).1 with
  | .popping, task :: _ =>
    some { s with feedback := .holding task, feedbackQueue := (s.feedbackQueue.pop 1).2 }
  | .popping, [] =>
    some { s with
      feedback := if s.main = .closed ∨ s.main = .halted then .left else .waiting }
  | _, _ => none

/-- Its wait. -/
def feedbackWait : Option QueryPath :=
  match s.feedback with
  | .waiting => some { s with feedback := .asleep }
  | _ => none

/-- `SOS_target_send_msg` looks at the status, and suppresses the send when that is
`SOS_STATUS_SHUTDOWN`. Either way the task is freed in the end. -/
def feedbackTest : Option QueryPath :=
  match s.feedback with
  | .holding task =>
    if s.status = .shutdown then
      some { s with feedback := .top, settled := s.settled ++ [(task, false)] }
    else some { s with feedback := .sending task }
  | _ => none

/-- And it sends, if the network takes it. -/
def feedbackSend (network : Bool) : Option QueryPath :=
  match s.feedback with
  | .sending task =>
    some { s with feedback := .top, settled := s.settled ++ [(task, network)] }
  | _ => none

/-- **One step.** -/
def step (s : QueryPath) : QueryStep → Option QueryPath
  | .listen => s.listen
  | .receive => s.receive
  | .query handle => if s.main = .receiving then some (s.handleQuery handle).heard else none
  | .cacheGrab handle lf rounds pubs duration =>
    if s.main = .receiving then (s.handleCacheGrab handle lf rounds pubs duration).map heard
    else none
  | .shutdown => if s.main = .receiving then some s.handleShutdown.heard else none
  | .otherMsg => if s.main = .receiving then some s.heard else none
  | .join => match s.main, s.db with
    | .left, .left => some { s with main := .joined }
    | _, _ => none
  | .close => if s.main = .joined then
    some { s with main := .closed, feedback := s.feedback.woken } else none
  | .halt => if s.main = .closed then some { s with main := .halted, status := .halting } else none
  | .stop => some { s with running := false, stopping := true }
  | .shut => if s.stopping then some { s with status := .shutdown, stopping := false } else none
  | .push task => if s.dbDisabled then none else
    some { s with dbQueue := s.dbQueue.push (.other task) }
  | .trigger p => some (s.pushFeedback (.payload p))
  | .dbCheck => s.dbCheck
  | .dbPop => s.dbPop
  | .dbRun prepare duration => s.dbRun prepare duration
  | .dbOther => s.dbOther
  | .dbCommit => s.dbCommit
  | .feedbackCheck => s.feedbackCheck
  | .feedbackPop => s.feedbackPop
  | .feedbackWait => s.feedbackWait
  | .spurious => some { s with feedback := s.feedback.woken }
  | .feedbackTest => s.feedbackTest
  | .feedbackSend network => s.feedbackSend network

/-! ## The inversion of a step -/

/-- **What a step does**, and when it can. -/
inductive Moves (s : QueryPath) : QueryStep → QueryPath → Prop where
  | listen (hmain : s.main = .top) :
      Moves s .listen { s with main := if s.running then .accepting else .left }
  | receive (hmain : s.main = .accepting) :
      Moves s .receive { s with main := if s.status = .shutdown then .top else .receiving }
  | query {handle : QueryHandle} (hmain : s.main = .receiving) (hdisabled : s.dbDisabled = false) :
      Moves s (.query handle) { s with
        main := .top
        accepted := s.accepted ++ [handle]
        dbQueue := s.dbQueue.push (.query handle) }
  | answer {handle : QueryHandle} {results : ResultsTable} (hmain : s.main = .receiving)
      (hdisabled : s.dbDisabled = true)
      (hresults : sosdDbHandleSosaQuery (fun _ => none) handle.queryGuid (some handle.querySql) 0 =
        some results) :
      Moves s (.query handle) { s with
        main := .top
        accepted := s.accepted ++ [handle]
        executed := s.executed ++ [(handle, results)]
        feedbackQueue := s.feedbackQueue.push (.query handle results)
        feedback := s.feedback.woken
        pushed := s.pushed ++ [.query handle results] }
  | cacheGrab {handle : CacheGrabHandle} {lf : Double → CString} {rounds : ℕ} {pubs : List SosPub}
      {duration : Double} {results : ResultsTable} (hmain : s.main = .receiving)
      (hresults : handle.cacheQuery.toResults lf rounds pubs
        (ResultsTable.init.label handle.reqGuid (some (cacheFilters handle))) duration =
          some (.ok results)) :
      Moves s (.cacheGrab handle lf rounds pubs duration) { s with
        main := .top
        grabbed := s.grabbed ++ [(handle, results)]
        feedbackQueue := s.feedbackQueue.push (.cache handle results)
        feedback := s.feedback.woken
        pushed := s.pushed ++ [.cache handle results] }
  | shutdown (hmain : s.main = .receiving) :
      Moves s .shutdown { s with main := .top, running := false, status := .shutdown }
  | otherMsg (hmain : s.main = .receiving) : Moves s .otherMsg { s with main := .top }
  | join (hmain : s.main = .left) (hdb : s.db = .left) : Moves s .join { s with main := .joined }
  | close (hmain : s.main = .joined) :
      Moves s .close { s with main := .closed, feedback := s.feedback.woken }
  | halt (hmain : s.main = .closed) : Moves s .halt { s with main := .halted, status := .halting }
  | stop : Moves s .stop { s with running := false, stopping := true }
  | shut (hstopping : s.stopping = true) :
      Moves s .shut { s with status := .shutdown, stopping := false }
  | push {task : DbTask} (hdisabled : s.dbDisabled = false) :
      Moves s (.push task) { s with dbQueue := s.dbQueue.push (.other task) }
  | trigger (p : SosdFeedbackPayload) : Moves s (.trigger p) { s with
      feedbackQueue := s.feedbackQueue.push (.payload p)
      feedback := s.feedback.woken
      pushed := s.pushed ++ [.payload p] }
  | dbWait (hdb : s.db = .top) (hmore : s.status = .running ∨ 0 < s.dbQueue.elemCount) :
      Moves s .dbCheck { s with db := .waiting }
  | dbLeave (hdb : s.db = .top) (hstatus : s.status ≠ .running)
      (hempty : s.dbQueue.elemCount ≤ 0) : Moves s .dbCheck { s with db := .left }
  | dbTake (hdb : s.db = .waiting) (hdepth : 0 < s.dbQueue.elemCount) : Moves s .dbPop { s with
      db := .working (s.dbQueue.pop (min s.dbQueue.elemCount Database.batchMax).toNat).1
      dbQueue := (s.dbQueue.pop (min s.dbQueue.elemCount Database.batchMax).toNat).2 }
  | dbNothing (hdb : s.db = .waiting) (hempty : s.dbQueue.elemCount ≤ 0) :
      Moves s .dbPop { s with db := .top }
  | dbQuery {prepare : CString → Option SqlStatement} {duration : Double} {handle : QueryHandle}
      {rest : List DbWork} {results : ResultsTable} (hdb : s.db = .working (.query handle :: rest))
      (hresults : sosdDbHandleSosaQuery prepare handle.queryGuid (some handle.querySql) duration =
        some results) :
      Moves s (.dbRun prepare duration) { s with
        db := .working rest
        executed := s.executed ++ [(handle, results)]
        feedbackQueue := s.feedbackQueue.push (.query handle results)
        feedback := s.feedback.woken
        pushed := s.pushed ++ [.query handle results] }
  | dbOther {task : DbTask} {rest : List DbWork} (hdb : s.db = .working (.other task :: rest)) :
      Moves s .dbOther { s with db := .working rest }
  | dbCommit (hdb : s.db = .working []) : Moves s .dbCommit { s with db := .top }
  | feedbackEnter (hfeedback : s.feedback = .top) (hstatus : s.status = .running) :
      Moves s .feedbackCheck { s with feedback := .popping }
  | feedbackLeave (hfeedback : s.feedback = .top) (hstatus : s.status ≠ .running) :
      Moves s .feedbackCheck { s with feedback := .left }
  | feedbackTake {task : FeedbackTask} {rest : List FeedbackTask}
      (hfeedback : s.feedback = .popping) (hitems : s.feedbackQueue.items = task :: rest) :
      Moves s .feedbackPop { s with
        feedback := .holding task
        feedbackQueue := ⟨rest, s.feedbackQueue.elemCount - 1⟩ }
  | feedbackClosed (hfeedback : s.feedback = .popping) (hitems : s.feedbackQueue.items = [])
      (hclosed : s.main = .closed ∨ s.main = .halted) :
      Moves s .feedbackPop { s with feedback := .left }
  | feedbackNothing (hfeedback : s.feedback = .popping) (hitems : s.feedbackQueue.items = [])
      (hopen : ¬ (s.main = .closed ∨ s.main = .halted)) :
      Moves s .feedbackPop { s with feedback := .waiting }
  | feedbackWait (hfeedback : s.feedback = .waiting) :
      Moves s .feedbackWait { s with feedback := .asleep }
  | spurious : Moves s .spurious { s with feedback := s.feedback.woken }
  | feedbackSuppress {task : FeedbackTask} (hfeedback : s.feedback = .holding task)
      (hstatus : s.status = .shutdown) :
      Moves s .feedbackTest { s with feedback := .top, settled := s.settled ++ [(task, false)] }
  | feedbackPass {task : FeedbackTask} (hfeedback : s.feedback = .holding task)
      (hstatus : s.status ≠ .shutdown) : Moves s .feedbackTest { s with feedback := .sending task }
  | feedbackSend {task : FeedbackTask} {network : Bool} (hfeedback : s.feedback = .sending task) :
      Moves s (.feedbackSend network) { s with
        feedback := .top
        settled := s.settled ++ [(task, network)] }

variable {s s' : QueryPath}

/-- The handler of a query. -/
theorem moves_query {handle : QueryHandle} (hmain : s.main = .receiving) :
    Moves s (.query handle) (s.handleQuery handle).heard := by
  unfold handleQuery
  split
  case isTrue hdisabled => exact .answer hmain hdisabled rfl
  case isFalse hdisabled => exact .query hmain (Bool.eq_false_of_not_eq_true hdisabled)

/-- The thread of the database. -/
theorem moves_dbCheck (h : s.dbCheck = some s') : Moves s .dbCheck s' := by
  unfold dbCheck at h
  split at h
  case h_1 hdb =>
    split at h
    case isTrue hmore =>
      cases h
      exact .dbWait hdb hmore
    case isFalse hmore =>
      cases h
      rw [not_or, not_lt] at hmore
      exact .dbLeave hdb hmore.1 hmore.2
  case h_2 => cases h

theorem moves_dbPop (h : s.dbPop = some s') : Moves s .dbPop s' := by
  have hmax : (0 : ℤ) < Database.batchMax := by decide
  unfold dbPop at h
  split at h
  case h_1 hdb =>
    dsimp only at h
    split at h
    case isTrue hdepth =>
      cases h
      exact .dbTake hdb (by omega)
    case isFalse hdepth =>
      cases h
      exact .dbNothing hdb (by omega)
  case h_2 => cases h

theorem moves_dbRun {prepare : CString → Option SqlStatement} {duration : Double}
    (h : s.dbRun prepare duration = some s') : Moves s (.dbRun prepare duration) s' := by
  unfold dbRun at h
  split at h
  case h_1 hdb =>
    obtain ⟨results, hresults, rfl⟩ := Option.map_eq_some_iff.mp h
    exact .dbQuery hdb hresults
  case h_2 => cases h

theorem moves_dbOther (h : s.dbOther = some s') : Moves s .dbOther s' := by
  unfold dbOther at h
  split at h
  case h_1 hdb =>
    cases h
    exact .dbOther hdb
  case h_2 => cases h

theorem moves_dbCommit (h : s.dbCommit = some s') : Moves s .dbCommit s' := by
  unfold dbCommit at h
  split at h
  case h_1 hdb =>
    cases h
    exact .dbCommit hdb
  case h_2 => cases h

/-- The feedback thread. -/
theorem moves_feedbackCheck (h : s.feedbackCheck = some s') : Moves s .feedbackCheck s' := by
  unfold feedbackCheck at h
  split at h
  case h_1 hfeedback =>
    split at h
    case isTrue hstatus =>
      cases h
      exact .feedbackEnter hfeedback hstatus
    case isFalse hstatus =>
      cases h
      exact .feedbackLeave hfeedback hstatus
  case h_2 => cases h

theorem moves_feedbackPop (h : s.feedbackPop = some s') : Moves s .feedbackPop s' := by
  unfold feedbackPop SosPipe.pop at h
  cases hitems : s.feedbackQueue.items with
  | nil =>
      rw [hitems] at h
      cases hfeedback : s.feedback with
      | popping =>
          rw [hfeedback] at h
          cases h
          split_ifs with hclosed
          · exact .feedbackClosed hfeedback hitems hclosed
          · exact .feedbackNothing hfeedback hitems hclosed
      | _ =>
          rw [hfeedback] at h
          cases h
  | cons task rest =>
      rw [hitems] at h
      cases hfeedback : s.feedback with
      | popping =>
          rw [hfeedback] at h
          cases h
          exact .feedbackTake hfeedback hitems
      | _ =>
          rw [hfeedback] at h
          cases h

theorem moves_feedbackWait (h : s.feedbackWait = some s') : Moves s .feedbackWait s' := by
  unfold feedbackWait at h
  split at h
  case h_1 hfeedback =>
    cases h
    exact .feedbackWait hfeedback
  case h_2 => cases h

theorem moves_feedbackTest (h : s.feedbackTest = some s') : Moves s .feedbackTest s' := by
  unfold feedbackTest at h
  split at h
  case h_1 hfeedback =>
    split at h
    case isTrue hstatus =>
      cases h
      exact .feedbackSuppress hfeedback hstatus
    case isFalse hstatus =>
      cases h
      exact .feedbackPass hfeedback hstatus
  case h_2 => cases h

theorem moves_feedbackSend {network : Bool} (h : s.feedbackSend network = some s') :
    Moves s (.feedbackSend network) s' := by
  unfold feedbackSend at h
  split at h
  case h_1 hfeedback =>
    cases h
    exact .feedbackSend hfeedback
  case h_2 => cases h

/-- **The inversion of a step.** -/
theorem moves {a : QueryStep} (h : step s a = some s') : Moves s a s' := by
  cases a with
  | listen =>
      obtain ⟨hmain, heq⟩ := Option.ite_none_right_eq_some.mp h
      cases heq
      exact .listen hmain
  | receive =>
      obtain ⟨hmain, heq⟩ := Option.ite_none_right_eq_some.mp h
      cases heq
      exact .receive hmain
  | query handle =>
      obtain ⟨hmain, heq⟩ := Option.ite_none_right_eq_some.mp h
      cases heq
      exact moves_query hmain
  | cacheGrab handle lf rounds pubs duration =>
      obtain ⟨hmain, heq⟩ := Option.ite_none_right_eq_some.mp h
      unfold handleCacheGrab at heq
      split at heq
      case h_1 hresults =>
        cases heq
        exact .cacheGrab hmain hresults
      case h_2 => cases heq
  | shutdown =>
      obtain ⟨hmain, heq⟩ := Option.ite_none_right_eq_some.mp h
      cases heq
      exact .shutdown hmain
  | otherMsg =>
      obtain ⟨hmain, heq⟩ := Option.ite_none_right_eq_some.mp h
      cases heq
      exact .otherMsg hmain
  | join =>
      change (match s.main, s.db with
        | .left, .left => some { s with main := .joined }
        | _, _ => none) = some s' at h
      split at h
      case h_1 hmain hdb =>
        cases h
        exact .join hmain hdb
      case h_2 => cases h
  | close =>
      obtain ⟨hmain, heq⟩ := Option.ite_none_right_eq_some.mp h
      cases heq
      exact .close hmain
  | halt =>
      obtain ⟨hmain, heq⟩ := Option.ite_none_right_eq_some.mp h
      cases heq
      exact .halt hmain
  | stop =>
      cases h
      exact .stop
  | shut =>
      obtain ⟨hstopping, heq⟩ := Option.ite_none_right_eq_some.mp h
      cases heq
      exact .shut hstopping
  | push task =>
      obtain ⟨hdisabled, heq⟩ := Option.ite_none_left_eq_some.mp h
      cases heq
      exact .push (Bool.eq_false_of_not_eq_true hdisabled)
  | trigger p =>
      cases h
      exact .trigger p
  | dbCheck => exact moves_dbCheck h
  | dbPop => exact moves_dbPop h
  | dbRun prepare duration => exact moves_dbRun h
  | dbOther => exact moves_dbOther h
  | dbCommit => exact moves_dbCommit h
  | feedbackCheck => exact moves_feedbackCheck h
  | feedbackPop => exact moves_feedbackPop h
  | feedbackWait => exact moves_feedbackWait h
  | spurious =>
      cases h
      exact .spurious
  | feedbackTest => exact moves_feedbackTest h
  | feedbackSend network => exact moves_feedbackSend h

end QueryPath

end SosFlow
