import SosFlow.Daemon.QueryPath

/-!
# Where a query is

A query is accepted when the client gets its ACK. From there it is in one
place at a time, and in the order in which the queries came: with the
database, with the feedback thread, or settled. The table it is settled with
is the one that the database answered it with when it was run, and what a
request of the caches is settled with is what the caches held when it was
handled (`answers_in_order`).
-/

namespace SosFlow

open Trace

namespace QueryPath

variable (s : QueryPath)

/-- The queries that have been settled, with their results. -/
def answered : List (QueryHandle × ResultsTable) :=
  (s.settled.map Prod.fst).filterMap FeedbackTask.query?

/-- Those that have been run and wait to be sent. -/
def unsent : List (QueryHandle × ResultsTable) :=
  (s.feedback.held ++ s.feedbackQueue.items).filterMap FeedbackTask.query?

/-- Those that wait to be run. -/
def pending : List QueryHandle := (s.db.batch ++ s.dbQueue.items).filterMap DbWork.query?

/-- The requests of the caches that have been settled, with their results. -/
def cachesSettled : List (CacheGrabHandle × ResultsTable) :=
  (s.settled.map Prod.fst).filterMap FeedbackTask.cache?

/-- Those that wait to be sent. -/
def cachesUnsent : List (CacheGrabHandle × ResultsTable) :=
  (s.feedback.held ++ s.feedbackQueue.items).filterMap FeedbackTask.cache?

/-- What was sent. -/
def sent : List FeedbackTask := (s.settled.filter Prod.snd).map Prod.fst

end QueryPath

namespace QueryStep

/-- The query that comes with a step. -/
def query? : QueryStep → Option QueryHandle
  | query handle => some handle
  | _ => none

/-- How the database answers, where a step runs a query. Without a database that is the
step that accepts it, and there is no answer. -/
def ran? (dbDisabled : Bool) : QueryStep → Option ((CString → Option SqlStatement) × Double)
  | dbRun prepare duration => some (prepare, duration)
  | query _ => if dbDisabled then some (fun _ => none, 0) else none
  | _ => none

/-- The request that comes with a step, with what it finds in the caches. -/
def grab? : QueryStep →
    Option (CacheGrabHandle × (Double → CString) × ℕ × List SosPub × Double)
  | cacheGrab handle lf rounds pubs duration => some (handle, lf, rounds, pubs, duration)
  | _ => none

end QueryStep

/-- **The results are the answer** of the database to the query, with its guid. -/
def AnsweredBy (a : QueryHandle × ResultsTable)
    (way : (CString → Option SqlStatement) × Double) : Prop :=
  a.2.object.contents = some (sosaAnswer way.1 a.1.queryGuid (some a.1.querySql) way.2)

/-- **The results are what the caches held.** -/
def FilledFrom (a : CacheGrabHandle × ResultsTable)
    (look : CacheGrabHandle × (Double → CString) × ℕ × List SosPub × Double) : Prop :=
  look.1 = a.1 ∧ a.1.cacheQuery.toResults look.2.1 look.2.2.1 look.2.2.2.1
    (ResultsTable.init.label a.1.reqGuid (some (cacheFilters a.1))) look.2.2.2.2 = some (.ok a.2)

/-- **Every query and every task is in its place**, in the order they came. -/
structure QueryPath.InOrder (s : QueryPath) : Prop where
  counted : s.dbQueue.Counted
  disabled : s.dbDisabled = true → s.db.batch = [] ∧ s.dbQueue.items = []
  executed : s.executed.map Prod.fst ++ s.pending = s.accepted
  queries : s.pushed.filterMap FeedbackTask.query? = s.executed
  caches : s.pushed.filterMap FeedbackTask.cache? = s.grabbed
  settled : s.settled.map Prod.fst ++ (s.feedback.held ++ s.feedbackQueue.items) = s.pushed

namespace QueryPath

variable {s s' : QueryPath}

theorem inOrder_start (dbDisabled : Bool) : (start dbDisabled).InOrder where
  counted := SosPipe.counted_empty
  disabled _ := by cases dbDisabled <;> exact ⟨rfl, rfl⟩
  executed := by cases dbDisabled <;> rfl
  queries := rfl
  caches := rfl
  settled := rfl

/-- What a thread does without a task leaves everything in its place. -/
theorem InOrder.control (h : s.InOrder) (status : DaemonStatus) (running stopping : Bool)
    (main : MainThreadAt) {db : DbThreadAt} {feedback : FeedbackThreadAt}
    (hdb : db.batch = s.db.batch) (hheld : feedback.held = s.feedback.held) :
    ({ s with status, running, stopping, main, db, feedback } : QueryPath).InOrder where
  counted := h.counted
  disabled := by
    rw [hdb]
    exact h.disabled
  executed := by
    have hpending := h.executed
    unfold pending at hpending ⊢
    rw [hdb]
    exact hpending
  queries := h.queries
  caches := h.caches
  settled := by
    rw [hheld]
    exact h.settled

/-- **A push to the feedback thread** goes behind what was pushed. -/
theorem InOrder.pushFeedback (h : s.InOrder) {task : FeedbackTask} {main : MainThreadAt}
    {db : DbThreadAt} {accepted : List QueryHandle} {executed : List (QueryHandle × ResultsTable)}
    {grabbed : List (CacheGrabHandle × ResultsTable)}
    (hqueries : executed = s.executed ++ task.query?.toList)
    (hcaches : grabbed = s.grabbed ++ task.cache?.toList)
    (hdisabled : s.dbDisabled = true → db.batch = [])
    (hexecuted : executed.map Prod.fst ++
      (db.batch ++ s.dbQueue.items).filterMap DbWork.query? = accepted) :
    ({ s with
      main, db, accepted, executed, grabbed
      feedbackQueue := s.feedbackQueue.push task
      feedback := s.feedback.woken
      pushed := s.pushed ++ [task] } : QueryPath).InOrder where
  counted := h.counted
  disabled hdb := ⟨hdisabled hdb, (h.disabled hdb).2⟩
  executed := hexecuted
  queries := by
    change (s.pushed ++ [task]).filterMap FeedbackTask.query? = executed
    rw [List.filterMap_append, h.queries, hqueries]
    cases hquery : task.query? <;> simp [hquery]
  caches := by
    change (s.pushed ++ [task]).filterMap FeedbackTask.cache? = grabbed
    rw [List.filterMap_append, h.caches, hcaches]
    cases hcached : task.cache? <;> simp [hcached]
  settled := by
    change s.settled.map Prod.fst ++
      (s.feedback.woken.held ++ (s.feedbackQueue.items ++ [task])) = _
    rw [← h.settled, FeedbackThreadAt.held_woken]
    simp only [List.append_assoc]

/-- A push to the database goes behind what waits there. -/
theorem InOrder.pushDb (h : s.InOrder) (work : DbWork) (main : MainThreadAt)
    (hdisabled : s.dbDisabled = false) :
    ({ s with
      main
      accepted := s.accepted ++ work.query?.toList
      dbQueue := s.dbQueue.push work } : QueryPath).InOrder where
  counted := h.counted.push work
  disabled hdb := absurd (hdisabled.symm.trans hdb) Bool.false_ne_true
  executed := by
    change s.executed.map Prod.fst ++
      (s.db.batch ++ (s.dbQueue.items ++ [work])).filterMap DbWork.query? = _
    rw [← h.executed, ← List.append_assoc s.db.batch, List.filterMap_append,
      ← List.append_assoc]
    cases hquery : work.query? <;> simp [pending, hquery]
  queries := h.queries
  caches := h.caches
  settled := h.settled

/-- A batch is taken from the front. -/
theorem InOrder.take (h : s.InOrder) (hdb : s.db = .waiting) (n : ℕ) :
    ({ s with db := .working (s.dbQueue.pop n).1, dbQueue := (s.dbQueue.pop n).2 } :
      QueryPath).InOrder where
  counted := h.counted.pop n
  disabled hdisabled := by
    have hitems := (h.disabled hdisabled).2
    change s.dbQueue.items.take n = [] ∧ s.dbQueue.items.drop n = []
    rw [hitems]
    exact ⟨List.take_nil, List.drop_nil⟩
  executed := by
    have hpending := h.executed
    unfold pending at hpending ⊢
    rw [hdb] at hpending
    change _ ++ (s.dbQueue.items.take n ++ s.dbQueue.items.drop n).filterMap _ = _
    rw [List.take_append_drop]
    exact hpending
  queries := h.queries
  caches := h.caches
  settled := h.settled

/-- A task that is no query is passed over. -/
theorem InOrder.skip (h : s.InOrder) {task : DbTask} {rest : List DbWork}
    (hdb : s.db = .working (.other task :: rest)) :
    ({ s with db := .working rest } : QueryPath).InOrder where
  counted := h.counted
  disabled hdisabled := by
    have hbatch := (h.disabled hdisabled).1
    rw [hdb] at hbatch
    exact absurd hbatch (List.cons_ne_nil _ _)
  executed := by
    have hpending := h.executed
    unfold pending at hpending
    rw [hdb] at hpending
    exact hpending
  queries := h.queries
  caches := h.caches
  settled := h.settled

/-- A task is settled where it was. -/
theorem InOrder.settle (h : s.InOrder) {items : List FeedbackTask} (elemCount : ℤ)
    {feedback : FeedbackThreadAt} {settled : List (FeedbackTask × Bool)}
    (hsettled : settled.map Prod.fst ++ (feedback.held ++ items) =
      s.settled.map Prod.fst ++ (s.feedback.held ++ s.feedbackQueue.items)) :
    ({ s with feedback, feedbackQueue := ⟨items, elemCount⟩, settled } : QueryPath).InOrder where
  counted := h.counted
  disabled := h.disabled
  executed := h.executed
  queries := h.queries
  caches := h.caches
  settled := hsettled.trans h.settled

/-- **A step keeps everything in order.** -/
theorem InOrder.step (h : s.InOrder) {a : QueryStep} (hstep : QueryPath.step s a = some s') :
    s'.InOrder := by
  have hexecuted := h.executed
  unfold pending at hexecuted
  cases moves hstep with
  | listen | receive | shutdown | otherMsg | join | halt | stop | shut =>
      exact h.control _ _ _ _ rfl rfl
  | close | spurious => exact h.control _ _ _ _ rfl (FeedbackThreadAt.held_woken _)
  | query _ hdisabled => exact h.pushDb (.query _) .top hdisabled
  | @answer handle results _ hdisabled =>
      -- without a database nothing is pending
      obtain ⟨hbatch, hitems⟩ := h.disabled hdisabled
      rw [hbatch, hitems, List.append_nil, List.filterMap_nil, List.append_nil] at hexecuted
      refine h.pushFeedback rfl (List.append_nil _).symm (fun _ => hbatch) ?_
      rw [hbatch, hitems, List.append_nil, List.filterMap_nil, List.append_nil, List.map_append,
        hexecuted]
      rfl
  | cacheGrab =>
      exact h.pushFeedback (List.append_nil _).symm rfl (fun hdb => (h.disabled hdb).1) hexecuted
  | @push task hdisabled =>
      have hpushed := h.pushDb (.other task) s.main hdisabled
      rw [DbWork.query?, Option.toList_none, List.append_nil] at hpushed
      exact hpushed
  | trigger p =>
      exact h.pushFeedback (List.append_nil _).symm (List.append_nil _).symm
        (fun hdb => (h.disabled hdb).1) hexecuted
  | dbWait hdb | dbLeave hdb | dbNothing hdb | dbCommit hdb =>
      exact h.control _ _ _ _ (by rw [hdb]; rfl) rfl
  | dbTake hdb => exact h.take hdb _
  | @dbQuery prepare duration handle rest results hdb =>
      rw [hdb] at hexecuted
      refine h.pushFeedback rfl (List.append_nil _).symm (fun hdisabled => ?_) ?_
      · have hbatch := (h.disabled hdisabled).1
        rw [hdb] at hbatch
        exact absurd hbatch (List.cons_ne_nil _ _)
      · rw [← hexecuted, List.map_append, List.append_assoc]
        rfl
  | dbOther hdb => exact h.skip hdb
  | feedbackEnter hfeedback | feedbackLeave hfeedback | feedbackClosed hfeedback
  | feedbackNothing hfeedback | feedbackWait hfeedback | feedbackPass hfeedback =>
      exact h.control _ _ _ _ rfl (by rw [hfeedback]; rfl)
  | feedbackTake hfeedback hitems =>
      exact h.settle _ (by rw [hfeedback, hitems]; rfl)
  | feedbackSuppress hfeedback | feedbackSend hfeedback =>
      refine h.settle s.feedbackQueue.elemCount ?_
      rw [hfeedback, List.map_append, List.append_assoc]
      rfl

theorem inOrder_run {dbDisabled : Bool} {steps : List QueryStep}
    (hrun : run QueryPath.step (start dbDisabled) steps = some s) : s.InOrder :=
  run_preserves (fun _ _ _ h hstep => h.step hstep) (inOrder_start dbDisabled) hrun

/-- What the feedback thread has not settled yet. -/
theorem InOrder.executed_eq (h : s.InOrder) : s.executed = s.answered ++ s.unsent := by
  rw [← h.queries, ← h.settled, List.filterMap_append]
  rfl

theorem InOrder.grabbed_eq (h : s.InOrder) : s.grabbed = s.cachesSettled ++ s.cachesUnsent := by
  rw [← h.caches, ← h.settled, List.filterMap_append]
  rfl

/-! ## What the lists are of -/

/-- Whether there is a database does not change. -/
theorem dbDisabled_step {a : QueryStep} (hstep : QueryPath.step s a = some s') :
    s'.dbDisabled = s.dbDisabled := by
  cases moves hstep <;> rfl

/-- **A step accepts** the query it brings. -/
theorem accepted_step {a : QueryStep} (hstep : QueryPath.step s a = some s') :
    s'.accepted = s.accepted ++ a.query?.toList := by
  cases moves hstep with
  | query | answer => rfl
  | _ => exact (List.append_nil _).symm

/-- **A step that runs a query** has its answer. -/
theorem executed_step {a : QueryStep} (hstep : QueryPath.step s a = some s') :
    ∃ new, s'.executed = s.executed ++ new ∧
      List.Forall₂ AnsweredBy new (a.ran? s.dbDisabled).toList := by
  have hanswer {prepare : CString → Option SqlStatement} {duration : Double} {handle : QueryHandle}
      {results : ResultsTable} (hresults : sosdDbHandleSosaQuery prepare handle.queryGuid
        (some handle.querySql) duration = some results) :
      AnsweredBy (handle, results) (prepare, duration) := by
    obtain ⟨t, ht, hcontents⟩ :=
      contents_handleSosaQuery prepare handle.queryGuid (some handle.querySql) duration
    obtain rfl := Option.some.inj (ht.symm.trans hresults)
    exact hcontents
  cases moves hstep with
  | query _ hdisabled =>
      rw [QueryStep.ran?, hdisabled]
      exact ⟨[], (List.append_nil _).symm, .nil⟩
  | @answer handle results _ hdisabled hresults =>
      rw [QueryStep.ran?, hdisabled]
      exact ⟨[(handle, results)], rfl, .cons (hanswer hresults) .nil⟩
  | @dbQuery prepare duration handle rest results hdb hresults =>
      exact ⟨[(handle, results)], rfl, .cons (hanswer hresults) .nil⟩
  | _ => exact ⟨[], (List.append_nil _).symm, .nil⟩

/-- **A step that handles a request of the caches** fills it from them. -/
theorem grabbed_step {a : QueryStep} (hstep : QueryPath.step s a = some s') :
    ∃ new, s'.grabbed = s.grabbed ++ new ∧ List.Forall₂ FilledFrom new a.grab?.toList := by
  cases moves hstep with
  | @cacheGrab handle lf rounds pubs duration results _ hresults =>
      exact ⟨[(handle, results)], rfl, .cons ⟨rfl, hresults⟩ .nil⟩
  | _ => exact ⟨[], (List.append_nil _).symm, .nil⟩

/-- What was accepted are the queries that came. -/
theorem accepted_run {steps : List QueryStep} (hrun : run QueryPath.step s steps = some s') :
    s'.accepted = s.accepted ++ steps.filterMap QueryStep.query? := by
  have hstep : ∀ (u : QueryPath) (a : QueryStep) (u' : QueryPath), True →
      QueryPath.step u a = some u' →
        ∃ new, u'.accepted = u.accepted ++ new ∧ List.Forall₂ Eq new a.query?.toList :=
    fun _ _ _ _ hstep => ⟨_, accepted_step hstep, List.forall₂_same.mpr fun _ _ => rfl⟩
  obtain ⟨new, hnew, hsame⟩ := run_appends (fun _ _ _ _ _ => trivial) hstep trivial hrun
  rw [List.forall₂_eq_eq_eq] at hsame
  rw [hnew, hsame]

/-- **Queries are answered in the order they came**, each once and none lost on the way,
and the table that goes with a query is the answer that the database gave when it was
run. So it is with the requests of the caches. -/
theorem answers_in_order {dbDisabled : Bool} {steps : List QueryStep}
    (hrun : run QueryPath.step (start dbDisabled) steps = some s) :
    s.accepted = steps.filterMap QueryStep.query? ∧
    s.accepted = s.executed.map Prod.fst ++ s.pending ∧
    List.Forall₂ AnsweredBy s.executed (steps.filterMap (QueryStep.ran? dbDisabled)) ∧
    s.executed = s.answered ++ s.unsent ∧
    List.Forall₂ FilledFrom s.grabbed (steps.filterMap QueryStep.grab?) ∧
    s.grabbed = s.cachesSettled ++ s.cachesUnsent := by
  have h := inOrder_run hrun
  have hexecuted : ∀ (u : QueryPath) (a : QueryStep) (u' : QueryPath),
      u.dbDisabled = dbDisabled → QueryPath.step u a = some u' →
        ∃ new, u'.executed = u.executed ++ new ∧
          List.Forall₂ AnsweredBy new (a.ran? dbDisabled).toList :=
    fun _ _ _ hu hstep => hu ▸ executed_step hstep
  obtain ⟨executed, hran, hanswers⟩ := run_appends
    (fun _ _ _ hu hstep => (dbDisabled_step hstep).trans hu) hexecuted rfl hrun
  obtain ⟨grabbed, hlooked, hfilled⟩ := run_appends (fun _ _ _ _ _ => trivial)
    (fun _ _ _ (_ : True) hstep => grabbed_step hstep) trivial hrun
  obtain rfl : s.executed = executed := hran
  obtain rfl : s.grabbed = grabbed := hlooked
  exact ⟨accepted_run hrun, h.executed.symm, hanswers, h.executed_eq, hfilled, h.grabbed_eq⟩

/-- A query. -/
def queryOf (guid : SosGuid) : QueryHandle := ⟨1, guid, nameX, nameX, 22500⟩

/-- A request of the latest frame of every pub. -/
def latestGrab : CacheGrabHandle := ⟨nameX, 22501, literal "", literal "", -1, 1, 6⟩

/-- The request and the first query are settled, in this order, the second is run, and the
third has just come. -/
def queryRun : List QueryStep :=
  [.listen, .receive, .query (queryOf 7), .listen, .receive,
    .cacheGrab latestGrab zeroStr 2 [halfFilled] 0, .listen, .receive, .query (queryOf 8),
    .dbCheck, .dbPop, .dbRun (fun _ => none) 0, .feedbackCheck, .feedbackPop, .feedbackTest,
    .feedbackSend true, .feedbackCheck, .feedbackPop, .feedbackTest, .feedbackSend true,
    .dbRun (fun _ => some twoRows) 0, .listen, .receive, .query (queryOf 9)]

theorem answers_in_order_three : ∃ s, run QueryPath.step (start false) queryRun = some s ∧
    s.accepted = [queryOf 7, queryOf 8, queryOf 9] ∧
    s.executed = s.answered ++ s.unsent ∧ s.answered.map Prod.fst = [queryOf 7] ∧
    s.unsent.map Prod.fst = [queryOf 8] ∧ s.pending = [queryOf 9] ∧
    List.Forall₂ AnsweredBy s.executed [(fun _ => none, 0), (fun _ => some twoRows, 0)] ∧
    s.cachesSettled.map Prod.fst = [latestGrab] := by
  obtain ⟨s, hrun⟩ : ∃ s, run QueryPath.step (start false) queryRun = some s := ⟨_, rfl⟩
  obtain ⟨haccepted, -, hanswers, hexecuted, -, -⟩ := answers_in_order hrun
  refine ⟨s, hrun, haccepted, hexecuted, ?_, ?_, ?_, hanswers, ?_⟩
  · cases hrun
    rfl
  · cases hrun
    rfl
  · cases hrun
    rfl
  · cases hrun
    rfl

end QueryPath

end SosFlow
