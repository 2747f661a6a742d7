import SosFlow.Daemon.QueryAnswers

/-!
# What a SHUTDOWN leaves of the queries

A SHUTDOWN treats the two threads differently. The thread of the database
runs what is in its queue, to the last query (`executed_of_joined`). The
feedback thread leaves, and no send passes the look at the status before the
end. So of the answers that were not sent by then no more than one still goes
out (`answers_at_shutdown`), and all of them can be lost (`answers_lost`).
-/

namespace SosFlow

open Trace

/-- Whether the feedback thread may still send something without coming back to the head
of its loop. -/
def FeedbackThreadAt.allowance : FeedbackThreadAt → ℕ
  | .top => 0
  | .left => 0
  | _ => 1

@[simp] theorem FeedbackThreadAt.allowance_woken (pos : FeedbackThreadAt) :
    pos.woken.allowance = pos.allowance := by
  cases pos <;> rfl

/-- A signal does not bring the thread in front of a send. -/
theorem FeedbackThreadAt.woken_eq_sending {pos : FeedbackThreadAt} {task : FeedbackTask} :
    pos.woken = sending task ↔ pos = sending task := by
  cases pos with
  | asleep => exact iff_of_false nofun nofun
  | _ => exact Iff.rfl

namespace QueryPath

variable {s s' : QueryPath}

/-! ## What is still sent -/

/-- **The send that was under way**: nothing else went out, and it did not yet or it did. -/
inductive UnderWay (s s' : QueryPath) : Prop where
  | before (hsent : s'.sent = s.sent)
      (hsending : ∀ task, s'.feedback = .sending task → s.feedback = .sending task)
  | behind {task : FeedbackTask} (hsending : s.feedback = .sending task)
      (hsent : s'.sent = s.sent ++ [task]) (hnone : ∀ task', s'.feedback ≠ .sending task')

/-- **Behind a SHUTDOWN**, up to the end no other send goes out, and then no more than
allowed. -/
structure Silent (s s' : QueryPath) : Prop where
  status : s'.status = .shutdown ∨ s'.main = .halted ∧ s'.status ≠ .running
  quiet : s'.main ≠ .halted → UnderWay s s'
  allowed : s'.sent.length + s'.feedback.allowance ≤ s.sent.length + s.feedback.allowance

/-- A task that is settled is sent if it was taken. -/
theorem sent_settle (s : QueryPath) (task : FeedbackTask) (taken : Bool) :
    ({ s with feedback := .top, settled := s.settled ++ [(task, taken)] } : QueryPath).sent =
      s.sent ++ if taken then [task] else [] := by
  simp only [sent, List.filter_append, List.map_append]
  cases taken <;> rfl

/-- Where the feedback thread is may change, if that is not in front of a send. -/
theorem UnderWay.moved {u u' : QueryPath} (h : UnderWay s u) (hsent : u'.sent = u.sent)
    (hsending : ∀ task, u'.feedback = .sending task → u.feedback = .sending task) :
    UnderWay s u' := by
  cases h with
  | before hsame hback => exact .before (hsent.trans hsame) fun task h => hback task (hsending task h)
  | behind hback hmore hnone =>
      exact .behind hback (hsent.trans hmore) fun task' h => hnone task' (hsending task' h)

/-- The send comes to its end. -/
theorem UnderWay.ended {u : QueryPath} (h : UnderWay s u) {task : FeedbackTask} (network : Bool)
    (hfeedback : u.feedback = .sending task) :
    UnderWay s { u with feedback := .top, settled := u.settled ++ [(task, network)] } := by
  have hsent := u.sent_settle task network
  cases h with
  | behind _ _ hnone => exact absurd hfeedback (hnone task)
  | before hsame hback =>
      cases network with
      | true =>
          refine .behind (hback task hfeedback) ?_ nofun
          rw [hsent, hsame]
          rfl
      | false =>
          refine .before ?_ nofun
          rw [hsent, hsame]
          exact List.append_nil _

/-- A step behind a SHUTDOWN. -/
theorem Silent.step {u : QueryPath} (h : Silent s u) {a : QueryStep}
    (hstep : QueryPath.step u a = some s') : Silent s s' := by
  obtain ⟨hstatus, hquiet, hallowed⟩ := h
  have hlive {main : MainThreadAt} (hmain : u.main = main) (hne : main ≠ .halted) :
      u.status = .shutdown ∧ UnderWay s u :=
    ⟨hstatus.resolve_right fun hhalted => hne (hmain.symm.trans hhalted.1), hquiet (hmain ▸ hne)⟩
  have hwoken : ∀ task, u.feedback.woken = .sending task → u.feedback = .sending task :=
    fun task => FeedbackThreadAt.woken_eq_sending.mp
  have hstays := u.feedback.allowance_woken
  cases moves hstep with
  | listen hmain | receive hmain | query hmain | otherMsg hmain | join hmain =>
      obtain ⟨hshutdown, hway⟩ := hlive hmain (by decide)
      exact ⟨.inl hshutdown, fun _ => hway.moved rfl fun _ => id, hallowed⟩
  | answer hmain | cacheGrab hmain | close hmain =>
      obtain ⟨hshutdown, hway⟩ := hlive hmain (by decide)
      exact ⟨.inl hshutdown, fun _ => hway.moved rfl hwoken, hstays.symm ▸ hallowed⟩
  | shutdown hmain =>
      exact ⟨.inl rfl, fun _ => (hlive hmain (by decide)).2.moved rfl fun _ => id, hallowed⟩
  | halt => exact ⟨.inr ⟨rfl, nofun⟩, fun hne => absurd rfl hne, hallowed⟩
  | shut => exact ⟨.inl rfl, fun hmain => (hquiet hmain).moved rfl fun _ => id, hallowed⟩
  | stop | push | dbWait | dbLeave | dbTake | dbNothing | dbOther | dbCommit =>
      exact ⟨hstatus, fun hmain => (hquiet hmain).moved rfl fun _ => id, hallowed⟩
  | trigger | dbQuery | spurious =>
      exact ⟨hstatus, fun hmain => (hquiet hmain).moved rfl hwoken, hstays.symm ▸ hallowed⟩
  | feedbackEnter _ hrunning =>
      rw [hrunning] at hstatus
      exact hstatus.elim (fun hshutdown => by cases hshutdown) fun hhalted => absurd rfl hhalted.2
  | feedbackLeave hfeedback | feedbackTake hfeedback | feedbackNothing hfeedback
  | feedbackWait hfeedback =>
      rw [hfeedback] at hallowed
      exact ⟨hstatus, fun hmain => (hquiet hmain).moved rfl nofun, hallowed⟩
  | feedbackClosed hfeedback =>
      rw [hfeedback] at hallowed
      exact ⟨hstatus, fun hmain => (hquiet hmain).moved rfl nofun, Nat.le_of_succ_le hallowed⟩
  | @feedbackSuppress task hfeedback =>
      have hsent : ({ u with
          feedback := .top
          settled := u.settled ++ [(task, false)] } : QueryPath).sent = u.sent :=
        (u.sent_settle task false).trans (List.append_nil _)
      rw [hfeedback] at hallowed
      refine ⟨hstatus, fun hmain => (hquiet hmain).moved hsent nofun, ?_⟩
      rw [hsent]
      exact Nat.le_of_succ_le hallowed
  | feedbackPass hfeedback hpassed =>
      -- the look at the status is passed at the very end only
      have hhalted := hstatus.resolve_left hpassed
      rw [hfeedback] at hallowed
      exact ⟨.inr hhalted, fun hmain => absurd hhalted.1 hmain, hallowed⟩
  | @feedbackSend task network hfeedback =>
      refine ⟨hstatus, fun hmain => (hquiet hmain).ended network hfeedback, ?_⟩
      have hsent := u.sent_settle task network
      rw [hfeedback] at hallowed
      rw [hsent, List.length_append, Nat.add_assoc]
      refine le_trans (Nat.add_le_add_left ?_ _) hallowed
      split_ifs <;> simp [FeedbackThreadAt.allowance]

/-- **Behind a SHUTDOWN no other send goes out** than one that was under way, before the
end, and then no more than one that the feedback thread was at. -/
theorem sent_after_shutdown (hstatus : s.status = .shutdown) {steps : List QueryStep}
    (hrun : run QueryPath.step s steps = some s') :
    (s'.main ≠ .halted → UnderWay s s') ∧
      s'.sent.length ≤ s.sent.length + s.feedback.allowance := by
  have hstart : Silent s s := ⟨.inl hstatus, fun _ => .before rfl fun _ => id, le_rfl⟩
  have hsilent : Silent s s' :=
    run_preserves (fun _ _ _ h hstep => Silent.step h hstep) hstart hrun
  have hallowed := hsilent.allowed
  exact ⟨hsilent.quiet, by omega⟩

/-! ## What is still run -/

/-- **What keeps the database complete**: no message comes behind a SHUTDOWN that was sent
to the listen loop, and the thread of the database leaves nothing behind. -/
structure Drains (s : QueryPath) : Prop where
  stopping : s.stopping = false
  stopped : s.status ≠ .running → s.running = false ∧ s.main ≠ .accepting ∧ s.main ≠ .receiving
  complete : s.dbDisabled = false → s.db = .left → s.status ≠ .running ∧ s.pending = []
  left : s.main = .left ∨ s.main = .joined ∨ s.main = .closed ∨ s.main = .halted →
    s.running = false
  joined : s.main = .joined ∨ s.main = .closed ∨ s.main = .halted → s.db = .left

theorem drains_start (dbDisabled : Bool) : (start dbDisabled).Drains where
  stopping := rfl
  stopped hstatus := absurd rfl hstatus
  complete hdisabled hdb := by
    cases hdisabled
    cases hdb
  left hmain := by simp [start] at hmain
  joined hmain := by simp [start] at hmain

theorem Drains.step (h : s.Drains) (hcounted : s.dbQueue.Counted) {a : QueryStep}
    (hstop : a ≠ .stop) (hstep : QueryPath.step s a = some s') : s'.Drains := by
  obtain ⟨hstopping, hstopped, hcomplete, hleft, hjoined⟩ := h
  have hbusy {db : DbThreadAt} (hdb : s.db = db) (hne : db ≠ .left) :
      ¬ (s.main = .joined ∨ s.main = .closed ∨ s.main = .halted) :=
    fun hgone => hne (hdb.symm.trans (hjoined hgone))
  cases moves hstep with
  | listen hmain =>
      cases hrunning : s.running with
      | true =>
          refine ⟨hstopping, fun hstatus => ?_, hcomplete, fun hgone => ?_, fun hgone => ?_⟩
          · exact absurd (hrunning.symm.trans (hstopped hstatus).1) (by decide)
          · simp at hgone
          · simp at hgone
      | false =>
          refine ⟨hstopping, fun _ => ⟨rfl, ?_, ?_⟩, hcomplete, fun _ => rfl, fun hgone => ?_⟩
          · simp
          · simp
          · simp at hgone
  | receive hmain =>
      refine ⟨hstopping, fun hstatus => absurd hmain (hstopped hstatus).2.1, hcomplete,
        fun hgone => ?_, fun hgone => ?_⟩
      · dsimp only at hgone
        split_ifs at hgone <;> simp at hgone
      · dsimp only at hgone
        split_ifs at hgone <;> simp at hgone
  | query hmain =>
      refine ⟨hstopping, fun hstatus => absurd hmain (hstopped hstatus).2.2,
        fun hdisabled hdb => ?_, fun hgone => by simp at hgone, fun hgone => by simp at hgone⟩
      exact absurd hmain (hstopped (hcomplete hdisabled hdb).1).2.2
  | answer hmain | cacheGrab hmain | otherMsg hmain =>
      exact ⟨hstopping, fun hstatus => absurd hmain (hstopped hstatus).2.2, hcomplete,
        fun hgone => by simp at hgone, fun hgone => by simp at hgone⟩
  | shutdown hmain =>
      exact ⟨hstopping, fun _ => ⟨rfl, by simp, by simp⟩,
        fun hdisabled hdb => ⟨by simp, (hcomplete hdisabled hdb).2⟩, fun _ => rfl,
        fun hgone => by simp at hgone⟩
  | join hmain hdb =>
      exact ⟨hstopping, fun hstatus => ⟨(hstopped hstatus).1, by simp, by simp⟩, hcomplete,
        fun _ => hleft (.inl hmain), fun _ => hdb⟩
  | close hmain =>
      exact ⟨hstopping, fun hstatus => ⟨(hstopped hstatus).1, by simp, by simp⟩, hcomplete,
        fun _ => hleft (.inr (.inl hmain)), fun _ => hjoined (.inl hmain)⟩
  | halt hmain =>
      have hrunning := hleft (.inr (.inr (.inl hmain)))
      exact ⟨hstopping, fun _ => ⟨hrunning, by simp, by simp⟩,
        fun hdisabled hdb => ⟨by simp, (hcomplete hdisabled hdb).2⟩, fun _ => hrunning,
        fun _ => hjoined (.inr (.inl hmain))⟩
  | stop => exact absurd rfl hstop
  | shut hbetween => exact absurd (hstopping.symm.trans hbetween) (by decide)
  | @push task hdisabled =>
      refine ⟨hstopping, hstopped, fun _ hdb => ?_, hleft, hjoined⟩
      obtain ⟨hstatus, hempty⟩ := hcomplete hdisabled hdb
      unfold pending at hempty
      refine ⟨hstatus, ?_⟩
      show (s.db.batch ++ (s.dbQueue.items ++ [DbWork.other task])).filterMap DbWork.query? = []
      rw [← List.append_assoc, List.filterMap_append, hempty]
      rfl
  | dbLeave hdb hstatus hempty =>
      have hcount : s.dbQueue.elemCount = s.dbQueue.items.length := hcounted
      have hitems : s.dbQueue.items = [] := List.eq_nil_of_length_eq_zero (by omega)
      refine ⟨hstopping, hstopped, fun _ _ => ⟨hstatus, ?_⟩, hleft, fun _ => rfl⟩
      simp only [pending, hitems]
      rfl
  | dbWait hdb | dbTake hdb | dbNothing hdb | dbQuery hdb | dbOther hdb | dbCommit hdb =>
      exact ⟨hstopping, hstopped, fun _ hdb' => (by cases hdb'), hleft,
        fun hgone => absurd hgone (hbusy hdb (by simp))⟩
  | trigger | spurious | feedbackEnter | feedbackLeave | feedbackTake | feedbackClosed
  | feedbackNothing | feedbackWait | feedbackSuppress | feedbackPass | feedbackSend =>
      exact ⟨hstopping, hstopped, hcomplete, hleft, hjoined⟩

/-- **When the main thread has joined that of the database**, every query that was accepted
has been run, if the SHUTDOWN did not come from another daemon. -/
theorem executed_of_joined {dbDisabled : Bool} {steps : List QueryStep} (hstop : .stop ∉ steps)
    (hrun : run QueryPath.step (start dbDisabled) steps = some s)
    (hmain : s.main = .joined ∨ s.main = .closed ∨ s.main = .halted) :
    s.executed.map Prod.fst = s.accepted := by
  have h := inOrder_run hrun
  have hne : ∀ a ∈ steps, a ≠ .stop := fun a ha heq => hstop (heq ▸ ha)
  have hkeep : ∀ (u : QueryPath) (a : QueryStep) (u' : QueryPath), u.InOrder ∧ u.Drains →
      a ≠ .stop → QueryPath.step u a = some u' → u'.InOrder ∧ u'.Drains := fun _ _ _ hu hne hstep =>
    ⟨hu.1.step hstep, hu.2.step hu.1.counted hne hstep⟩
  have hdrains := run_invariant hkeep ⟨inOrder_start dbDisabled, drains_start dbDisabled⟩
    (along_of_forall_mem hne _) hrun
  have hpending : s.pending = [] := by
    cases hdisabled : s.dbDisabled with
    | true =>
        obtain ⟨hbatch, hitems⟩ := h.disabled hdisabled
        rw [pending, hbatch, hitems]
        rfl
    | false => exact (hdrains.2.complete hdisabled (hdrains.2.joined hmain)).2
  rw [← h.executed, hpending, List.append_nil]

/-- **At a SHUTDOWN** every query that was accepted comes to be run. But of the answers
only one that had passed the look at the status still goes out before the end, and no
more than one at all. -/
theorem answers_at_shutdown {dbDisabled : Bool} {steps later : List QueryStep}
    (hstop : .stop ∉ steps ++ later)
    (hrun : run QueryPath.step (start dbDisabled) steps = some s) (hstatus : s.status = .shutdown)
    (hlater : run QueryPath.step s later = some s') :
    (s'.main = .joined ∨ s'.main = .closed ∨ s'.main = .halted →
      s'.executed.map Prod.fst = s'.accepted) ∧
    (s'.main ≠ .halted → s'.sent = s.sent ∨
      ∃ task, s.feedback = .sending task ∧ s'.sent = s.sent ++ [task]) ∧
    s'.sent.length ≤ s.sent.length + 1 := by
  have hall : run QueryPath.step (start dbDisabled) (steps ++ later) = some s' := by
    rw [run_append, hrun]
    exact hlater
  obtain ⟨hquiet, hfew⟩ := sent_after_shutdown hstatus hlater
  have hallowance : s.feedback.allowance ≤ 1 := by
    cases s.feedback <;> simp [FeedbackThreadAt.allowance]
  refine ⟨executed_of_joined hstop hall, fun hmain => ?_, by omega⟩
  cases hquiet hmain with
  | before hsent => exact .inl hsent
  | @behind task hsending hsent => exact .inr ⟨task, hsending, hsent⟩

/-- Of three queries and a request the request and one query are answered, the second query
is run and its answer is past the look at the status, and the third is in the queue. -/
def shutdownRun : List QueryStep :=
  queryRun ++ [.feedbackCheck, .feedbackPop, .feedbackTest, .listen, .receive, .shutdown]

/-- The second answer still goes out, and the third query is run for nothing. -/
def behindShutdown : List QueryStep :=
  [.feedbackSend true, .feedbackCheck, .listen, .dbCommit, .dbCheck, .dbPop,
    .dbRun (fun _ => some twoRows) 0, .dbCommit, .dbCheck, .join]

theorem answers_at_shutdown_three : ∃ s s',
    run QueryPath.step (start false) shutdownRun = some s ∧
    run QueryPath.step s behindShutdown = some s' ∧ s'.main = .joined ∧
    s'.executed.map Prod.fst = s'.accepted ∧ s'.accepted = [queryOf 7, queryOf 8, queryOf 9] ∧
    s.sent.length = 2 ∧ (∃ task, s.feedback = .sending task ∧ s'.sent = s.sent ++ [task]) ∧
    s'.sent.length ≤ s.sent.length + 1 := by
  obtain ⟨s, hrun⟩ : ∃ s, run QueryPath.step (start false) shutdownRun = some s := ⟨_, rfl⟩
  have hstate : s.status = .shutdown ∧ s.sent.length = 2 := by
    cases hrun
    exact ⟨rfl, rfl⟩
  obtain ⟨s', hlater, hend⟩ : ∃ s', run QueryPath.step s behindShutdown = some s' ∧
      s'.main = .joined ∧ s'.accepted = [queryOf 7, queryOf 8, queryOf 9] ∧
        s'.sent.length = 3 := by
    cases hrun
    exact ⟨_, rfl, rfl, rfl, rfl⟩
  obtain ⟨hjoined, haccepted, hlength⟩ := hend
  have hnostop : QueryStep.stop ∉ shutdownRun ++ behindShutdown := by
    simp [shutdownRun, behindShutdown, queryRun]
  obtain ⟨hexecuted, hsent, hfew⟩ := answers_at_shutdown hnostop hrun hstate.1 hlater
  refine ⟨s, s', hrun, hlater, hjoined, hexecuted (.inl hjoined), haccepted, hstate.2, ?_, hfew⟩
  refine (hsent (by rw [hjoined]; decide)).resolve_left fun hsame => ?_
  rw [hsame, hstate.2] at hlength
  cases hlength

/-! ## Answers that are lost -/

/-- The steps in which a daemon accepts some queries. -/
def acceptAll (handles : List QueryHandle) : List QueryStep :=
  handles.flatMap fun handle => [.listen, .receive, .query handle]

/-- They can be taken one after the other. -/
theorem run_acceptAll (hmain : s.main = .top) (hrunning : s.running = true)
    (hstatus : s.status = .running) (henabled : s.dbDisabled = false) (handles : List QueryHandle) :
    ∃ dbQueue, run QueryPath.step s (acceptAll handles) =
      some { s with accepted := s.accepted ++ handles, dbQueue } := by
  induction handles generalizing s with
  | nil => exact ⟨s.dbQueue, by rw [List.append_nil]; rfl⟩
  | cons handle rest ih =>
      have hfirst : run QueryPath.step s [.listen, .receive, .query handle] = some { s with
          main := .top
          accepted := s.accepted ++ [handle]
          dbQueue := s.dbQueue.push (.query handle) } := by
        simp [run_cons, QueryPath.step, listen, receive, handleQuery, heard, hmain, hrunning,
          hstatus, henabled]
      obtain ⟨dbQueue, hrest⟩ := ih (s := { s with
        main := .top
        accepted := s.accepted ++ [handle]
        dbQueue := s.dbQueue.push (.query handle) }) rfl hrunning hstatus henabled
      refine ⟨dbQueue, ?_⟩
      rw [show acceptAll (handle :: rest) = [.listen, .receive, .query handle] ++ acceptAll rest
        from rfl, run_append, hfirst, Option.bind_some, hrest, ← hmain]
      simp only [List.append_assoc, List.singleton_append]

/-- Behind a SHUTDOWN the thread of the database comes to leave, without the feedback
thread. -/
theorem exists_db_left (h : s.InOrder) (hstatus : s.status = .shutdown) :
    ∃ steps t, (∀ a ∈ steps, QueryStep.ofDb a) ∧ run QueryPath.step s steps = some t ∧
      t.main = s.main ∧ t.accepted = s.accepted ∧ t.db = .left := by
  have hprogress : ∀ u : QueryPath,
      (u.InOrder ∧ u.status = .shutdown ∧ u.main = s.main ∧ u.accepted = s.accepted) →
        ¬ u.db = .left → ∃ a u', QueryStep.ofDb a ∧ QueryPath.step u a = some u' ∧
          (u'.InOrder ∧ u'.status = .shutdown ∧ u'.main = s.main ∧ u'.accepted = s.accepted) ∧
          dbWork u' < dbWork u := by
    rintro u ⟨hu, hstatus', hmain, haccepted⟩ hleft
    obtain ⟨a, u', hof, hstep, ⟨⟨db, dbQueue, executed, feedbackQueue, feedback, pushed, rfl⟩,
        -⟩, hless, -⟩ := db_progress hu hleft fun hrunning => by
        rw [hrunning] at hstatus'
        cases hstatus'
    exact ⟨a, _, hof, hstep, ⟨hu.step hstep, hstatus', hmain, haccepted⟩, hless⟩
  obtain ⟨steps, t, hof, hrun, ⟨-, -, hmain, haccepted⟩, hleft⟩ :=
    exists_run_of_measure dbWork hprogress ⟨h, hstatus, rfl, rfl⟩
  exact ⟨steps, t, hof, hrun, hmain, haccepted, hleft⟩

/-- **A SHUTDOWN loses answers**: however many queries there are, a daemon can have accepted
all of them and run none when the SHUTDOWN comes. Behind it all of them are run, and the
main thread joins that of the database, and not one of the answers is ever sent. -/
theorem answers_lost (handles : List QueryHandle) :
    ∃ before behind s t,
      run QueryPath.step (start false) (before ++ [.shutdown]) = some s ∧
      s.accepted = handles ∧ s.executed = [] ∧
      run QueryPath.step s behind = some t ∧ t.main = .joined ∧ t.accepted = handles ∧
      t.executed.map Prod.fst = handles ∧
      ∀ later t', run QueryPath.step t later = some t' → t'.sent = [] := by
  obtain ⟨dbQueue, haccepted⟩ := run_acceptAll (s := start false) rfl rfl rfl rfl handles
  let before : List QueryStep := acceptAll handles ++ [.listen, .receive]
  let s : QueryPath := { start false with
    main := .top, running := false, status := .shutdown, accepted := handles, dbQueue }
  have hrun : run QueryPath.step (start false) (before ++ [.shutdown]) = some s := by
    rw [List.append_assoc, run_append, haccepted]
    rfl
  -- the feedback thread has not begun
  have hleft : run QueryPath.step s [.listen] = some { s with main := .left } := rfl
  have hleaves : run QueryPath.step (start false) (before ++ [.shutdown] ++ [.listen]) =
      some { s with main := .left } := by
    rw [run_append, hrun]
    exact hleft
  obtain ⟨drain, u, hof, hdrained, hmain, hsame, hdb⟩ :=
    exists_db_left (s := { s with main := .left }) (inOrder_run hleaves) rfl
  have hbehind : run QueryPath.step s ([.listen] ++ (drain ++ [.join])) =
      some { u with main := .joined } := by
    rw [run_append, hleft, Option.bind_some, run_append, hdrained, Option.bind_some, run_cons]
    simp only [QueryPath.step, hmain, hdb, Option.bind_some, run_nil]
  have hnostop : QueryStep.stop ∉ before ++ [.shutdown] ++ ([.listen] ++ (drain ++ [.join])) := by
    have hdrain : QueryStep.stop ∉ drain := fun hmem => hof _ hmem
    simp [before, acceptAll, hdrain]
  have hall : run QueryPath.step (start false)
      (before ++ [.shutdown] ++ ([.listen] ++ (drain ++ [.join]))) =
        some { u with main := .joined } := by
    rw [run_append, hrun]
    exact hbehind
  refine ⟨before, _, s, _, hrun, rfl, rfl, hbehind, rfl, hsame, ?_, fun later t' hlater => ?_⟩
  · exact (executed_of_joined hnostop hall (.inl rfl)).trans hsame
  · have hrest : run QueryPath.step s ([.listen] ++ (drain ++ [.join]) ++ later) = some t' := by
      rw [run_append, hbehind]
      exact hlater
    exact List.eq_nil_of_length_eq_zero (Nat.le_zero.mp (sent_after_shutdown rfl hrest).2)

end QueryPath

end SosFlow
