import SosFlow.Daemon.QueryEnds

/-!
# That every query is answered

As long as the daemon is running, the thread of the database and the
feedback thread can always answer all the queries that were accepted, with
one exception: the feedback thread has lost its wake-up, and waits for one in
front of an answer, while no query is left to be run that would bring another
(`Overslept`). Then the two alone do not get out of it (`all_answered_iff`).
-/

namespace SosFlow

open Trace

/-- A step of the thread of the database. -/
def QueryStep.ofDb : QueryStep → Prop
  | .dbCheck | .dbPop | .dbRun _ _ | .dbOther | .dbCommit => True
  | _ => False

/-- A step of the feedback thread, to which the network is good. -/
def QueryStep.ofFeedback : QueryStep → Prop
  | .feedbackCheck | .feedbackPop | .feedbackWait | .feedbackTest | .feedbackSend true => True
  | _ => False

namespace FeedbackThreadAt

/-- It waits to be woken, or is about to. -/
def Waits (pos : FeedbackThreadAt) : Prop := pos = waiting ∨ pos = asleep

theorem held_of_waits {pos : FeedbackThreadAt} (h : pos.Waits) : pos.held = [] := by
  rcases h with rfl | rfl
  · rfl
  · rfl

theorem woken_ne_left {pos : FeedbackThreadAt} (h : pos ≠ left) : pos.woken ≠ left := by
  cases pos with
  | left => exact absurd rfl h
  | _ => nofun

theorem not_waits_woken {pos : FeedbackThreadAt} (h : pos ≠ waiting) : ¬ pos.woken.Waits := by
  cases pos with
  | waiting => exact absurd rfl h
  | _ => rintro (heq | heq) <;> cases heq

end FeedbackThreadAt

namespace QueryPath

variable {s s' : QueryPath}

/-- **The wake-up is lost**: the feedback thread waits with an answer in its queue, and
nothing is to come that would wake it. -/
def Overslept (s : QueryPath) : Prop :=
  s.feedback.Waits ∧ s.unsent ≠ [] ∧ s.pending = []

/-! ## The threads as they work -/

/-- What the thread of the database still has to do. A queue that is empty sends it back
to the head, from where it leaves or waits. -/
def dbWork (s : QueryPath) : ℕ :=
  9 * s.dbQueue.items.length + match s.db with
    | .top => if s.dbQueue.items = [] then 1 else 2
    | .waiting => if s.dbQueue.items = [] then 2 else 1
    | .working batch => 5 * batch.length + 3
    | .left => 0

/-- What the feedback thread still has to do. -/
def feedbackWork (s : QueryPath) : ℕ :=
  4 * s.feedbackQueue.items.length + match s.feedback with
    | .top => 1
    | .waiting => 1
    | .holding _ => 3
    | .sending _ => 2
    | _ => 0

/-- **What a step of the database does to the feedback thread**: nothing, or it wakes it
with an answer. -/
structure DbStep (s s' : QueryPath) : Prop where
  frame : ∃ db dbQueue executed feedbackQueue feedback pushed,
    s' = { s with db, dbQueue, executed, feedbackQueue, feedback, pushed }
  wakes : s'.feedback = s.feedback.woken ∨
    s'.feedback = s.feedback ∧ s'.unsent = s.unsent ∧ s'.pending = s.pending

/-- A step of the database on its own queue. -/
theorem DbStep.own {db : DbThreadAt} {dbQueue : SosPipe DbWork}
    (h : (db.batch ++ dbQueue.items).filterMap DbWork.query? = s.pending) :
    DbStep s { s with db, dbQueue } :=
  ⟨⟨_, _, _, _, _, _, rfl⟩, .inr ⟨rfl, rfl, h⟩⟩

/-- A step of the database that brings both threads nearer to their end. -/
def DbGetsOn (s : QueryPath) : Prop :=
  ∃ a s', QueryStep.ofDb a ∧ QueryPath.step s a = some s' ∧ DbStep s s' ∧
    dbWork s' < dbWork s ∧ dbWork s' + feedbackWork s' < dbWork s + feedbackWork s

theorem dbGetsOn_top (h : s.InOrder) (hdb : s.db = .top)
    (hidle : s.status = .running → s.dbQueue.items ≠ []) : s.DbGetsOn := by
  have hcount : s.dbQueue.elemCount = s.dbQueue.items.length := h.counted
  by_cases hitems : s.dbQueue.items = []
  · have hempty : s.dbQueue.elemCount = 0 := by rw [hcount, hitems]; rfl
    have hstatus : s.status ≠ .running := fun hrunning => hidle hrunning hitems
    refine ⟨.dbCheck, { s with db := .left }, trivial, ?_, .own (by rw [pending, hdb]; rfl), ?_⟩
    · change s.dbCheck = _
      simp only [dbCheck, hdb]
      rw [if_neg (by rw [hempty]; exact fun hmore => hmore.elim hstatus (by omega))]
    · simp only [dbWork, feedbackWork, hdb, if_pos hitems]
      omega
  · have hpos := List.length_pos_iff.mpr hitems
    refine ⟨.dbCheck, { s with db := .waiting }, trivial, ?_, .own (by rw [pending, hdb]; rfl), ?_⟩
    · change s.dbCheck = _
      simp only [dbCheck, hdb]
      rw [if_pos (.inr (by omega))]
    · simp only [dbWork, feedbackWork, hdb, if_neg hitems]
      omega

theorem dbGetsOn_waiting (h : s.InOrder) (hdb : s.db = .waiting) : s.DbGetsOn := by
  have hcount : s.dbQueue.elemCount = s.dbQueue.items.length := h.counted
  have hmax : (0 : ℤ) < Database.batchMax := by decide
  by_cases hitems : s.dbQueue.items = []
  · have hempty : s.dbQueue.elemCount = 0 := by rw [hcount, hitems]; rfl
    refine ⟨.dbPop, { s with db := .top }, trivial, ?_, .own (by rw [pending, hdb]; rfl), ?_⟩
    · change s.dbPop = _
      simp only [dbPop, hdb]
      rw [if_neg (by omega)]
    · simp only [dbWork, feedbackWork, hdb, if_pos hitems]
      omega
  · have hpos := List.length_pos_iff.mpr hitems
    let depth := (min s.dbQueue.elemCount Database.batchMax).toNat
    refine ⟨.dbPop, { s with
      db := .working (s.dbQueue.pop depth).1
      dbQueue := (s.dbQueue.pop depth).2 }, trivial, ?_, .own ?_, ?_⟩
    · change s.dbPop = _
      simp only [dbPop, hdb]
      rw [if_pos (by omega)]
    · rw [pending, hdb]
      change (s.dbQueue.items.take depth ++ s.dbQueue.items.drop depth).filterMap _ = _
      rw [List.take_append_drop]
      rfl
    · have hdepth : 0 < depth := by
        show 0 < (min s.dbQueue.elemCount Database.batchMax).toNat
        omega
      simp only [dbWork, feedbackWork, hdb, if_neg hitems, SosPipe.pop, List.length_take,
        List.length_drop]
      omega

theorem dbGetsOn_working {batch : List DbWork} (hdb : s.db = .working batch) : s.DbGetsOn := by
  cases batch with
  | nil =>
      refine ⟨.dbCommit, { s with db := .top }, trivial, ?_, .own (by rw [pending, hdb]; rfl), ?_⟩
      · change s.dbCommit = _
        simp only [dbCommit, hdb]
      · simp only [dbWork, feedbackWork, hdb, List.length_nil]
        split_ifs <;> omega
  | cons work rest =>
      cases work with
      | query handle =>
          obtain ⟨t, ht, -⟩ := contents_handleSosaQuery (fun _ => none) handle.queryGuid
            (some handle.querySql) 0
          refine ⟨.dbRun (fun _ => none) 0, { s with
            db := .working rest
            executed := s.executed ++ [(handle, t)]
            feedbackQueue := s.feedbackQueue.push (.query handle t)
            feedback := s.feedback.woken
            pushed := s.pushed ++ [.query handle t] }, trivial, ?_,
            ⟨⟨_, _, _, _, _, _, rfl⟩, .inl rfl⟩, ?_⟩
          · change s.dbRun _ _ = _
            simp only [dbRun, hdb, ht, Option.map_some, pushFeedback]
          -- the answer is the work of the other thread, and less of it
          · simp only [dbWork, feedbackWork, hdb, SosPipe.push, List.length_append,
              List.length_cons, List.length_nil]
            cases s.feedback <;> simp only [FeedbackThreadAt.woken] <;> omega
      | other task =>
          refine ⟨.dbOther, { s with db := .working rest }, trivial, ?_,
            .own (by rw [pending, hdb]; rfl), ?_⟩
          · change s.dbOther = _
            simp only [dbOther, hdb]
          · simp only [dbWork, feedbackWork, hdb, List.length_cons]
            omega

/-- **The thread of the database gets on**, until it has left or waits for a running
daemon. -/
theorem db_progress (h : s.InOrder) (hleft : s.db ≠ .left)
    (hidle : s.status = .running → s.db.batch ≠ [] ∨ s.dbQueue.items ≠ []) : s.DbGetsOn := by
  cases hdb : s.db with
  | left => exact absurd hdb hleft
  | top =>
      refine dbGetsOn_top h hdb fun hrunning => ?_
      rw [hdb] at hidle
      exact (hidle hrunning).resolve_left fun hbatch => hbatch rfl
  | waiting => exact dbGetsOn_waiting h hdb
  | working batch => exact dbGetsOn_working hdb

/-- **So does the feedback thread**, while the daemon is running and there is something
to send, unless it sleeps. -/
theorem feedback_progress (hstatus : s.status = .running) (hleft : s.feedback ≠ .left)
    (hasleep : s.feedback ≠ .asleep)
    (hmore : s.feedback = .waiting ∨ s.feedback.held ++ s.feedbackQueue.items ≠ []) :
    ∃ a s', QueryStep.ofFeedback a ∧ QueryPath.step s a = some s' ∧
      (∃ feedback feedbackQueue later,
        s' = { s with feedback, feedbackQueue, settled := s.settled ++ later } ∧
          (∀ x ∈ later, x.2 = true) ∧
          (feedback.Waits → s.feedback.Waits ∧ feedbackQueue = s.feedbackQueue)) ∧
      dbWork s' = dbWork s ∧ feedbackWork s' < feedbackWork s := by
  cases hfeedback : s.feedback with
  | left => exact absurd hfeedback hleft
  | asleep => exact absurd hfeedback hasleep
  | top =>
      refine ⟨.feedbackCheck, { s with feedback := .popping }, trivial, ?_,
        ⟨_, _, [], by rw [List.append_nil], nofun, by rintro (h | h) <;> cases h⟩, rfl, ?_⟩
      · change s.feedbackCheck = _
        simp only [feedbackCheck, hfeedback]
        rw [if_pos hstatus]
      · simp only [feedbackWork, hfeedback]
        omega
  | popping =>
      rw [hfeedback] at hmore
      have hsome : s.feedbackQueue.items ≠ [] := hmore.resolve_left (by simp)
      obtain ⟨task, rest, hitems⟩ := List.exists_cons_of_ne_nil hsome
      refine ⟨.feedbackPop, { s with
          feedback := .holding task
          feedbackQueue := ⟨rest, s.feedbackQueue.elemCount - 1⟩ }, trivial, ?_,
        ⟨_, _, [], by rw [List.append_nil], nofun, by rintro (h | h) <;> cases h⟩, rfl, ?_⟩
      · change s.feedbackPop = _
        simp only [feedbackPop, hfeedback, SosPipe.pop, hitems]
        rfl
      · simp only [feedbackWork, hfeedback, hitems, List.length_cons]
        omega
  | waiting =>
      refine ⟨.feedbackWait, { s with feedback := .asleep }, trivial, ?_,
        ⟨_, _, [], by rw [List.append_nil], nofun, fun _ => ⟨.inl rfl, rfl⟩⟩, rfl, ?_⟩
      · change s.feedbackWait = _
        simp only [feedbackWait, hfeedback]
      · simp only [feedbackWork, hfeedback]
        omega
  | holding task =>
      refine ⟨.feedbackTest, { s with feedback := .sending task }, trivial, ?_,
        ⟨_, _, [], by rw [List.append_nil], nofun, by rintro (h | h) <;> cases h⟩, rfl, ?_⟩
      · change s.feedbackTest = _
        simp only [feedbackTest, hfeedback, hstatus]
        rfl
      · simp only [feedbackWork, hfeedback]
        omega
  | sending task =>
      refine ⟨.feedbackSend true, { s with
          feedback := .top
          settled := s.settled ++ [(task, true)] }, trivial, ?_,
        ⟨_, _, [(task, true)], rfl, by simp, by rintro (h | h) <;> cases h⟩, rfl, ?_⟩
      · change s.feedbackSend true = _
        simp only [feedbackSend, hfeedback]
      · simp only [feedbackWork, hfeedback]
        omega

/-- **The threads are there** while the daemon is running: the feedback thread until the
queues are closed, and that of the database unless it is disabled. -/
structure Staffed (s : QueryPath) : Prop where
  feedback : s.status = .running → s.main ≠ .closed → s.main ≠ .halted → s.feedback ≠ .left
  db : s.status = .running → s.dbDisabled = false → s.db ≠ .left

theorem staffed_start (dbDisabled : Bool) : (start dbDisabled).Staffed where
  feedback _ _ _ := nofun
  db _ hdisabled := by
    cases hdisabled
    simp [start]

theorem Staffed.step (h : s.Staffed) {a : QueryStep} (hstep : QueryPath.step s a = some s') :
    s'.Staffed := by
  obtain ⟨hfeedback, hdb⟩ := h
  have hopen {main : MainThreadAt} (hmain : s.main = main) (hclosed : main ≠ .closed)
      (hhalted : main ≠ .halted) (hrunning : s.status = .running) : s.feedback ≠ .left :=
    hfeedback hrunning (hmain ▸ hclosed) (hmain ▸ hhalted)
  cases moves hstep with
  | listen hmain | receive hmain | query hmain | otherMsg hmain | join hmain =>
      exact ⟨fun hrunning _ _ => hopen hmain (by decide) (by decide) hrunning, hdb⟩
  | answer hmain | cacheGrab hmain =>
      exact ⟨fun hrunning _ _ => FeedbackThreadAt.woken_ne_left
        (hopen hmain (by decide) (by decide) hrunning), hdb⟩
  | close => exact ⟨fun _ hclosed => absurd rfl hclosed, hdb⟩
  -- these end the running
  | shutdown | halt | shut => exact ⟨nofun, nofun⟩
  | stop | push => exact ⟨hfeedback, hdb⟩
  | trigger | spurious =>
      exact ⟨fun hrunning hclosed hhalted =>
        FeedbackThreadAt.woken_ne_left (hfeedback hrunning hclosed hhalted), hdb⟩
  | dbQuery =>
      exact ⟨fun hrunning hclosed hhalted =>
        FeedbackThreadAt.woken_ne_left (hfeedback hrunning hclosed hhalted), fun _ _ => nofun⟩
  | dbWait | dbTake | dbNothing | dbOther | dbCommit =>
      exact ⟨hfeedback, fun _ _ => nofun⟩
  | dbLeave _ hstatus => exact ⟨hfeedback, fun hrunning => absurd hrunning hstatus⟩
  | feedbackEnter | feedbackTake | feedbackNothing | feedbackWait | feedbackSuppress
  | feedbackPass | feedbackSend =>
      exact ⟨fun _ _ _ => nofun, hdb⟩
  | feedbackLeave _ hstatus => exact ⟨fun hrunning => absurd hrunning hstatus, hdb⟩
  | feedbackClosed _ _ hclosed =>
      exact ⟨fun _ hmain hmain' => absurd hclosed (not_or.mpr ⟨hmain, hmain'⟩), hdb⟩

theorem staffed_run {dbDisabled : Bool} {steps : List QueryStep}
    (hrun : run QueryPath.step (start dbDisabled) steps = some s) : s.Staffed :=
  run_preserves (fun _ _ _ h hstep => h.step hstep) (staffed_start dbDisabled) hrun

/-- **What the threads make of a state**, while nothing else happens. -/
structure Onward (s s' : QueryPath) : Prop where
  inOrder : s'.InOrder
  staffed : s'.Staffed
  awake : ¬ s'.Overslept
  status : s'.status = s.status
  main : s'.main = s.main
  accepted : s'.accepted = s.accepted
  settled : ∃ later, s'.settled = s.settled ++ later ∧ ∀ x ∈ later, x.2 = true

/-- No query waits to be run or to be sent. -/
def Idle (s : QueryPath) : Prop := s.pending = [] ∧ s.unsent = []

/-- The thread of the database has a step, if a query waits for it. -/
theorem Onward.db (hstatus : s.status = .running) {u : QueryPath} (h : Onward s u)
    (hpending : u.pending ≠ []) (hwaiting : u.feedback ≠ .waiting) :
    ∃ a u', (QueryStep.ofDb a ∨ QueryStep.ofFeedback a) ∧ QueryPath.step u a = some u' ∧
      Onward s u' ∧ dbWork u' + feedbackWork u' < dbWork u + feedbackWork u := by
  have hrunning : u.status = .running := h.status.trans hstatus
  have hmore : u.db.batch ≠ [] ∨ u.dbQueue.items ≠ [] := by
    refine not_and_or.mp fun hnone => hpending ?_
    rw [pending, hnone.1, hnone.2]
    rfl
  have henabled : u.dbDisabled = false := by
    refine Bool.eq_false_of_not_eq_true fun hdisabled => ?_
    obtain ⟨hbatch, hitems⟩ := h.inOrder.disabled hdisabled
    exact hmore.elim (fun hne => hne hbatch) fun hne => hne hitems
  obtain ⟨a, u', hof, hstep, ⟨⟨db, dbQueue, executed, feedbackQueue, feedback, pushed, hu'⟩,
      hwakes⟩, -, hless⟩ :=
    db_progress h.inOrder (h.staffed.db hrunning henabled) fun _ => hmore
  have hawake : ¬ u'.Overslept := by
    rintro ⟨hwaits, hunsent, hnone⟩
    rcases hwakes with hwoken | ⟨hsame, hunsent', hpending'⟩
    · rw [hwoken] at hwaits
      exact FeedbackThreadAt.not_waits_woken hwaiting hwaits
    · exact h.awake ⟨hsame ▸ hwaits, hunsent' ▸ hunsent, hpending' ▸ hnone⟩
  refine ⟨a, u', .inl hof, hstep, ⟨h.inOrder.step hstep, h.staffed.step hstep, hawake, ?_, ?_, ?_,
    ?_⟩, hless⟩
  · exact (congrArg QueryPath.status hu').trans h.status
  · exact (congrArg QueryPath.main hu').trans h.main
  · exact (congrArg QueryPath.accepted hu').trans h.accepted
  · have hsettled : u'.settled = u.settled := by rw [hu']
    rw [hsettled]
    exact h.settled

/-- And so has the feedback thread, if it has something to do. -/
theorem Onward.feedback (hstatus : s.status = .running) (hclosed : s.main ≠ .closed)
    (hhalted : s.main ≠ .halted) {u : QueryPath} (h : Onward s u) (hasleep : u.feedback ≠ .asleep)
    (hmore : u.feedback = .waiting ∨ u.feedback.held ++ u.feedbackQueue.items ≠ []) :
    ∃ a u', (QueryStep.ofDb a ∨ QueryStep.ofFeedback a) ∧ QueryPath.step u a = some u' ∧
      Onward s u' ∧ dbWork u' + feedbackWork u' < dbWork u + feedbackWork u := by
  have hrunning : u.status = .running := h.status.trans hstatus
  have hleft : u.feedback ≠ .left := h.staffed.feedback hrunning
    (fun hmain => hclosed (h.main.symm.trans hmain))
    fun hmain => hhalted (h.main.symm.trans hmain)
  obtain ⟨a, u', hof, hstep, ⟨feedback, feedbackQueue, last, hu', hsent, hwaits⟩, hsame, hless⟩ :=
    feedback_progress hrunning hleft hasleep hmore
  obtain ⟨later, hlater, hall⟩ := h.settled
  have hstep' := h.inOrder.step hstep
  have hstaffed := h.staffed.step hstep
  subst hu'
  refine ⟨a, _, .inr hof, hstep, ⟨hstep', hstaffed, ?_, h.status, h.main, h.accepted,
    later ++ last, ?_, List.forall_mem_append.mpr ⟨hall, hsent⟩⟩, by omega⟩
  · rintro ⟨hwaits', hunsent, hnone⟩
    obtain ⟨hwaited, hqueue⟩ := hwaits hwaits'
    refine h.awake ⟨hwaited, ?_, hnone⟩
    unfold unsent at hunsent ⊢
    rw [FeedbackThreadAt.held_of_waits hwaited, ← hqueue]
    rwa [FeedbackThreadAt.held_of_waits hwaits'] at hunsent
  · show u.settled ++ last = _
    rw [hlater, List.append_assoc]

/-- **A running daemon gets on** until no query waits: the feedback thread goes to sleep
before the database comes with the next answer, so that it is woken. -/
theorem Onward.progress (hstatus : s.status = .running) (hclosed : s.main ≠ .closed)
    (hhalted : s.main ≠ .halted) {u : QueryPath} (h : Onward s u) (hbusy : ¬ u.Idle) :
    ∃ a u', (QueryStep.ofDb a ∨ QueryStep.ofFeedback a) ∧ QueryPath.step u a = some u' ∧
      Onward s u' ∧ dbWork u' + feedbackWork u' < dbWork u + feedbackWork u := by
  by_cases hwaiting : u.feedback = .waiting
  · exact h.feedback hstatus hclosed hhalted (by rw [hwaiting]; nofun) (.inl hwaiting)
  by_cases hpending : u.pending = []
  · have hunsent : u.unsent ≠ [] := fun hnone => hbusy ⟨hpending, hnone⟩
    refine h.feedback hstatus hclosed hhalted (fun hasleep => ?_) (.inr fun hnone => hunsent ?_)
    · exact h.awake ⟨.inr hasleep, hunsent, hpending⟩
    · rw [unsent, hnone]
      rfl
  · exact h.db hstatus hpending hwaiting

/-- **Whoever has overslept sleeps on**, whatever the two threads do. -/
theorem Overslept.step (h : s.Overslept) {a : QueryStep}
    (hof : QueryStep.ofDb a ∨ QueryStep.ofFeedback a) (hstep : QueryPath.step s a = some s') :
    s'.Overslept ∧ s'.accepted = s.accepted := by
  obtain ⟨hwaits, hunsent, hnone⟩ := h
  have hnot {pos : FeedbackThreadAt} (hpos : s.feedback = pos) (hawake : ¬ pos.Waits) : False :=
    hawake (hpos ▸ hwaits)
  have hkeep {db : DbThreadAt} {dbQueue : SosPipe DbWork}
      (hsame : (db.batch ++ dbQueue.items).filterMap DbWork.query? = s.pending) :
      ({ s with db, dbQueue } : QueryPath).Overslept := ⟨hwaits, hunsent, hsame.trans hnone⟩
  cases moves hstep with
  | dbWait hdb | dbLeave hdb | dbNothing hdb | dbCommit hdb | dbOther hdb =>
      exact ⟨hkeep (by rw [pending, hdb]; rfl), rfl⟩
  | dbTake hdb =>
      refine ⟨hkeep ?_, rfl⟩
      rw [pending, hdb]
      change (List.take _ _ ++ List.drop _ _).filterMap _ = _
      rw [List.take_append_drop]
      rfl
  | dbQuery hdb =>
      rw [pending, hdb] at hnone
      cases hnone
  | feedbackEnter hpos | feedbackLeave hpos | feedbackTake hpos | feedbackClosed hpos
  | feedbackNothing hpos | feedbackSuppress hpos | feedbackPass hpos | feedbackSend hpos =>
      exact (hnot hpos (by rintro (heq | heq) <;> cases heq)).elim
  | feedbackWait hpos =>
      refine ⟨⟨.inr rfl, ?_, hnone⟩, rfl⟩
      rwa [unsent, hpos] at hunsent
  | _ => rcases hof with hof | hof <;> cases hof

/-- **While the daemon is running, every query can be answered**: from whatever state, the
threads alone come to one where all that were accepted are settled, and all that had not
been settled before were sent, exactly if the feedback thread has not overslept. -/
theorem all_answered_iff {dbDisabled : Bool} {steps : List QueryStep}
    (hrun : run QueryPath.step (start dbDisabled) steps = some s) (hstatus : s.status = .running)
    (hclosed : s.main ≠ .closed) (hhalted : s.main ≠ .halted) :
    (∃ later t, (∀ a ∈ later, QueryStep.ofDb a ∨ QueryStep.ofFeedback a) ∧
      run QueryPath.step s later = some t ∧ t.answered.map Prod.fst = s.accepted ∧
      ∃ settled, t.settled = s.settled ++ settled ∧ ∀ x ∈ settled, x.2 = true) ↔
    ¬ s.Overslept := by
  constructor
  · rintro ⟨later, t, hof, hrun', hanswered, -⟩ hslept
    have hkeep : ∀ (u : QueryPath) (a : QueryStep) (u' : QueryPath),
        (u.InOrder ∧ u.Overslept ∧ u.accepted = s.accepted) →
          (QueryStep.ofDb a ∨ QueryStep.ofFeedback a) → QueryPath.step u a = some u' →
            u'.InOrder ∧ u'.Overslept ∧ u'.accepted = s.accepted := by
      rintro u a u' ⟨hu, hslept', haccepted⟩ hof' hstep
      obtain ⟨hslept'', hsame⟩ := hslept'.step hof' hstep
      exact ⟨hu.step hstep, hslept'', hsame.trans haccepted⟩
    obtain ⟨ht, ⟨-, hunsent, -⟩, haccepted⟩ := run_invariant hkeep
      ⟨inOrder_run hrun, hslept, rfl⟩ (along_of_forall_mem hof _) hrun'
    have hexecuted := ht.executed
    rw [ht.executed_eq, haccepted, ← hanswered, List.map_append, List.append_assoc] at hexecuted
    have hrest := List.append_eq_nil_iff.mp (List.append_right_eq_self.mp hexecuted)
    exact hunsent (List.map_eq_nil_iff.mp hrest.1)
  · intro hawake
    have hstart : Onward s s :=
      ⟨inOrder_run hrun, staffed_run hrun, hawake, rfl, rfl, rfl, [], by simp, by simp⟩
    obtain ⟨later, t, hlater, hrun', ht, hpending, hunsent⟩ := exists_run_of_measure
      (fun u => dbWork u + feedbackWork u)
      (fun u hu hbusy => hu.progress hstatus hclosed hhalted hbusy) hstart
    refine ⟨later, t, hlater, hrun', ?_, ht.settled⟩
    have hexecuted := ht.inOrder.executed
    rw [hpending, List.append_nil, ht.inOrder.executed_eq, hunsent, List.append_nil] at hexecuted
    exact hexecuted.trans ht.accepted

/-- The answer is pushed between the test of the feedback thread and its wait. -/
def oversleepRun : List QueryStep :=
  [.feedbackCheck, .feedbackPop, .listen, .receive, .query (queryOf 7), .dbCheck, .dbPop,
    .dbRun (fun _ => none) 0, .dbCommit, .feedbackWait]

/-- Of three queries two were still to be settled, and they can be. The one that came too
early for its wake-up cannot. -/
theorem all_answered_iff_three :
    (∃ s later t, run QueryPath.step (start false) queryRun = some s ∧
      run QueryPath.step s later = some t ∧
      t.answered.map Prod.fst = [queryOf 7, queryOf 8, queryOf 9]) ∧
    ∃ s, run QueryPath.step (start false) oversleepRun = some s ∧ s.accepted = [queryOf 7] ∧
      ¬ ∃ later t, (∀ a ∈ later, QueryStep.ofDb a ∨ QueryStep.ofFeedback a) ∧
        run QueryPath.step s later = some t ∧ t.answered.map Prod.fst = s.accepted ∧
        ∃ settled, t.settled = s.settled ++ settled ∧ ∀ x ∈ settled, x.2 = true := by
  constructor
  · obtain ⟨s, hrun⟩ : ∃ s, run QueryPath.step (start false) queryRun = some s := ⟨_, rfl⟩
    have hstate : s.status = .running ∧ s.main = .top ∧ s.feedback = .top ∧
        s.accepted = [queryOf 7, queryOf 8, queryOf 9] := by
      cases hrun
      exact ⟨rfl, rfl, rfl, rfl⟩
    obtain ⟨hstatus, hmain, hfeedback, haccepted⟩ := hstate
    have hawake : ¬ s.Overslept := by
      rintro ⟨hwaits | hwaits, -⟩
      · rw [hfeedback] at hwaits
        cases hwaits
      · rw [hfeedback] at hwaits
        cases hwaits
    obtain ⟨later, t, -, hlater, hanswered, -⟩ := (all_answered_iff hrun hstatus
      (by rw [hmain]; decide) (by rw [hmain]; decide)).mpr hawake
    exact ⟨s, later, t, hrun, hlater, hanswered.trans haccepted⟩
  · obtain ⟨s, hrun⟩ : ∃ s, run QueryPath.step (start false) oversleepRun = some s := ⟨_, rfl⟩
    have hstate : s.status = .running ∧ s.main = .top ∧ s.feedback = .asleep ∧
        s.unsent.map Prod.fst = [queryOf 7] ∧ s.pending = [] ∧ s.accepted = [queryOf 7] := by
      cases hrun
      exact ⟨rfl, rfl, rfl, rfl, rfl, rfl⟩
    obtain ⟨hstatus, hmain, hfeedback, hunsent, hpending, haccepted⟩ := hstate
    refine ⟨s, hrun, haccepted, fun hanswered => ?_⟩
    refine (all_answered_iff hrun hstatus (by rw [hmain]; decide) (by rw [hmain]; decide)).mp
      hanswered ⟨.inr hfeedback, fun hnone => ?_, hpending⟩
    rw [hnone] at hunsent
    cases hunsent

end QueryPath

end SosFlow
