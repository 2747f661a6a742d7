import SosFlow.Daemon.Topology
import SosFlow.Lib.Trace

/-!
# A shutdown that waits for itself

`SOSD_handle_shutdown` runs inside the listen loop, between two calls of
`accept`. A listener that forwards the shutdown calls
`SOSD_cloud_shutdown_notice` first, and that has a branch for aggregators,
which sends a message to the daemon's own port and waits for the reply.
Only the listen loop could give that reply.

Over EVPath the branch asks whether the daemon is an aggregator. Over
sockets and ZeroMQ it is the plain `else` of the rule by which the first
listeners notify the aggregators, and every further listener falls into it:
`shutdown_never_waits_iff`.
-/

namespace SosFlow

open Trace

/-- Whose connection the listen loop has accepted. -/
inductive Peer where
  | client
  | self
deriving DecidableEq

/-- What a handler does, as far as others can see it or it can wait. The wait
inside `SOSD_cloud_send` is for another daemon. -/
inductive ListenAct where
  | replyAck
  | cloudSend (target : ℤ)
  | connectSelf
  | sendSelf
  | recvSelf
  | disconnectSelf
  | stopRunning
  | statusShutdown
deriving DecidableEq

/-- `SOSD_send_to_self`. -/
def sosdSendToSelf : List ListenAct := [.connectSelf, .sendSelf, .recvSelf, .disconnectSelf]

/-- `SOSD_cloud_shutdown_notice`, branch by branch. -/
def sosdCloudShutdownNoticeActs (t : Transport) (role : DaemonRole) (commRank : ℕ)
    (sync : CloudSync) : List ListenAct :=
  if (commRank : ℤ) - sync.targetCount < sync.targetCount then [.cloudSend sync.target]
  else match t with
    | .socket => sosdSendToSelf
    | .zeromq => sosdSendToSelf
    | .evpath => if role = .aggregator then sosdSendToSelf else []

/-- `SOSD_handle_shutdown`. The two settings it unpacks from the message are
not looked at. -/
def sosdHandleShutdown (t : Transport) (role : DaemonRole) (fwdShutdownToAgg : Bool)
    (commRank : ℕ) (sync : CloudSync) : List ListenAct :=
  [.replyAck] ++
    (if role = .listener ∧ fwdShutdownToAgg = true then
      sosdCloudShutdownNoticeActs t role commRank sync else []) ++
    [.stopRunning, .statusShutdown]

/-! ## The listen loop -/

/-- **The listen loop inside a handler**: what the handler has still to do,
the connections that wait to be accepted, and the replies that have arrived
on the daemon's connection to itself. What the handler has performed is kept
for the statements alone. -/
structure ListenLoop where
  serving : Peer
  todo : List ListenAct
  performed : List ListenAct
  backlog : List Peer
  repliesToSelf : ℕ
  running : Bool
  shutdown : Bool

/-- What happens next: the handler's next act, a client that connects, or,
between two handlers, the next `accept`, with whatever its message has the
loop do. -/
inductive LoopEvent where
  | act
  | connect
  | accept (handler : List ListenAct)

namespace ListenLoop

/-- One act. A reply goes to whom the loop is serving, and a `recv` with
nothing to receive is not possible. -/
def perform (s : ListenLoop) : ListenAct → Option ListenLoop
  | .replyAck => some (match s.serving with
      | .client => s
      | .self => { s with repliesToSelf := s.repliesToSelf + 1 })
  | .cloudSend _ => some s
  | .connectSelf => some { s with backlog := s.backlog ++ [.self] }
  | .sendSelf => some s
  | .recvSelf =>
      if s.repliesToSelf = 0 then none
      else some { s with repliesToSelf := s.repliesToSelf - 1 }
  | .disconnectSelf => some s
  | .stopRunning => some { s with running := false }
  | .statusShutdown => some { s with shutdown := true }

def step (s : ListenLoop) : LoopEvent → Option ListenLoop
  | .act =>
      match s.todo with
      | [] => none
      | a :: rest => (s.perform a).map fun s' =>
          { s' with todo := rest, performed := s.performed ++ [a] }
  | .connect => some { s with backlog := s.backlog ++ [.client] }
  | .accept handler =>
      if s.todo = [] ∧ s.running = true then
        match s.backlog with
        | [] => none
        | peer :: rest => some { s with serving := peer, backlog := rest, todo := handler }
      else none

/-- A loop that has just received a client's message. -/
def received (handler : List ListenAct) (backlog : List Peer) : ListenLoop :=
  ⟨.client, handler, [], backlog, 0, true, false⟩

/-- The point at which the daemon is shut down. -/
def Stopped (s : ListenLoop) : Prop := s.running = false ∧ s.shutdown = true

/-- **A shutdown that does not wait for itself**: the handler never sends the
daemon a message, and from wherever it has got to it can get to the point. -/
structure NeverWaits (start : ListenLoop) : Prop where
  no_request : ∀ events s, run step start events = some s → ListenAct.sendSelf ∉ s.performed
  reaches : ∀ events s, run step start events = some s →
    ∃ more s', run step s more = some s' ∧ Stopped s'

end ListenLoop

/-- The listen loop of a listener that has received a SHUTDOWN, with
forwarding enabled. -/
def shuttingDown (t : Transport) (d : Deployment) (commRank : ℕ) (backlog : List Peer) :
    ListenLoop :=
  ListenLoop.received (match d.cloudInit commRank with
    | none => []
    | some sync => sosdHandleShutdown t .listener true commRank sync) backlog

namespace ListenLoop

variable {s s' : ListenLoop} {program : List ListenAct} {backlog : List Peer}

/-! ## What one event does -/

/-- What an act leaves alone, and what it does to the flags. -/
theorem perform_some {a : ListenAct} (h : s.perform a = some s') :
    s'.serving = s.serving ∧ (s'.running = false ↔ s.running = false ∨ a = .stopRunning) ∧
      (s'.shutdown = true ↔ s.shutdown = true ∨ a = .statusShutdown) ∧
      (s.serving = .client → s.repliesToSelf = 0 → s'.repliesToSelf = 0 ∧ a ≠ .recvSelf) := by
  cases a <;> simp only [perform] at h
  case recvSelf =>
      split at h
      · cases h
      · rename_i hsome
        obtain rfl := Option.some.inj h
        exact ⟨rfl, by simp, by simp, fun _ hzero => absurd hzero hsome⟩
  case replyAck =>
      obtain rfl := Option.some.inj h
      cases hserving : s.serving <;> simp_all
  all_goals
    obtain rfl := Option.some.inj h
    simp_all

/-- An act other than a `recv` is possible. -/
theorem perform_of_ne (s : ListenLoop) {a : ListenAct} (h : a ≠ .recvSelf) :
    ∃ s', s.perform a = some s' := by
  cases a <;> first | exact ⟨_, rfl⟩ | exact absurd rfl h

theorem step_act {a : ListenAct} {rest : List ListenAct} (htodo : s.todo = a :: rest)
    (h : s.step .act = some s') :
    ∃ s₁, s.perform a = some s₁ ∧
      s' = { s₁ with todo := rest, performed := s.performed ++ [a] } := by
  rw [step, htodo] at h
  obtain ⟨s₁, hperform, rfl⟩ := Option.map_eq_some_iff.mp h
  exact ⟨s₁, hperform, rfl⟩

/-! ## A program that waits for nobody -/

/-- How far a handler has got: what it has performed and what it has still to
do make up its program, and the flags say which of it has been performed. -/
structure Underway (program : List ListenAct) (s : ListenLoop) : Prop where
  split : s.performed ++ s.todo = program
  running : s.running = false ↔ ListenAct.stopRunning ∈ s.performed
  shutdown : s.shutdown = true ↔ ListenAct.statusShutdown ∈ s.performed

theorem underway_received : Underway program (received program backlog) :=
  ⟨rfl, by simp [received], by simp [received]⟩

theorem Underway.step (hstop : ListenAct.stopRunning ∈ program) (hs : Underway program s)
    {e : LoopEvent} (h : s.step e = some s') : Underway program s' := by
  cases e with
  | connect =>
      obtain rfl := Option.some.inj h
      exact ⟨hs.split, hs.running, hs.shutdown⟩
  | accept handler =>
      rw [ListenLoop.step] at h
      split at h
      · rename_i hidle
        -- a handler with nothing left to do has stopped the loop
        have hall : s.performed = program := by
          have hsplit := hs.split
          rwa [hidle.1, List.append_nil] at hsplit
        have hstopped := hs.running.mpr (hall ▸ hstop)
        rw [hidle.2] at hstopped
        cases hstopped
      · cases h
  | act =>
      cases htodo : s.todo with
      | nil =>
          rw [ListenLoop.step, htodo] at h
          cases h
      | cons a rest =>
          obtain ⟨s₁, hperform, rfl⟩ := step_act htodo h
          obtain ⟨-, hrunning, hshutdown, -⟩ := perform_some hperform
          refine ⟨?_, ?_, ?_⟩
          · show s.performed ++ [a] ++ rest = program
            rw [List.append_assoc, List.singleton_append, ← htodo]
            exact hs.split
          · show s₁.running = false ↔ _ ∈ s.performed ++ [a]
            rw [hrunning, hs.running, List.mem_append, List.mem_singleton, eq_comm (a := a)]
          · show s₁.shutdown = true ↔ _ ∈ s.performed ++ [a]
            rw [hshutdown, hs.shutdown, List.mem_append, List.mem_singleton, eq_comm (a := a)]

/-- **What is left of a handler is done**, when it waits for nobody. -/
theorem run_todo (hwait : ListenAct.recvSelf ∉ s.todo) :
    ∃ s', run step s (List.replicate s.todo.length .act) = some s' ∧ s'.todo = [] := by
  generalize htodo : s.todo = todo at hwait
  induction todo generalizing s with
  | nil => exact ⟨s, rfl, htodo⟩
  | cons a rest ih =>
      have hne : a ≠ .recvSelf := fun heq => hwait (heq ▸ List.mem_cons_self)
      obtain ⟨s₁, hperform⟩ := s.perform_of_ne hne
      have hstep : s.step .act =
          some { s₁ with todo := rest, performed := s.performed ++ [a] } := by
        rw [step, htodo]
        show (s.perform a).map _ = _
        rw [hperform, Option.map_some]
      obtain ⟨s', hrun, hdone⟩ := ih (s := { s₁ with todo := rest, performed := s.performed ++ [a] })
        rfl fun hmem => hwait (List.mem_cons_of_mem _ hmem)
      refine ⟨s', ?_, hdone⟩
      rw [List.length_cons, List.replicate_succ, run_cons, hstep, Option.bind_some]
      exact hrun

/-- **A program without a request to itself never waits for itself.** -/
theorem neverWaits_of_not_mem (hstop : ListenAct.stopRunning ∈ program)
    (hshutdown : ListenAct.statusShutdown ∈ program) (hsend : ListenAct.sendSelf ∉ program)
    (hrecv : ListenAct.recvSelf ∉ program) : NeverWaits (received program backlog) := by
  have hinv : ∀ events s, run step (received program backlog) events = some s →
      Underway program s := by
    intro events s hrun
    exact run_preserves (fun s e s' hs h => hs.step hstop h) underway_received hrun
  refine ⟨?_, ?_⟩
  · intro events s hrun hmem
    exact hsend ((hinv events s hrun).split ▸ List.mem_append_left _ hmem)
  · intro events s hrun
    have hs := hinv events s hrun
    obtain ⟨s', hrun', hdone⟩ := run_todo (s := s)
      fun hmem => hrecv (hs.split ▸ List.mem_append_right _ hmem)
    have hs' : Underway program s' := run_preserves (fun s e s' hs h => hs.step hstop h) hs hrun'
    have hall : s'.performed = program := by
      have hsplit := hs'.split
      rwa [hdone, List.append_nil] at hsplit
    exact ⟨_, s', hrun', hs'.running.mpr (hall ▸ hstop), hs'.shutdown.mpr (hall ▸ hshutdown)⟩

/-! ## A program that waits for itself -/

/-- The handler is not past its `recv`, and nothing has been sent that it
could receive. -/
structure BeforeRecv (before after : List ListenAct) (s : ListenLoop) : Prop where
  split : ∃ left, s.performed ++ left = before ∧ s.todo = left ++ .recvSelf :: after
  serving : s.serving = .client
  noReply : s.repliesToSelf = 0
  running : s.running = true

theorem BeforeRecv.step {before after : List ListenAct} (hstop : ListenAct.stopRunning ∉ before)
    (hs : BeforeRecv before after s) {e : LoopEvent} (h : s.step e = some s') :
    BeforeRecv before after s' := by
  obtain ⟨left, hbefore, htodo⟩ := hs.split
  cases e with
  | connect =>
      obtain rfl := Option.some.inj h
      exact ⟨hs.split, hs.serving, hs.noReply, hs.running⟩
  | accept handler =>
      -- the loop is inside the handler, and accepts nobody
      have hbusy : ¬ (s.todo = [] ∧ s.running = true) := by
        intro hidle
        rw [htodo] at hidle
        exact absurd hidle.1 (by simp)
      rw [ListenLoop.step, if_neg hbusy] at h
      cases h
  | act =>
      cases left with
      | nil =>
          obtain ⟨s₁, hperform, -⟩ := step_act htodo h
          obtain ⟨-, -, -, hreply⟩ := perform_some hperform
          exact absurd rfl (hreply hs.serving hs.noReply).2
      | cons a left =>
          obtain ⟨s₁, hperform, rfl⟩ := step_act htodo h
          obtain ⟨hserving, hrunning, -, hreply⟩ := perform_some hperform
          have hne : a ≠ .stopRunning := by
            rintro rfl
            exact hstop (hbefore ▸ List.mem_append_right _ List.mem_cons_self)
          refine ⟨⟨left, ?_, rfl⟩, hserving.trans hs.serving, (hreply hs.serving hs.noReply).1, ?_⟩
          · show s.performed ++ [a] ++ left = before
            rw [List.append_assoc, List.singleton_append]
            exact hbefore
          · show s₁.running = true
            cases hflag : s₁.running with
            | true => rfl
            | false =>
                rcases hrunning.mp hflag with hfalse | hstopped
                · rw [hs.running] at hfalse
                  cases hfalse
                · exact absurd hstopped hne

/-- **A program that waits for itself before it stops the loop never gets
there**, whatever else happens. -/
theorem blocked {before after : List ListenAct} (hstop : ListenAct.stopRunning ∉ before)
    {events : List LoopEvent}
    (hrun : run step (received (before ++ .recvSelf :: after) backlog) events = some s) :
    ¬ Stopped s := by
  have hstart : BeforeRecv before after (received (before ++ .recvSelf :: after) backlog) :=
    ⟨⟨before, rfl, rfl⟩, rfl, rfl, rfl⟩
  have hs := run_preserves (fun s e s' hs h => hs.step hstop h) hstart hrun
  intro hstopped
  have hrunning := hs.running
  rw [hstopped.1] at hrunning
  cases hrunning

theorem not_neverWaits {before after : List ListenAct} (hstop : ListenAct.stopRunning ∉ before) :
    ¬ NeverWaits (received (before ++ .recvSelf :: after) backlog) := by
  intro h
  obtain ⟨more, s', hrun, hstopped⟩ := h.reaches [] _ rfl
  exact blocked hstop hrun hstopped

end ListenLoop

open ListenLoop

/-- What a listener does with a SHUTDOWN. -/
theorem shuttingDown_eq (t : Transport) {d : Deployment} {commRank : ℕ}
    (h : d.IsListener commRank) (backlog : List Peer) :
    shuttingDown t d commRank backlog = received (sosdHandleShutdown t .listener true commRank
      ⟨d.aggregatorCount, (commRank % d.aggregatorCount : ℕ)⟩) backlog := by
  rw [shuttingDown, d.cloudInit_eq h]

/-- The acts of a listener that notifies an aggregator. -/
theorem sosdHandleShutdown_first (t : Transport) {commRank : ℕ} {sync : CloudSync}
    (h : (commRank : ℤ) - sync.targetCount < sync.targetCount) :
    sosdHandleShutdown t .listener true commRank sync =
      [.replyAck, .cloudSend sync.target, .stopRunning, .statusShutdown] := by
  have hnotice : sosdCloudShutdownNoticeActs t .listener commRank sync =
      [.cloudSend sync.target] := by
    unfold sosdCloudShutdownNoticeActs
    exact if_pos h
  rw [sosdHandleShutdown, if_pos ⟨rfl, rfl⟩, hnotice]
  rfl

/-- The acts of any other listener, over EVPath. -/
theorem sosdHandleShutdown_evpath {commRank : ℕ} {sync : CloudSync}
    (h : ¬ (commRank : ℤ) - sync.targetCount < sync.targetCount) :
    sosdHandleShutdown .evpath .listener true commRank sync =
      [.replyAck, .stopRunning, .statusShutdown] := by
  rw [sosdHandleShutdown, if_pos ⟨rfl, rfl⟩, sosdCloudShutdownNoticeActs, if_neg h]
  rfl

/-- And over sockets and ZeroMQ: it falls into the branch of the aggregators. -/
theorem sosdHandleShutdown_rest {t : Transport} (ht : t ≠ .evpath) {commRank : ℕ}
    {sync : CloudSync} (h : ¬ (commRank : ℤ) - sync.targetCount < sync.targetCount) :
    sosdHandleShutdown t .listener true commRank sync =
      [.replyAck, .connectSelf, .sendSelf] ++
        .recvSelf :: [.disconnectSelf, .stopRunning, .statusShutdown] := by
  have hnotice : sosdCloudShutdownNoticeActs t .listener commRank sync = sosdSendToSelf := by
    unfold sosdCloudShutdownNoticeActs
    rw [if_neg h]
    cases t with
    | socket => rfl
    | zeromq => rfl
    | evpath => exact absurd rfl ht
  rw [sosdHandleShutdown, if_pos ⟨rfl, rfl⟩, hnotice]
  rfl

/-- **When a shutdown does not wait for itself**: over EVPath, and for the
listeners that notify an aggregator. -/
theorem shutdown_never_waits_iff (t : Transport) (d : Deployment) (commRank : ℕ)
    (backlog : List Peer) (h : d.IsListener commRank) :
    NeverWaits (shuttingDown t d commRank backlog) ↔
      t = .evpath ∨ commRank < 2 * d.aggregatorCount := by
  rw [shuttingDown_eq t h]
  have hrule : (commRank : ℤ) - d.aggregatorCount < d.aggregatorCount ↔
      commRank < 2 * d.aggregatorCount := by omega
  by_cases hnotify : commRank < 2 * d.aggregatorCount
  · refine iff_of_true ?_ (Or.inr hnotify)
    rw [sosdHandleShutdown_first]
    · refine neverWaits_of_not_mem ?_ ?_ ?_ ?_ <;> simp
    · exact hrule.mpr hnotify
  · have hnot := mt hrule.mp hnotify
    by_cases ht : t = .evpath
    · refine iff_of_true ?_ (Or.inl ht)
      rw [ht, sosdHandleShutdown_evpath]
      · refine neverWaits_of_not_mem ?_ ?_ ?_ ?_ <;> simp
      · exact hnot
    · refine iff_of_false ?_ (by rintro (hevpath | hlt) <;> contradiction)
      -- the branch that is meant for aggregators
      rw [sosdHandleShutdown_rest ht]
      · exact not_neverWaits (by simp)
      · exact hnot

/-- Two listeners behind one aggregator. -/
def twoListeners : Deployment := ⟨1, 2, Nat.one_pos⟩

theorem shutdown_never_waits_first :
    NeverWaits (shuttingDown .socket twoListeners 1 []) ↔
      Transport.socket = .evpath ∨ 1 < 2 * twoListeners.aggregatorCount :=
  shutdown_never_waits_iff .socket twoListeners 1 [] ⟨by decide, by decide⟩

/-- The second of two listeners behind one aggregator waits for itself. -/
theorem not_shutdown_never_waits :
    ¬ ∀ (t : Transport) (d : Deployment) (commRank : ℕ) (backlog : List Peer),
      d.IsListener commRank → NeverWaits (shuttingDown t d commRank backlog) := by
  intro h
  have hwaits := h .socket twoListeners 2 [] ⟨by decide, by decide⟩
  rw [shuttingDown_eq _ ⟨by decide, by decide⟩,
    sosdHandleShutdown_rest (by decide) (by decide)] at hwaits
  exact not_neverWaits (by simp) hwaits

end SosFlow
