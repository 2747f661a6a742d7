import SosFlow.Daemon.Registry
import SosFlow.Lib.Ownership

/-!
# Who destroys a buffer

A buffer of the local_sync queue belongs to `SOSD_THREAD_local_sync`. It
gives the buffer to the handler of its message, which returns nothing, and
then passes it on to the cloud_send queue or destroys it. The handler of a
VAL_SNAPS for a pub that the daemon does not know has destroyed it before.

`turn_settles_iff` says when the thread settles the buffer it has popped. In
a run whose turns all do, no buffer is destroyed twice or lost, and none of
those in a queue is destroyed (`accounted_run`). A buffer stands for itself
here: no two have one address.
-/

namespace SosFlow

open Ownership

/-- `SOS_role`. -/
inductive RuntimeRole where
  | unassigned
  | client
  | listener
  | aggregator
  | analytics
  | runtimeUtility
  | offlineTestMode
deriving DecidableEq

/-- **What is in a buffer**: its header, and what each of the handlers makes of the rest. -/
structure SyncMessage where
  header : SosMsgHeader
  announce : AnnounceMsg
  apply : SosPub → SosPub
  syncPending : Bool
  snapQueue : Option (SosPipe SosValSnap)

/-- What happens to a buffer. -/
inductive BufferEvent where
  | touched (a : ℕ)
  | destroyed (a : ℕ)
  | pushed (a : ℕ)
deriving DecidableEq

/-- **The thread**, with the queue it pops from and the one it pushes into, the buffers
by their addresses, of which `next` is not in use yet, and what has happened to them. -/
structure LocalSync where
  registry : Registry
  memory : ℕ → SyncMessage
  next : ℕ
  queue : SosPipe (Option ℕ)
  cloudSend : SosPipe ℕ
  events : List BufferEvent

namespace LocalSync

/-- A daemon that has just started. -/
def start (registry : Registry) (memory : ℕ → SyncMessage) : LocalSync :=
  ⟨registry, memory, 0, .empty, .empty, []⟩

variable (s : LocalSync) (a : ℕ)

/-- The same, and something more has happened. -/
def log (e : BufferEvent) : LocalSync := { s with events := s.events ++ [e] }

/-! ## The handlers -/

/-- **`SOSD_handle_announce`**, which reads the buffer. -/
def handleAnnounce : LocalSync :=
  { s.log (.touched a) with registry := s.registry.handle (.announce
      { (s.memory a).announce with refGuid := (s.memory a).header.refGuid }) }

/-- **`SOSD_handle_publish`**, which reads it as well. -/
def handlePublish : LocalSync :=
  { s.log (.touched a) with registry := s.registry.handle (.publish
      (s.memory a).header.refGuid (s.memory a).apply (s.memory a).syncPending) }

/-- The message is for a pub that the daemon does not know. -/
def Unknown : Prop := s.registry.daemon.pubTable (s.memory a).header.refGuid = none

instance : Decidable (s.Unknown a) :=
  decidable_of_iff ((s.registry.daemon.pubTable (s.memory a).header.refGuid).isNone = true)
    Option.isNone_iff_eq_none

/-- **`SOSD_handle_val_snaps`**, which destroys it when there is no pub for it. -/
def handleValSnaps : LocalSync :=
  if s.Unknown a then (s.log (.touched a)).log (.destroyed a)
  else { s.log (.touched a) with registry := s.registry.handle (.valSnaps
      (s.memory a).header.refGuid (s.memory a).apply (s.memory a).snapQueue) }

/-! ## The thread -/

/-- The `switch`, if the type of the message is one of its cases. -/
def dispatch : Option LocalSync :=
  let msgType := (s.memory a).header.msgType
  if msgType = MsgType.announce.code then some (s.handleAnnounce a)
  else if msgType = MsgType.publish.code then some (s.handlePublish a)
  else if msgType = MsgType.valSnaps.code then some (s.handleValSnaps a)
  else none

/-- What is done with the buffer behind its handler. -/
def passOn (role : RuntimeRole) : LocalSync :=
  if role = .listener then { s.log (.pushed a) with cloudSend := s.cloudSend.push a }
  else if role = .aggregator then s.log (.destroyed a)
  else s

/-- **One turn of `SOSD_THREAD_local_sync`**; there is none when nothing remains in the
queue. -/
def turn (role : RuntimeRole) : Option LocalSync :=
  match s.queue.items with
  | [] => none
  | none :: _ => some { s with queue := (s.queue.pop 1).2 }
  | some a :: _ =>
    let popped := { s.log (.touched a) with queue := (s.queue.pop 1).2 }
    match popped.dispatch a with
    | some handled => some (handled.passOn a role)
    | none => some (popped.log (.destroyed a))

/-! ## A turn -/

/-- **The buffer is settled** by what has happened to it: it was destroyed once, or on a
listener pushed once, and it was not touched behind that. -/
def Settled (role : RuntimeRole) (a : ℕ) (events : List BufferEvent) : Prop :=
  ∃ reads, events = List.replicate reads (.touched a) ++ [.destroyed a] ∨
    (role = .listener ∧ events = List.replicate reads (.touched a) ++ [.pushed a])

/-- **The turn settles the buffer** that it pops. -/
def TurnSettles (role : RuntimeRole) : Prop :=
  ∀ a rest, s.queue.items = some a :: rest →
    ∃ s' events, s.turn role = some s' ∧ s'.events = s.events ++ events ∧ Settled role a events

/-- The type is one of those that a handler is for. -/
def HasHandler (msgType : CInt) : Prop :=
  msgType = MsgType.announce.code ∨ msgType = MsgType.publish.code ∨
    msgType = MsgType.valSnaps.code

/-- The handler destroys the buffer. -/
def HandlerDestroys : Prop := (s.memory a).header.msgType = MsgType.valSnaps.code ∧ s.Unknown a

/-- **When a buffer is settled**: there is no handler for it, or the role is one that
passes it on or destroys it and the handler does not. -/
def Meets (role : RuntimeRole) : Prop :=
  HasHandler (s.memory a).header.msgType →
    ((role = .listener ∨ role = .aggregator) ↔ ¬ s.HandlerDestroys a)

instance (msgType : CInt) : Decidable (HasHandler msgType) := by
  unfold HasHandler
  infer_instance

instance : Decidable (s.HandlerDestroys a) := by
  unfold HandlerDestroys
  infer_instance

/-- What the handler does with the buffer. -/
def handlerEvents : List BufferEvent :=
  if s.HandlerDestroys a then [.touched a, .destroyed a] else [.touched a]

/-- What the thread does with it behind the handler. -/
def passEvents (role : RuntimeRole) : List BufferEvent :=
  if role = .listener then [.pushed a] else if role = .aggregator then [.destroyed a] else []

/-- **What happens to the buffer in a turn.** -/
def turnEvents (role : RuntimeRole) : List BufferEvent :=
  .touched a :: if HasHandler (s.memory a).header.msgType then s.handlerEvents a ++ passEvents a role
    else [.destroyed a]

variable {s a} {role : RuntimeRole}

theorem dispatch_none (h : ¬ HasHandler (s.memory a).header.msgType) : s.dispatch a = none := by
  unfold HasHandler at h
  push Not at h
  unfold dispatch
  rw [if_neg h.1, if_neg h.2.1, if_neg h.2.2]

theorem handlerEvents_destroys (h : s.HandlerDestroys a) :
    s.handlerEvents a = [.touched a, .destroyed a] :=
  if_pos h

theorem handlerEvents_keeps (h : ¬ s.HandlerDestroys a) : s.handlerEvents a = [.touched a] :=
  if_neg h

/-- **A handler** changes the registry, and does with the buffer what it does. -/
theorem dispatch_some (h : HasHandler (s.memory a).header.msgType) : ∃ registry,
    s.dispatch a =
      some { s with registry := registry, events := s.events ++ s.handlerEvents a } := by
  have hpublish : MsgType.publish.code ≠ MsgType.announce.code := by decide
  have hsnaps : MsgType.valSnaps.code ≠ MsgType.announce.code ∧
      MsgType.valSnaps.code ≠ MsgType.publish.code := by decide
  unfold dispatch
  dsimp only
  rcases h with htype | htype | htype
  · have hkeeps : ¬ s.HandlerDestroys a := fun h => hsnaps.1 (h.1.symm.trans htype)
    rw [if_pos htype, handlerEvents_keeps hkeeps]
    exact ⟨_, rfl⟩
  · have hkeeps : ¬ s.HandlerDestroys a := fun h => hsnaps.2 (h.1.symm.trans htype)
    rw [if_neg fun h => hpublish (htype.symm.trans h), if_pos htype, handlerEvents_keeps hkeeps]
    exact ⟨_, rfl⟩
  · rw [if_neg fun h => hsnaps.1 (htype.symm.trans h),
      if_neg fun h => hsnaps.2 (htype.symm.trans h), if_pos htype]
    by_cases hunknown : s.Unknown a
    · refine ⟨s.registry, ?_⟩
      rw [handleValSnaps, if_pos hunknown, handlerEvents_destroys ⟨htype, hunknown⟩, log, log,
        List.append_assoc]
      rfl
    · rw [handleValSnaps, if_neg hunknown, handlerEvents_keeps fun h => hunknown h.2]
      exact ⟨_, rfl⟩

theorem passEvents_listener (h : role = .listener) : passEvents a role = [.pushed a] := if_pos h

theorem passEvents_aggregator (h : role = .aggregator) : passEvents a role = [.destroyed a] := by
  rw [passEvents, if_neg (by rw [h]; decide), if_pos h]

theorem passEvents_other (hlistener : role ≠ .listener) (haggregator : role ≠ .aggregator) :
    passEvents a role = [] := by
  rw [passEvents, if_neg hlistener, if_neg haggregator]

variable (role) in
/-- **A turn** in which a buffer is popped. -/
theorem turn_pops {rest : List (Option ℕ)} (h : s.queue.items = some a :: rest) : ∃ registry,
    s.turn role = some { s with
      registry := registry
      queue := (s.queue.pop 1).2
      cloudSend := if HasHandler (s.memory a).header.msgType ∧ role = .listener
        then s.cloudSend.push a else s.cloudSend
      events := s.events ++ s.turnEvents a role } := by
  unfold turn turnEvents
  rw [h]
  dsimp only
  by_cases hhandler : HasHandler (s.memory a).header.msgType
  · obtain ⟨registry, hdispatch⟩ :=
      dispatch_some (s := { s.log (.touched a) with queue := (s.queue.pop 1).2 }) (a := a) hhandler
    refine ⟨registry, ?_⟩
    have hevents : handlerEvents { s.log (.touched a) with queue := (s.queue.pop 1).2 } a =
        s.handlerEvents a := rfl
    rw [hdispatch, if_pos hhandler, hevents]
    dsimp only
    by_cases hlistener : role = .listener
    · rw [if_pos ⟨hhandler, hlistener⟩, passEvents_listener hlistener, passOn, if_pos hlistener]
      simp [log]
    · rw [if_neg fun h => hlistener h.2]
      by_cases haggregator : role = .aggregator
      · rw [passEvents_aggregator haggregator, passOn, if_neg hlistener, if_pos haggregator]
        simp [log]
      · rw [passEvents_other hlistener haggregator, passOn, if_neg hlistener, if_neg haggregator]
        simp [log]
  · refine ⟨s.registry, ?_⟩
    rw [dispatch_none (s := { s.log (.touched a) with queue := (s.queue.pop 1).2 }) hhandler,
      if_neg hhandler, if_neg fun h => hhandler h.1]
    simp [log]

/-- A buffer is settled by its last event, when all in front of it only touch it. -/
theorem settled_concat {events : List BufferEvent} {last : BufferEvent} :
    Settled role a (events ++ [last]) ↔ (∀ e ∈ events, e = .touched a) ∧
      (last = .destroyed a ∨ (role = .listener ∧ last = .pushed a)) := by
  constructor
  · rintro ⟨reads, heq | ⟨hrole, heq⟩⟩
    · obtain ⟨rfl, hlast⟩ := List.append_inj' heq rfl
      exact ⟨fun e he => List.eq_of_mem_replicate he, .inl (List.singleton_inj.mp hlast)⟩
    · obtain ⟨rfl, hlast⟩ := List.append_inj' heq rfl
      exact ⟨fun e he => List.eq_of_mem_replicate he, .inr ⟨hrole, List.singleton_inj.mp hlast⟩⟩
  · rintro ⟨htouched, hlast⟩
    refine ⟨events.length, ?_⟩
    rw [← List.eq_replicate_iff.mpr ⟨rfl, htouched⟩]
    rcases hlast with rfl | ⟨hrole, rfl⟩
    · exact .inl rfl
    · exact .inr ⟨hrole, rfl⟩

/-- **What happens in a turn settles the buffer** if and only if the condition holds. -/
theorem settled_turnEvents_iff : Settled role a (s.turnEvents a role) ↔ s.Meets a role := by
  unfold turnEvents Meets
  by_cases hhandler : HasHandler (s.memory a).header.msgType
  · rw [if_pos hhandler, imp_iff_right hhandler]
    by_cases hlistener : role = .listener
    · rw [passEvents_listener hlistener, ← List.cons_append, settled_concat]
      by_cases hdestroys : s.HandlerDestroys a
      · rw [handlerEvents_destroys hdestroys]
        simp [hlistener, hdestroys]
      · rw [handlerEvents_keeps hdestroys]
        simp [hlistener, hdestroys]
    by_cases haggregator : role = .aggregator
    · rw [passEvents_aggregator haggregator, ← List.cons_append, settled_concat]
      by_cases hdestroys : s.HandlerDestroys a
      · rw [handlerEvents_destroys hdestroys]
        simp [haggregator, hdestroys]
      · rw [handlerEvents_keeps hdestroys]
        simp [haggregator, hdestroys]
    · rw [passEvents_other hlistener haggregator, List.append_nil]
      by_cases hdestroys : s.HandlerDestroys a
      · have hevents : [BufferEvent.touched a, .touched a, .destroyed a] =
            [.touched a, .touched a] ++ [.destroyed a] := rfl
        rw [handlerEvents_destroys hdestroys, hevents, settled_concat]
        simp [hlistener, haggregator, hdestroys]
      · have hevents : [BufferEvent.touched a, .touched a] = [.touched a] ++ [.touched a] := rfl
        rw [handlerEvents_keeps hdestroys, hevents, settled_concat]
        simp [hlistener, haggregator, hdestroys]
  · rw [if_neg hhandler]
    have hevents : [BufferEvent.touched a, .destroyed a] = [.touched a] ++ [.destroyed a] := rfl
    rw [hevents, settled_concat]
    refine iff_of_true ⟨fun e he => List.mem_singleton.mp he, .inl rfl⟩ ?_
    exact fun h => absurd h hhandler

/-- **The turn settles the buffer it pops** if and only if there is no handler for it, or
the thread passes it on or destroys it and the handler does not. -/
theorem turn_settles_iff (s : LocalSync) (role : RuntimeRole) :
    s.TurnSettles role ↔ ∀ a rest, s.queue.items = some a :: rest → s.Meets a role := by
  refine forall_congr' fun a => forall_congr' fun rest => imp_congr_right fun h => ?_
  rw [← settled_turnEvents_iff]
  obtain ⟨registry, hturn⟩ := turn_pops role h
  constructor
  · rintro ⟨s', events, hturn', hevents, hsettled⟩
    obtain rfl := Option.some.inj (hturn.symm.trans hturn')
    rw [← List.append_cancel_left hevents] at hsettled
    exact hsettled
  · exact fun hsettled => ⟨_, _, hturn, rfl, hsettled⟩

/-! ## Runs -/

/-- A buffer comes in, the thread takes a turn, or the thread behind the cloud_send queue
sends a buffer and destroys it. -/
inductive SyncAction where
  | receive (m : SyncMessage)
  | turn
  | send

/-- **One step.** -/
def step (role : RuntimeRole) (s : LocalSync) : SyncAction → Option LocalSync
  | .receive m => some { s with
      memory := Function.update s.memory s.next m
      next := s.next + 1
      queue := s.queue.push (some s.next) }
  | .turn => s.turn role
  | .send => match s.cloudSend.items with
    | [] => none
    | a :: _ => some { (s.log (.touched a)).log (.destroyed a) with
        cloudSend := (s.cloudSend.pop 1).2 }

/-- The turns of a run pop buffers that they settle. -/
def MeetsAt (role : RuntimeRole) (s : LocalSync) (action : SyncAction) : Prop :=
  action = .turn → ∀ a rest, s.queue.items = some a :: rest → s.Meets a role

/-- The buffer that an event destroys. -/
def gone : BufferEvent → Option ℕ
  | .destroyed a => some a
  | _ => none

/-- The buffers that were destroyed. -/
def destroyed (s : LocalSync) : List ℕ := s.events.filterMap gone

/-- The two queues. -/
inductive SyncOwner where
  | queue
  | cloudSend

/-- **Who has to destroy what**, and what was destroyed. -/
def ledger (s : LocalSync) : Ledger SyncOwner ℕ where
  owns
    | .queue => {a | some a ∈ s.queue.items}
    | .cloudSend => {a | a ∈ s.cloudSend.items}
  used := s.destroyed

/-- **All buffers are accounted for**: each is in one of the queues, once, or destroyed,
once. -/
structure Accounted (s : LocalSync) : Prop where
  sound : s.ledger.Sound {a | a < s.next}
  queue_nodup : (s.queue.items.filterMap id).Nodup
  cloudSend_nodup : s.cloudSend.items.Nodup
  complete : ∀ a < s.next, some a ∈ s.queue.items ∨ a ∈ s.cloudSend.items ∨ a ∈ s.destroyed

theorem accounted_start (registry : Registry) (memory : ℕ → SyncMessage) :
    (start registry memory).Accounted where
  sound :=
    { owns_mem := fun i x hx => by cases i <;> exact absurd hx List.not_mem_nil
      unique := fun i j x hi _ => by cases i <;> exact absurd hi List.not_mem_nil
      used_mem := fun x hx => absurd hx List.not_mem_nil
      nodup := List.nodup_nil
      spent := fun x hx => absurd hx List.not_mem_nil }
  queue_nodup := List.nodup_nil
  cloudSend_nodup := List.nodup_nil
  complete a ha := absurd ha (Nat.not_lt_zero a)

/-- **A turn that settles its buffer** has destroyed it or passed it on. -/
theorem turn_meets {rest : List (Option ℕ)} (h : s.queue.items = some a :: rest)
    (hmeets : s.Meets a role) {s' : LocalSync} (hturn : s.turn role = some s') :
    s'.next = s.next ∧ s'.queue.items = rest ∧
      ((s'.cloudSend = s.cloudSend ∧ s'.destroyed = s.destroyed ++ [a]) ∨
        (s'.cloudSend = s.cloudSend.push a ∧ s'.destroyed = s.destroyed)) := by
  obtain ⟨registry, hpops⟩ := turn_pops role h
  obtain rfl := Option.some.inj (hpops.symm.trans hturn)
  have hqueue : (s.queue.pop 1).2.items = rest := by
    simp [SosPipe.pop, h]
  refine ⟨rfl, hqueue, ?_⟩
  unfold destroyed turnEvents
  dsimp only
  rw [List.filterMap_append]
  by_cases hhandler : HasHandler (s.memory a).header.msgType
  · have hiff := hmeets hhandler
    rw [if_pos hhandler]
    by_cases hlistener : role = .listener
    · have hkeeps := hiff.mp (.inl hlistener)
      rw [if_pos ⟨hhandler, hlistener⟩, handlerEvents_keeps hkeeps, passEvents_listener hlistener]
      exact .inr ⟨rfl, List.append_nil _⟩
    · rw [if_neg fun h => hlistener h.2]
      by_cases haggregator : role = .aggregator
      · have hkeeps := hiff.mp (.inr haggregator)
        rw [handlerEvents_keeps hkeeps, passEvents_aggregator haggregator]
        exact .inl ⟨rfl, rfl⟩
      · have hdestroys : s.HandlerDestroys a := by
          by_contra hkeeps
          rcases hiff.mpr hkeeps with hrole | hrole
          · exact hlistener hrole
          · exact haggregator hrole
        rw [handlerEvents_destroys hdestroys, passEvents_other hlistener haggregator]
        exact .inl ⟨rfl, rfl⟩
  · rw [if_neg hhandler, if_neg fun h => hhandler h.1]
    exact .inl ⟨rfl, rfl⟩

/-- A buffer comes in. -/
theorem Accounted.receive (h : s.Accounted) (m : SyncMessage) : Accounted { s with
    memory := Function.update s.memory s.next m
    next := s.next + 1
    queue := s.queue.push (some s.next) } := by
  refine ⟨?_, ?_, h.cloudSend_nodup, ?_⟩
  · refine h.sound.gain (i := .queue) (x := s.next) (Nat.lt_irrefl s.next) ?_ ?_ ?_ rfl
    · rintro y (hold | rfl)
      · exact Nat.lt_succ_of_lt hold
      · exact Nat.lt_succ_self _
    · intro y hy
      rcases List.mem_append.mp hy with hold | hnew
      · exact .inl hold
      · exact .inr (Option.some.inj (List.mem_singleton.mp hnew))
    · intro j hj y hy
      cases j with
      | queue => exact absurd rfl hj
      | cloudSend => exact hy
  · show ((s.queue.items ++ [some s.next]).filterMap id).Nodup
    rw [List.filterMap_append]
    refine List.nodup_append.mpr ⟨h.queue_nodup, List.nodup_singleton _, ?_⟩
    rintro y hy z hz rfl
    obtain rfl := List.mem_singleton.mp hz
    obtain ⟨item, hitem, hsome⟩ := List.mem_filterMap.mp hy
    obtain rfl : item = some s.next := hsome
    exact absurd (h.sound.owns_mem .queue s.next hitem) (Nat.lt_irrefl s.next)
  · intro a ha
    rcases Nat.lt_succ_iff_lt_or_eq.mp ha with hold | rfl
    · exact (h.complete a hold).imp_left (List.mem_append_left _)
    · exact .inl (List.mem_append_right _ (List.mem_singleton_self _))

/-- A pointer at the head of the queue is not in it again. -/
theorem Accounted.queue_cons (h : s.Accounted) {rest : List (Option ℕ)}
    (hitems : s.queue.items = some a :: rest) :
    some a ∉ rest ∧ (rest.filterMap id).Nodup := by
  have hnodup := h.queue_nodup
  rw [hitems, List.filterMap_cons_some (f := id) rfl, List.nodup_cons] at hnodup
  exact ⟨fun hmem => hnodup.1 (List.mem_filterMap.mpr ⟨some a, hmem, rfl⟩), hnodup.2⟩

/-- **A turn**: what it pops is destroyed or passed on. -/
theorem Accounted.turn (h : s.Accounted) {rest : List (Option ℕ)} {s' : LocalSync}
    (hitems : s.queue.items = some a :: rest) (hnext : s'.next = s.next)
    (hqueue : s'.queue.items = rest)
    (hcase : (s'.cloudSend = s.cloudSend ∧ s'.destroyed = s.destroyed ++ [a]) ∨
      (s'.cloudSend = s.cloudSend.push a ∧ s'.destroyed = s.destroyed)) : s'.Accounted := by
  obtain ⟨hfresh, hnodup⟩ := h.queue_cons hitems
  have hin : a ∈ s.ledger.owns .queue := by
    show some a ∈ s.queue.items
    rw [hitems]
    exact List.mem_cons_self
  have hrest : ∀ y, some y ∈ rest → y ∈ s.ledger.owns .queue := by
    intro y hy
    show some y ∈ s.queue.items
    rw [hitems]
    exact List.mem_cons_of_mem _ hy
  have htotal : {a | a < s'.next} = {a | a < s.next} := by rw [hnext]
  have hqueue' : ∀ y, y ∈ s'.ledger.owns .queue ↔ some y ∈ rest := by
    intro y
    show some y ∈ s'.queue.items ↔ _
    rw [hqueue]
  rcases hcase with ⟨hcloud, hdestroyed⟩ | ⟨hcloud, hdestroyed⟩
  · refine ⟨?_, hqueue ▸ hnodup, hcloud ▸ h.cloudSend_nodup, ?_⟩
    · rw [htotal]
      refine h.sound.use hin ?_ (fun hmem => hfresh ((hqueue' a).mp hmem)) hdestroyed
      intro j y hy
      cases j with
      | queue => exact hrest y ((hqueue' y).mp hy)
      | cloudSend =>
          change y ∈ s'.cloudSend.items at hy
          rw [hcloud] at hy
          exact hy
    · intro b hb
      rw [hqueue, hcloud, hdestroyed]
      rcases h.complete b (hnext ▸ hb) with hold | hold | hold
      · rw [hitems] at hold
        rcases List.mem_cons.mp hold with heq | hmem
        · obtain rfl := Option.some.inj heq
          exact .inr (.inr (List.mem_append_right _ (List.mem_singleton_self _)))
        · exact .inl hmem
      · exact .inr (.inl hold)
      · exact .inr (.inr (List.mem_append_left _ hold))
  · have hpushed : s'.cloudSend.items = s.cloudSend.items ++ [a] := by rw [hcloud]; rfl
    have hnot : a ∉ s.cloudSend.items := by
      intro hmem
      cases h.sound.unique .queue .cloudSend a hin hmem
    refine ⟨?_, hqueue ▸ hnodup, ?_, ?_⟩
    · rw [htotal]
      refine h.sound.pass (i := .queue) (j := .cloudSend) ?_ ?_ ?_ hdestroyed
      · exact fun y hy => hrest y ((hqueue' y).mp hy)
      · intro y hy
        change y ∈ s'.cloudSend.items at hy
        rw [hpushed] at hy
        rcases List.mem_append.mp hy with hold | hnew
        · exact .inl hold
        · obtain rfl := List.mem_singleton.mp hnew
          exact .inr ⟨hin, fun hmem => hfresh ((hqueue' y).mp hmem)⟩
      · intro k hk hk'
        cases k with
        | queue => exact absurd rfl hk
        | cloudSend => exact absurd rfl hk'
    · rw [hpushed]
      refine List.nodup_append.mpr ⟨h.cloudSend_nodup, List.nodup_singleton _, ?_⟩
      rintro y hy z hz rfl
      exact hnot (List.mem_singleton.mp hz ▸ hy)
    · intro b hb
      rw [hqueue, hpushed, hdestroyed]
      rcases h.complete b (hnext ▸ hb) with hold | hold | hold
      · rw [hitems] at hold
        rcases List.mem_cons.mp hold with heq | hmem
        · obtain rfl := Option.some.inj heq
          exact .inr (.inl (List.mem_append_right _ (List.mem_singleton_self _)))
        · exact .inl hmem
      · exact .inr (.inl (List.mem_append_left _ hold))
      · exact .inr (.inr hold)

/-- A pointer that is NULL is popped. -/
theorem Accounted.skip (h : s.Accounted) {rest : List (Option ℕ)}
    (hitems : s.queue.items = none :: rest) :
    Accounted { s with queue := (s.queue.pop 1).2 } := by
  have hpop : (s.queue.pop 1).2.items = rest := by simp [SosPipe.pop, hitems]
  have hmem : ∀ b, some b ∈ s.queue.items ↔ some b ∈ (s.queue.pop 1).2.items := by
    intro b
    rw [hpop, hitems, List.mem_cons]
    exact or_iff_right (Option.some_ne_none b)
  refine ⟨?_, ?_, h.cloudSend_nodup, ?_⟩
  · refine h.sound.mono ?_ rfl
    intro i y hy
    cases i with
    | queue => exact (hmem y).mpr hy
    | cloudSend => exact hy
  · have hnodup := h.queue_nodup
    rw [hitems] at hnodup
    rw [hpop]
    exact hnodup
  · exact fun b hb => (h.complete b hb).imp_left (hmem b).mp

/-- The other thread sends a buffer. -/
theorem Accounted.send (h : s.Accounted) {rest : List ℕ} {s' : LocalSync}
    (hitems : s.cloudSend.items = a :: rest) (hnext : s'.next = s.next)
    (hqueue : s'.queue = s.queue) (hcloud : s'.cloudSend.items = rest)
    (hdestroyed : s'.destroyed = s.destroyed ++ [a]) : s'.Accounted := by
  have hnodup := h.cloudSend_nodup
  rw [hitems, List.nodup_cons] at hnodup
  have hin : a ∈ s.ledger.owns .cloudSend := by
    show a ∈ s.cloudSend.items
    rw [hitems]
    exact List.mem_cons_self
  have hcloud' : ∀ y, y ∈ s'.ledger.owns .cloudSend ↔ y ∈ rest := by
    intro y
    show y ∈ s'.cloudSend.items ↔ _
    rw [hcloud]
  refine ⟨?_, hqueue ▸ h.queue_nodup, hcloud ▸ hnodup.2, ?_⟩
  · rw [show {a | a < s'.next} = {a | a < s.next} by rw [hnext]]
    refine h.sound.use hin ?_ (fun hmem => hnodup.1 ((hcloud' a).mp hmem)) hdestroyed
    intro j y hy
    cases j with
    | queue =>
        change some y ∈ s'.queue.items at hy
        rw [hqueue] at hy
        exact hy
    | cloudSend =>
        show y ∈ s.cloudSend.items
        rw [hitems]
        exact List.mem_cons_of_mem _ ((hcloud' y).mp hy)
  · intro b hb
    rw [hqueue, hcloud, hdestroyed]
    rcases h.complete b (hnext ▸ hb) with hold | hold | hold
    · exact .inl hold
    · rw [hitems] at hold
      rcases List.mem_cons.mp hold with rfl | hmem
      · exact .inr (.inr (List.mem_append_right _ (List.mem_singleton_self _)))
      · exact .inr (.inl hmem)
    · exact .inr (.inr (List.mem_append_left _ hold))

/-- **A step whose turn settles its buffer** keeps all accounted for. -/
theorem Accounted.step (h : s.Accounted) {action : SyncAction} (hmeets : s.MeetsAt role action)
    {s' : LocalSync} (hstep : s.step role action = some s') : s'.Accounted := by
  cases action with
  | receive m =>
      obtain rfl := Option.some.inj hstep
      exact h.receive m
  | turn =>
      cases hitems : s.queue.items with
      | nil =>
          have hnone : s.turn role = none := by rw [LocalSync.turn, hitems]
          cases hnone.symm.trans hstep
      | cons item rest =>
          cases item with
          | none =>
              have hskip : s.turn role = some { s with queue := (s.queue.pop 1).2 } := by
                rw [LocalSync.turn, hitems]
              obtain rfl := Option.some.inj (hskip.symm.trans hstep)
              exact h.skip hitems
          | some a =>
              obtain ⟨hnext, hqueue, hcase⟩ :=
                turn_meets hitems (hmeets rfl a rest hitems) hstep
              exact h.turn hitems hnext hqueue hcase
  | send =>
      unfold LocalSync.step at hstep
      cases hitems : s.cloudSend.items with
      | nil =>
          rw [hitems] at hstep
          cases hstep
      | cons a rest =>
          rw [hitems] at hstep
          obtain rfl := Option.some.inj hstep
          refine h.send hitems rfl rfl ?_ ?_
          · simp [SosPipe.pop, hitems]
          · unfold destroyed log
            dsimp only
            rw [List.append_assoc, List.filterMap_append]
            rfl

/-- **In a run whose turns all settle their buffers**, all buffers are accounted for. -/
theorem accounted_run {registry : Registry} {memory : ℕ → SyncMessage} {actions : List SyncAction}
    {s : LocalSync} (hmeets : Trace.Along (step role) (MeetsAt role) (start registry memory) actions)
    (hrun : Trace.run (step role) (start registry memory) actions = some s) : s.Accounted :=
  Trace.run_invariant (fun _ _ _ h hok hstep => h.step hok hstep) (accounted_start registry memory)
    hmeets hrun

end LocalSync

/-- A VAL_SNAPS for a pub that nobody has announced. -/
def earlySnaps : SyncMessage where
  header := ⟨0, MsgType.valSnaps.code, 0, 7⟩
  announce := (default : SosPub).announceMsg
  apply := id
  syncPending := false
  snapQueue := none

/-- The daemon behind its arrival. -/
def earlyState : LocalSync :=
  { LocalSync.start (.start plainConfig (some .empty) false) (fun _ => earlySnaps) with
    next := 1
    queue := SosPipe.empty.push (some 0) }

/-- **A listener pushes the buffer that is destroyed**, and an aggregator destroys it
again. -/
theorem not_turn_settles :
    (∃ s', earlyState.turn .listener = some s' ∧
      s'.events = [.touched 0, .touched 0, .destroyed 0, .pushed 0] ∧
      s'.cloudSend.items = [0]) ∧
    (∃ s', earlyState.turn .aggregator = some s' ∧
      s'.events = [.touched 0, .touched 0, .destroyed 0, .destroyed 0]) ∧
    ¬ ∀ (s : LocalSync) (role : RuntimeRole), s.TurnSettles role := by
  have hitems : earlyState.queue.items = some 0 :: [] := rfl
  refine ⟨?_, ?_, ?_⟩
  · obtain ⟨registry, hturn⟩ := LocalSync.turn_pops .listener hitems
    have hevents : earlyState.turnEvents 0 .listener =
        [.touched 0, .touched 0, .destroyed 0, .pushed 0] := by decide
    exact ⟨_, hturn, hevents, rfl⟩
  · obtain ⟨registry, hturn⟩ := LocalSync.turn_pops .aggregator hitems
    have hevents : earlyState.turnEvents 0 .aggregator =
        [.touched 0, .touched 0, .destroyed 0, .destroyed 0] := by decide
    exact ⟨_, hturn, hevents⟩
  · intro hall
    obtain ⟨s', events, hturn, hevents, hsettled⟩ := hall earlyState .listener 0 [] hitems
    obtain ⟨registry, hturn'⟩ := LocalSync.turn_pops .listener hitems
    obtain rfl := Option.some.inj (hturn'.symm.trans hturn)
    rw [← List.append_cancel_left hevents, LocalSync.settled_turnEvents_iff] at hsettled
    exact (hsettled (by decide)).mp (.inl rfl) (by decide)

end SosFlow
