import SosFlow.Lib.Lock
import SosFlow.Socket.Receive
import SosFlow.Socket.Send

/-!
# The lock of a target

An exchange with the daemon takes `send_lock` when it connects, and where it
is released depends on how the exchange goes: `SOS_target_connect` releases
it when there is no connection, `SOS_target_send_msg` when it gives up, and
`SOS_target_disconnect` behind the reply.

A send that is suppressed, and one of no bytes, return to a caller that
takes them for the send that has given up. The lock stays taken, and the
next exchange waits for it for ever. `proceeds_iff` says which exchanges
leave it free.
-/

namespace SosFlow

open Loop

/-- What `socket` and `connect` return for one address. -/
structure AddressAttempt where
  socket : ℤ
  connect : ℤ
deriving DecidableEq

/-- What `getaddrinfo` returns, and the addresses it finds. -/
structure Lookup where
  retval : ℤ
  addresses : List AddressAttempt
deriving DecidableEq

/-- **A target**: its lock, with how often it was taken and given back, and the socket
that is connected to it. -/
structure SosSocket (ι : Type*) where
  sendLock : LockState ι
  acquired : ℕ
  released : ℕ
  remoteSocketFd : ℤ

/-- **What one exchange meets**: the lookup, whether the send is suppressed, the calls of
`send`, whether the runtime is shutting down behind it, and the reply. -/
structure Exchange where
  lookup : Lookup
  config : SendConfig
  message : SosBuffer
  outside : ℕ → Byte
  outcomes : ℕ → SendOutcome
  shutdown : Bool
  reply : SosBuffer
  stream : ByteStream
  len_nonneg : 0 ≤ message.len
  accepts : Accepts outcomes message.len.toNat

/-- The loop over the addresses: the socket of the first that connects, `-1` when none
does, and what it was before when there is none. -/
def openConnection : ℤ → List AddressAttempt → ℤ
  | newFd, [] => newFd
  | _, attempt :: attempts =>
    if attempt.socket = -1 then openConnection (-1) attempts
    else if attempt.connect ≠ -1 then attempt.socket
    else openConnection (-1) attempts

section

variable {ι : Type*} [DecidableEq ι]

/-- `pthread_mutex_lock`, which blocks while the lock is held. -/
def SosSocket.lock (target : SosSocket ι) (caller : ι) : Option (SosSocket ι) :=
  (target.sendLock.acquire caller).map fun sendLock =>
    { target with sendLock := sendLock, acquired := target.acquired + 1 }

/-- `pthread_mutex_unlock`. -/
def SosSocket.unlock (target : SosSocket ι) (caller : ι) : SosSocket ι :=
  { target with sendLock := target.sendLock.release caller, released := target.released + 1 }

/-- `SOS_target_init`, which has taken the new lock once and given it back. -/
def sosTargetInit : SosSocket ι := ⟨.unheld, 1, 1, 0⟩

/-- **`SOS_target_connect`**; it does not come back while the lock is held. -/
def sosTargetConnect (caller : ι) (lookup : Lookup) (target : SosSocket ι) :
    Option (ℤ × SosSocket ι) :=
  (target.lock caller).map fun locked =>
    let target := { locked with remoteSocketFd := -1 }
    if lookup.retval < 0 then (-1, target.unlock caller)
    else
      let newFd := openConnection 0 lookup.addresses
      if newFd = -1 then (-1, target.unlock caller)
      else (0, { target with remoteSocketFd := newFd })

/-- What a send has left of the lock: it has given it back, or not. -/
def SosSocket.givenUp (target : SosSocket ι) (caller : ι) (released : Bool) : SosSocket ι :=
  if released then target.unlock caller else target

/-- **`SOS_target_disconnect`**. -/
def sosTargetDisconnect (caller : ι) (target : SosSocket ι) : SosSocket ι :=
  { target with remoteSocketFd := -1 }.unlock caller

variable [DoubleCodec]

/-- **`SOS_send_to_daemon`**, in at most that many turns of each of its loops. It does
not come back when it waits for the lock, nor when the process ends. -/
def Exchange.sosSendToDaemon (caller : ι) (x : Exchange) (turns : ℕ) (target : SosSocket ι) :
    Option (SosSocket ι × SosBuffer) :=
  (sosTargetConnect caller x.lookup target).bind fun (rc, target) =>
    if rc ≠ 0 then some (target, x.reply)
    else (sosTargetSendMsg x.message x.outside x.outcomes x.config turns).bind fun sent =>
      let target := target.givenUp caller sent.released
      if sent.ret < 1 then some (target, x.reply)
      else (recvMsg x.shutdown x.reply x.stream turns).bind fun received =>
        match received with
        | .returned _ reply => some (sosTargetDisconnect caller target, reply)
        | .crashed => none

/-- **Taken once and given back once**, by the caller that took it, and free. -/
structure ReleasedOnce (before after : SosSocket ι) : Prop where
  acquired : after.acquired = before.acquired + 1
  released : after.released = before.released + 1
  free : after.sendLock = .unheld

/-- **Exchanges proceed** one after the other: each comes back, and has taken the lock
and given it back. -/
def Proceeds : SosSocket ι → List (ι × Exchange) → Prop
  | _, [] => True
  | target, (caller, x) :: exchanges => ∃ turns after reply,
      Exchange.sosSendToDaemon caller x turns target = some (after, reply) ∧
        ReleasedOnce target after ∧ Proceeds after exchanges

end

/-- There is no connection: the lookup fails, or it finds addresses and none of them
connects. -/
def Lookup.Fails (lookup : Lookup) : Prop :=
  lookup.retval < 0 ∨ (lookup.addresses ≠ [] ∧
    ∀ attempt ∈ lookup.addresses, attempt.socket = -1 ∨ attempt.connect = -1)

/-- **When the lock is given back**: there is no connection, or the send is not
suppressed and gives up, or sends a byte at least and the receive returns. -/
def Exchange.Meets [DoubleCodec] (x : Exchange) : Prop :=
  x.lookup.Fails ∨ (x.config = .running ∧ (GivesUp x.message x.outcomes ∨
    (1 ≤ x.message.len ∧ (x.shutdown = true ∨ StreamEnds x.reply x.stream))))

/-! ## Connecting -/

/-- A loop that has tried an address in vain. -/
theorem openConnection_failed (attempts : List AddressAttempt) :
    openConnection (-1) attempts = -1 ↔
      ∀ attempt ∈ attempts, attempt.socket = -1 ∨ attempt.connect = -1 := by
  induction attempts with
  | nil => exact iff_of_true rfl fun attempt hattempt => absurd hattempt List.not_mem_nil
  | cons attempt attempts ih =>
      rw [List.forall_mem_cons, ← ih, openConnection]
      by_cases hsocket : attempt.socket = -1
      · simp only [hsocket, if_true, true_or, true_and]
      · by_cases hconnect : attempt.connect = -1
        · simp only [hsocket, hconnect, ne_eq, not_true_eq_false, if_false, or_true, true_and]
        · simp only [hsocket, hconnect, ne_eq, not_false_eq_true, if_true, if_false, or_self,
            false_and]

theorem openConnection_start (attempts : List AddressAttempt) :
    openConnection 0 attempts = -1 ↔ attempts ≠ [] ∧
      ∀ attempt ∈ attempts, attempt.socket = -1 ∨ attempt.connect = -1 := by
  cases attempts with
  | nil => exact iff_of_false (by decide) fun h => h.1 rfl
  | cons attempt attempts =>
      rw [← openConnection_failed]
      exact (and_iff_right (List.cons_ne_nil _ _)).symm

section

variable {ι : Type*} [DecidableEq ι] {caller : ι} {target after : SosSocket ι} {lookup : Lookup}

/-- The target with the connection of an exchange, and the lock taken. -/
def SosSocket.connected (target : SosSocket ι) (caller : ι) (x : Exchange) : SosSocket ι :=
  ⟨⟨some caller, false⟩, target.acquired + 1, target.released,
    openConnection 0 x.lookup.addresses⟩

theorem lookup_fails_iff : lookup.Fails ↔
    lookup.retval < 0 ∨ openConnection 0 lookup.addresses = -1 := by
  rw [Lookup.Fails, openConnection_start]

/-- **A connection that fails** has given the lock back. -/
theorem connect_fails (hfree : target.sendLock = .unheld) (h : lookup.Fails) :
    sosTargetConnect caller lookup target =
      some (-1, ⟨.unheld, target.acquired + 1, target.released + 1, -1⟩) := by
  unfold sosTargetConnect SosSocket.lock SosSocket.unlock
  rw [hfree]
  by_cases hlookup : lookup.retval < 0
  · simp [LockState.acquire, LockState.unheld, hlookup, LockState.release]
  · have hfd := (lookup_fails_iff.mp h).resolve_left hlookup
    simp [LockState.acquire, LockState.unheld, hlookup, hfd, LockState.release]

/-- **One that does not** has it. -/
theorem connect_holds {x : Exchange} (hfree : target.sendLock = .unheld) (h : ¬ x.lookup.Fails) :
    sosTargetConnect caller x.lookup target = some (0, target.connected caller x) := by
  rw [lookup_fails_iff, not_or] at h
  unfold sosTargetConnect SosSocket.lock SosSocket.connected
  rw [hfree]
  simp [LockState.acquire, LockState.unheld, h.1, h.2]

/-! ## The exchange -/

variable [DoubleCodec] {x : Exchange}

/-- **It waits** while the lock is held, whoever holds it. -/
theorem Exchange.sosSendToDaemon_blocked (h : target.sendLock.holder ≠ none) (turns : ℕ) :
    Exchange.sosSendToDaemon caller x turns target = none := by
  have hblocked : target.sendLock.acquire caller = none := if_neg h
  rw [Exchange.sosSendToDaemon, sosTargetConnect, SosSocket.lock, hblocked]
  rfl

/-- An exchange without a connection. -/
theorem Exchange.sosSendToDaemon_fails (hfree : target.sendLock = .unheld) (h : x.lookup.Fails)
    (turns : ℕ) : Exchange.sosSendToDaemon caller x turns target =
      some (⟨.unheld, target.acquired + 1, target.released + 1, -1⟩, x.reply) := by
  rw [Exchange.sosSendToDaemon, connect_fails hfree h]
  rfl

omit [DecidableEq ι] [DoubleCodec] in
/-- What the send of an exchange comes to. -/
theorem Exchange.sends (x : Exchange) : ∃ sent, (∃ turns,
    sosTargetSendMsg x.message x.outside x.outcomes x.config turns = some sent) ∧
      ((x.config ≠ .running ∧ sent.released = false ∧ sent.ret < 1) ∨
        (x.config = .running ∧ GivesUp x.message x.outcomes ∧ sent.released = true ∧
          sent.ret < 1) ∨
        (x.config = .running ∧ ¬ GivesUp x.message x.outcomes ∧ sent.released = false ∧
          (sent.ret < 1 ↔ x.message.len < 1))) := by
  have hnonneg := x.len_nonneg
  by_cases hconfig : x.config = .running
  · obtain ⟨r, hreturns, hends⟩ :=
      send_ends x.message x.outside hnonneg x.accepts
    refine ⟨r, ?_, .inr ?_⟩
    · rw [hconfig]
      exact hreturns
    · obtain ⟨hgives, hreleased, hret⟩ | ⟨hgives, hreleased, hret, hzero⟩ := hends
      · exact .inl ⟨hconfig, hgives, hreleased, by omega⟩
      · exact .inr ⟨hconfig, hgives, hreleased, by omega⟩
  · exact ⟨⟨-1, false, .start⟩, ⟨0, sosTargetSendMsg_suppressed hconfig 0⟩,
      .inl ⟨hconfig, rfl, by decide⟩⟩

/-- **What an exchange that came back has done** behind its connection. -/
theorem Exchange.sosSendToDaemon_some (hfree : target.sendLock = .unheld)
    (h : ¬ x.lookup.Fails) {turns : ℕ} {reply : SosBuffer} :
    Exchange.sosSendToDaemon caller x turns target = some (after, reply) ↔
      ∃ sent, sosTargetSendMsg x.message x.outside x.outcomes x.config turns = some sent ∧
        ((sent.ret < 1 ∧ x.reply = reply ∧
            (target.connected caller x).givenUp caller sent.released = after) ∨
          (1 ≤ sent.ret ∧ (∃ ret, recvMsg x.shutdown x.reply x.stream turns =
              some (.returned ret reply)) ∧
            sosTargetDisconnect caller
              ((target.connected caller x).givenUp caller sent.released) = after)) := by
  rw [Exchange.sosSendToDaemon, connect_holds hfree h]
  simp only [Option.bind_some, ne_eq, not_true_eq_false, if_false]
  rw [Option.bind_eq_some_iff]
  refine exists_congr fun sent => and_congr_right fun _ => ?_
  by_cases hret : sent.ret < 1
  · rw [if_pos hret, Option.some_inj, Prod.mk.injEq]
    have hnot : ¬ 1 ≤ sent.ret := by omega
    simp only [hret, hnot, true_and, false_and, or_false]
    exact and_comm
  · rw [if_neg hret, Option.bind_eq_some_iff]
    have hsome : 1 ≤ sent.ret := by omega
    simp only [hret, hsome, true_and, false_and, false_or]
    constructor
    · rintro ⟨received, hrecv, hdone⟩
      cases received with
      | crashed => cases hdone
      | returned ret received =>
          obtain ⟨rfl, rfl⟩ := Prod.mk.inj (Option.some.inj hdone)
          exact ⟨⟨ret, hrecv⟩, rfl⟩
    · rintro ⟨⟨ret, hrecv⟩, rfl⟩
      exact ⟨_, hrecv, rfl⟩

omit [DoubleCodec] in
/-- Given back once, by the send or behind the reply. -/
theorem releasedOnce_unlock : ReleasedOnce target
    ((target.connected caller x).givenUp caller true) := by
  refine ⟨rfl, rfl, ?_⟩
  simp [SosSocket.givenUp, SosSocket.unlock, SosSocket.connected, LockState.release,
    LockState.unheld]

omit [DoubleCodec] in
theorem releasedOnce_disconnect : ReleasedOnce target
    (sosTargetDisconnect caller ((target.connected caller x).givenUp caller false)) := by
  refine ⟨rfl, rfl, ?_⟩
  simp [SosSocket.givenUp, sosTargetDisconnect, SosSocket.unlock, SosSocket.connected,
    LockState.release, LockState.unheld]

omit [DoubleCodec] in
/-- Not given back. -/
theorem not_releasedOnce_connected : ¬ ReleasedOnce target
    ((target.connected caller x).givenUp caller false) := by
  intro h
  have hreleased : target.released = target.released + 1 := h.released
  omega

variable (caller) in
/-- **One exchange comes back and has released the lock once** if and only if it meets the
condition. -/
theorem releasesOnce_iff (hfree : target.sendLock = .unheld) :
    (∃ turns after reply, Exchange.sosSendToDaemon caller x turns target = some (after, reply) ∧
      ReleasedOnce target after) ↔ x.Meets := by
  by_cases hlookup : x.lookup.Fails
  · refine iff_of_true ⟨0, _, _, Exchange.sosSendToDaemon_fails hfree hlookup 0, rfl, rfl, rfl⟩ ?_
    exact .inl hlookup
  rw [Exchange.Meets, or_iff_right hlookup]
  simp only [Exchange.sosSendToDaemon_some hfree hlookup]
  obtain ⟨sent, ⟨turns, hsent⟩, hcase⟩ := x.sends
  constructor
  · rintro ⟨turns', after, reply, ⟨sent', hsent', hends⟩, hreleased⟩
    obtain rfl := sosTargetSendMsg_unique hsent hsent'
    obtain ⟨-, hkept, hret⟩ | ⟨hrunning, hgives, -, -⟩ | ⟨hrunning, -, hkept, hret⟩ := hcase
    · obtain ⟨-, -, rfl⟩ | ⟨hsome, -⟩ := hends
      · rw [hkept] at hreleased
        exact absurd hreleased not_releasedOnce_connected
      · omega
    · exact ⟨hrunning, .inl hgives⟩
    · obtain ⟨-, -, rfl⟩ | ⟨hsome, ⟨ret, hrecv⟩, -⟩ := hends
      · rw [hkept] at hreleased
        exact absurd hreleased not_releasedOnce_connected
      · refine ⟨hrunning, .inr ⟨by omega, ?_⟩⟩
        exact (recvMsg_returns_iff _ _ _).mp ⟨turns', ret, reply, hrecv⟩
  · rintro ⟨hrunning, hends⟩
    obtain ⟨hsuppressed, -⟩ | ⟨-, -, hgiven, hret⟩ | ⟨-, hgives, hkept, hret⟩ := hcase
    · exact absurd hrunning hsuppressed
    · refine ⟨turns, _, x.reply, ⟨sent, hsent, .inl ⟨hret, rfl, rfl⟩⟩, ?_⟩
      rw [hgiven]
      exact releasedOnce_unlock
    · obtain ⟨hlen, hreturns⟩ := hends.resolve_left hgives
      obtain ⟨turns', ret, reply, hrecv⟩ := (recvMsg_returns_iff _ _ _).mpr hreturns
      -- as many turns as both of the loops need
      have hsent' := sosTargetSendMsg_mono hsent (Nat.le_max_left turns turns')
      have hrecv' := recvMsg_mono hrecv (Nat.le_max_right turns turns')
      refine ⟨max turns turns', _, reply, ⟨sent, hsent', .inr ⟨by omega, ⟨ret, hrecv'⟩, rfl⟩⟩, ?_⟩
      rw [hkept]
      exact releasedOnce_disconnect

/-- What an exchange does not depend on is the run in front of it. -/
theorem proceeds_from_iff (hfree : target.sendLock = .unheld) (exchanges : List (ι × Exchange)) :
    Proceeds target exchanges ↔ ∀ exchange ∈ exchanges, exchange.2.Meets := by
  induction exchanges generalizing target with
  | nil => exact iff_of_true trivial fun exchange hmem => absurd hmem List.not_mem_nil
  | cons exchange exchanges ih =>
      obtain ⟨caller, x⟩ := exchange
      rw [List.forall_mem_cons, ← releasesOnce_iff caller hfree]
      constructor
      · rintro ⟨turns, after, reply, hsends, hreleased, hrest⟩
        exact ⟨⟨turns, after, reply, hsends, hreleased⟩, (ih hreleased.free).mp hrest⟩
      · rintro ⟨⟨turns, after, reply, hsends, hreleased⟩, hrest⟩
        exact ⟨turns, after, reply, hsends, hreleased, (ih hreleased.free).mpr hrest⟩

/-- **All exchanges of a run proceed** if and only if each of them meets the condition. -/
theorem proceeds_iff (exchanges : List (ι × Exchange)) :
    Proceeds sosTargetInit exchanges ↔ ∀ exchange ∈ exchanges, exchange.2.Meets :=
  proceeds_from_iff rfl exchanges

end

/-- An exchange with a runtime that is shutting down; the daemon could be reached. -/
def suppressedExchange : Exchange where
  lookup := ⟨0, [⟨3, 0⟩]⟩
  config := ⟨true, false⟩
  message := twoBytes
  outside := fun _ => 0
  outcomes := fun _ => .accepted 2
  shutdown := true
  reply := sosBufferInit
  stream := ⟨[], .closed⟩
  len_nonneg := Int.natCast_nonneg 2
  accepts := accepts_whole 2

/-- **It keeps the lock**, and the next exchange never comes back. -/
theorem not_proceeds :
    letI := DoubleCodec.bits
    (∃ after reply, (∀ turns,
        Exchange.sosSendToDaemon 0 suppressedExchange turns (sosTargetInit : SosSocket ℕ) =
          some (after, reply)) ∧ after.sendLock.holder = some 0 ∧
      ∀ caller x turns, Exchange.sosSendToDaemon caller x turns after = none) ∧
    ¬ ∀ exchanges : List (ℕ × Exchange), Proceeds sosTargetInit exchanges := by
  let _ := DoubleCodec.bits
  have hlookup : ¬ suppressedExchange.lookup.Fails := by
    rw [lookup_fails_iff]
    decide
  refine ⟨⟨(sosTargetInit : SosSocket ℕ).connected 0 suppressedExchange, sosBufferInit, ?_, rfl, ?_⟩,
    ?_⟩
  · intro turns
    rw [Exchange.sosSendToDaemon_some rfl hlookup]
    exact ⟨⟨-1, false, .start⟩, sosTargetSendMsg_suppressed (by decide) turns,
      .inl ⟨by decide, rfl, rfl⟩⟩
  · intro caller x turns
    exact Exchange.sosSendToDaemon_blocked (Option.some_ne_none 0) turns
  · intro hall
    have hmeets := (proceeds_from_iff rfl _).mp (hall [(0, suppressedExchange)]) _
      (List.mem_singleton_self _)
    rcases hmeets with hfails | ⟨hrunning, -⟩
    · exact hlookup hfails
    · exact absurd hrunning (by decide)

end SosFlow
