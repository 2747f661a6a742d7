import SosFlow.Buffer.Basic
import SosFlow.Lib.Loop
import Mathlib.Order.Nat

/-!
# Sending a message

`SOS_target_send_msg` offers a message to `send` until all of its bytes were
accepted, or eight calls have failed. A call that accepts a part moves the
start of the next offer, and the next offer is of as many bytes again. So it
ends behind the message, and what is accepted of it may be, too.

A message goes out whole or not at all exactly when the first call that
does not fail accepts all of it (`exactlySent_iff`).
-/

namespace SosFlow

open Loop

/-- What `send` returns: an error, or how many of the bytes offered it accepted. -/
inductive SendOutcome where
  | error
  | accepted (count : ℕ)
deriving DecidableEq

/-- What a send asks of the runtime. -/
structure SendConfig where
  shutdown : Bool
  offlineTestMode : Bool
deriving DecidableEq

/-- A runtime that sends. -/
def SendConfig.running : SendConfig := ⟨false, false⟩

/-- **The loop of a send**: the failures, `total_bytes_sent`, what is on the wire, and
for each call its first byte and how many it offers. -/
structure SendState where
  failed : ℕ
  total : ℕ
  wire : List Byte
  offers : List (ℕ × ℕ)
deriving DecidableEq

/-- What a send returns, and whether it has released the lock of its target. -/
structure SendResult where
  ret : ℤ
  released : Bool
  state : SendState
deriving DecidableEq

/-- The byte at a position of `msg->data`; `outside` is what lies behind the array. -/
def byteAt (msg : SosBuffer) (outside : ℕ → Byte) (i : ℕ) : Byte := msg.data[i]?.getD (outside i)

/-- `count` bytes from a position on. -/
def bytesAt (msg : SosBuffer) (outside : ℕ → Byte) (start count : ℕ) : List Byte :=
  (List.range' start count).map (byteAt msg outside)

/-- Nothing was sent yet. -/
def SendState.start : SendState := ⟨0, 0, [], []⟩

section

variable (msg : SosBuffer) (outside : ℕ → Byte) (outcomes : ℕ → SendOutcome)

/-- **One turn of the loop.** The offer is always of `msg->len` bytes. -/
def sendTurn (s : SendState) : Turn SendState SendResult :=
  if s.failed ≥ 8 then .done ⟨-1, true, s⟩
  else
    let offers := s.offers ++ [(s.total, msg.len.toNat)]
    match outcomes s.offers.length with
    | .error => .next { s with failed := s.failed + 1, offers := offers }
    | .accepted count =>
      let sent : SendState :=
        ⟨s.failed, s.total + count, s.wire ++ bytesAt msg outside s.total count, offers⟩
      if (sent.total : ℤ) ≥ msg.len then .done ⟨sent.total, false, sent⟩ else .next sent

/-- **`SOS_target_send_msg`**, in at most that many turns of its loop. -/
def sosTargetSendMsg (config : SendConfig) (turns : ℕ) : Option SendResult :=
  if config.shutdown then some ⟨-1, false, .start⟩
  else if config.offlineTestMode then some ⟨-1, false, .start⟩
  else iterate (sendTurn msg outside outcomes) turns .start

/-- **What `send` may return**: of the bytes offered it accepts at least one, and no more
than there are. -/
def Accepts (outcomes : ℕ → SendOutcome) (offered : ℕ) : Prop :=
  ∀ i count, outcomes i = .accepted count → min 1 offered ≤ count ∧ count ≤ offered

/-- **Sent exactly**: nothing behind the message was offered, and all of it is on the
wire, or eight calls failed and a part of it is. -/
structure SentExactly (r : SendResult) : Prop where
  within : ∀ offer ∈ r.state.offers, (offer.1 + offer.2 : ℕ) ≤ msg.len
  ends : (r.ret = msg.len ∧ r.state.wire = bytesAt msg outside 0 msg.len.toNat) ∨
    (r.ret = -1 ∧ r.state.failed = 8 ∧ r.state.wire <+: bytesAt msg outside 0 msg.len.toNat)

/-- **The send terminates, and was exact.** -/
def ExactlySent : Prop :=
  ∃ turns r, sosTargetSendMsg msg outside outcomes .running turns = some r ∧
    SentExactly msg outside r

/-- **The first call that does not fail accepts all of it**, of those that are made
before eight have failed. -/
def FirstWhole : Prop :=
  ∀ i < 8, (∀ j < i, outcomes j = .error) → ∀ count, outcomes i = .accepted count →
    count = msg.len.toNat

variable {msg outside outcomes}

/-- How many of the first `calls` calls fail. -/
def failuresIn (outcomes : ℕ → SendOutcome) : ℕ → ℕ
  | 0 => 0
  | calls + 1 => failuresIn outcomes calls + if outcomes calls = .error then 1 else 0

/-- How many bytes a call has accepted. -/
def SendOutcome.count : SendOutcome → ℕ
  | .error => 0
  | .accepted count => count

/-- How many bytes they accept. -/
def acceptedIn (outcomes : ℕ → SendOutcome) : ℕ → ℕ
  | 0 => 0
  | calls + 1 => acceptedIn outcomes calls + (outcomes calls).count

/-- None of the first `calls` calls completes the message. -/
def NotComplete (msg : SosBuffer) (outcomes : ℕ → SendOutcome) (calls : ℕ) : Prop :=
  ∀ k < calls, ∀ count, outcomes k = .accepted count → (acceptedIn outcomes (k + 1) : ℤ) < msg.len

/-- **The send gives up**: eight calls fail before one of the others completes the
message. -/
def GivesUp (msg : SosBuffer) (outcomes : ℕ → SendOutcome) : Prop :=
  ∃ calls, failuresIn outcomes calls = 8 ∧ NotComplete msg outcomes calls

/-- **A send that is suppressed** releases nothing. -/
theorem sosTargetSendMsg_suppressed {config : SendConfig} (h : config ≠ .running) (turns : ℕ) :
    sosTargetSendMsg msg outside outcomes config turns = some ⟨-1, false, .start⟩ := by
  obtain ⟨shutdown, offline⟩ := config
  cases shutdown with
  | true => rfl
  | false =>
      cases offline with
      | true => rfl
      | false => exact absurd rfl h

/-- More turns change nothing behind the end of a send. -/
theorem sosTargetSendMsg_mono {config : SendConfig} {turns more : ℕ} {r : SendResult}
    (h : sosTargetSendMsg msg outside outcomes config turns = some r) (hle : turns ≤ more) :
    sosTargetSendMsg msg outside outcomes config more = some r := by
  unfold sosTargetSendMsg at h ⊢
  split_ifs at h ⊢
  · exact h
  · exact h
  · exact iterate_mono h hle

/-- A send ends in one way. -/
theorem sosTargetSendMsg_unique {config : SendConfig} {turns turns' : ℕ} {r r' : SendResult}
    (h : sosTargetSendMsg msg outside outcomes config turns = some r)
    (h' : sosTargetSendMsg msg outside outcomes config turns' = some r') : r = r' := by
  have hr := sosTargetSendMsg_mono h (Nat.le_max_left turns turns')
  exact Option.some.inj (hr.symm.trans (sosTargetSendMsg_mono h' (Nat.le_max_right turns turns')))

/-! ## Turns -/

variable {s : SendState}

theorem sendTurn_gaveUp (h : s.failed ≥ 8) :
    sendTurn msg outside outcomes s = .done ⟨-1, true, s⟩ :=
  if_pos h

theorem sendTurn_error (h : s.failed < 8) (hout : outcomes s.offers.length = .error) :
    sendTurn msg outside outcomes s = .next { s with
      failed := s.failed + 1, offers := s.offers ++ [(s.total, msg.len.toNat)] } := by
  rw [sendTurn, if_neg (by omega), hout]

/-- A call that accepts the rest. -/
theorem sendTurn_sent {count : ℕ} (h : s.failed < 8)
    (hout : outcomes s.offers.length = .accepted count) (hall : msg.len ≤ (s.total + count : ℕ)) :
    sendTurn msg outside outcomes s = .done ⟨(s.total + count : ℕ), false,
      ⟨s.failed, s.total + count, s.wire ++ bytesAt msg outside s.total count,
        s.offers ++ [(s.total, msg.len.toNat)]⟩⟩ := by
  rw [sendTurn, if_neg (by omega), hout]
  exact if_pos hall

/-- A call that accepts a part. -/
theorem sendTurn_part {count : ℕ} (h : s.failed < 8)
    (hout : outcomes s.offers.length = .accepted count) (hpart : (s.total + count : ℕ) < msg.len) :
    sendTurn msg outside outcomes s = .next
      ⟨s.failed, s.total + count, s.wire ++ bytesAt msg outside s.total count,
        s.offers ++ [(s.total, msg.len.toNat)]⟩ := by
  rw [sendTurn, if_neg (by omega), hout]
  exact if_neg (not_le.mpr hpart)

/-- What a turn that does not end the loop leaves: one failure more, or more bytes sent. -/
theorem sendTurn_next {s' : SendState} (h : sendTurn msg outside outcomes s = .next s') :
    s.failed < 8 ∧ s'.offers = s.offers ++ [(s.total, msg.len.toNat)] ∧
      ((outcomes s.offers.length = .error ∧ s'.failed = s.failed + 1 ∧ s'.total = s.total) ∨
        ∃ count, outcomes s.offers.length = .accepted count ∧ s'.failed = s.failed ∧
          s'.total = s.total + count ∧ (s'.total : ℤ) < msg.len) := by
  by_cases hfailed : s.failed ≥ 8
  · rw [sendTurn_gaveUp hfailed] at h
    cases h
  have hlt : s.failed < 8 := by omega
  cases hout : outcomes s.offers.length with
  | error =>
      rw [sendTurn_error hlt hout] at h
      obtain rfl := Turn.next.inj h
      exact ⟨hlt, rfl, .inl ⟨rfl, rfl, rfl⟩⟩
  | accepted count =>
      by_cases hall : msg.len ≤ (s.total + count : ℕ)
      · rw [sendTurn_sent hlt hout hall] at h
        cases h
      · rw [sendTurn_part hlt hout (by omega)] at h
        obtain rfl := Turn.next.inj h
        exact ⟨hlt, rfl, .inr ⟨count, rfl, rfl, rfl, not_le.mp hall⟩⟩

/-- What a turn that ends it leaves: it has given up and released the lock, or all is
sent. -/
theorem sendTurn_done {r : SendResult} (h : sendTurn msg outside outcomes s = .done r) :
    (s.failed ≥ 8 ∧ r = ⟨-1, true, s⟩) ∨
      ∃ count, s.failed < 8 ∧ outcomes s.offers.length = .accepted count ∧
        msg.len ≤ (s.total + count : ℕ) ∧ r.ret = (s.total + count : ℕ) ∧ r.released = false ∧
        r.state.offers = s.offers ++ [(s.total, msg.len.toNat)] := by
  by_cases hfailed : s.failed ≥ 8
  · rw [sendTurn_gaveUp hfailed] at h
    exact .inl ⟨hfailed, (Turn.done.inj h).symm⟩
  have hlt : s.failed < 8 := by omega
  cases hout : outcomes s.offers.length with
  | error =>
      rw [sendTurn_error hlt hout] at h
      cases h
  | accepted count =>
      by_cases hall : msg.len ≤ (s.total + count : ℕ)
      · rw [sendTurn_sent hlt hout hall] at h
        obtain rfl := Turn.done.inj h
        exact .inr ⟨count, hlt, rfl, hall, rfl, rfl, rfl⟩
      · rw [sendTurn_part hlt hout (by omega)] at h
        cases h

/-- **A send always ends**: each turn leaves a failure less to come, or fewer bytes. -/
theorem send_terminates (hlen : 0 ≤ msg.len) (haccepts : Accepts outcomes msg.len.toNat) :
    ∃ r, Returns (sendTurn msg outside outcomes) .start r := by
  refine terminates (fun s => s.failed ≤ 8 ∧ (s.total : ℤ) ≤ msg.len)
    (fun s => (8 - s.failed) + (msg.len.toNat - s.total)) ?_ ⟨Nat.zero_le 8, hlen⟩
  rintro s s' ⟨hfailed, htotal⟩ hturn
  obtain ⟨hlt, -, ⟨-, hfailed', htotal'⟩ | ⟨count, hout, hfailed', htotal', hpart⟩⟩ :=
    sendTurn_next hturn
  · rw [hfailed', htotal']
    omega
  · have hsome := (haccepts _ count hout).1
    rw [hfailed', htotal']
    omega

/-! ## Giving up -/

/-- Where a loop that has not ended is: it has counted the calls it made, and none of
them has completed the message. -/
structure SendCounts (msg : SosBuffer) (outcomes : ℕ → SendOutcome) (s : SendState) : Prop where
  failed : s.failed = failuresIn outcomes s.offers.length
  total : s.total = acceptedIn outcomes s.offers.length
  le_eight : s.failed ≤ 8
  part : s.total = 0 ∨ (s.total : ℤ) < msg.len
  before : NotComplete msg outcomes s.offers.length

variable (outcomes) in
theorem failuresIn_mono {calls more : ℕ} (h : calls ≤ more) :
    failuresIn outcomes calls ≤ failuresIn outcomes more := by
  induction more, h using Nat.le_induction with
  | base => exact le_rfl
  | succ more _ ih =>
      rw [failuresIn]
      omega

/-- One call more. -/
theorem SendCounts.next (h : SendCounts msg outcomes s) {s' : SendState}
    (hturn : sendTurn msg outside outcomes s = .next s') : SendCounts msg outcomes s' := by
  obtain ⟨hlt, hoffers, hcall⟩ := sendTurn_next hturn
  have hlength : s'.offers.length = s.offers.length + 1 := by
    rw [hoffers, List.length_append, List.length_singleton]
  obtain ⟨hout, hfailed, htotal⟩ | ⟨count, hout, hfailed, htotal, hpart⟩ := hcall
  · refine ⟨?_, ?_, by omega, htotal ▸ h.part, ?_⟩
    · rw [hlength, failuresIn, if_pos hout, hfailed, h.failed]
    · rw [hlength, acceptedIn, hout, htotal, h.total]
      rfl
    · rw [hlength]
      intro k hk count hcount
      rcases Nat.lt_succ_iff_lt_or_eq.mp hk with hbefore | rfl
      · exact h.before k hbefore count hcount
      · cases hout.symm.trans hcount
  · have haccepted : s'.total = acceptedIn outcomes s'.offers.length := by
      rw [hlength, acceptedIn, hout, htotal, h.total]
      rfl
    refine ⟨?_, haccepted, by omega, .inr hpart, ?_⟩
    · rw [hlength, failuresIn, if_neg (by rw [hout]; exact SendOutcome.noConfusion), hfailed,
        h.failed, Nat.add_zero]
    · rw [hlength] at haccepted ⊢
      intro k hk count hcount
      rcases Nat.lt_succ_iff_lt_or_eq.mp hk with hbefore | rfl
      · exact h.before k hbefore count hcount
      · rw [← haccepted]
        exact hpart

variable (msg outside) in
/-- **What a send comes to**: it gives up and releases the lock, or it has sent at least
the message and has not. -/
theorem send_ends (hlen : 0 ≤ msg.len) (haccepts : Accepts outcomes msg.len.toNat) :
    ∃ r, Returns (sendTurn msg outside outcomes) .start r ∧
      ((GivesUp msg outcomes ∧ r.released = true ∧ r.ret = -1) ∨
        (¬ GivesUp msg outcomes ∧ r.released = false ∧ msg.len ≤ r.ret ∧
          (msg.len = 0 → r.ret = 0))) := by
  obtain ⟨r, hr⟩ := send_terminates hlen haccepts
  refine ⟨r, hr, hr.of_invariant (SendCounts msg outcomes) (fun r =>
    (GivesUp msg outcomes ∧ r.released = true ∧ r.ret = -1) ∨
      (¬ GivesUp msg outcomes ∧ r.released = false ∧ msg.len ≤ r.ret ∧ (msg.len = 0 → r.ret = 0)))
    ?_ ?_ fun s s' hs hturn => hs.next hturn⟩
  · exact ⟨rfl, rfl, Nat.zero_le 8, .inl rfl, fun k hk => absurd hk (Nat.not_lt_zero k)⟩
  · intro s r hs hturn
    obtain ⟨hfailed, rfl⟩ | ⟨count, hlt, hout, hall, hret, hreleased, -⟩ := sendTurn_done hturn
    · refine .inl ⟨⟨s.offers.length, ?_, hs.before⟩, rfl, rfl⟩
      rw [← hs.failed]
      exact le_antisymm hs.le_eight hfailed
    · refine .inr ⟨?_, hreleased, by omega, ?_⟩
      · -- the eighth failure would come behind the call that completed the message
        rintro ⟨calls, height, hbefore⟩
        have hbehind : s.offers.length < calls := by
          by_contra hle
          have hmono := failuresIn_mono outcomes (not_lt.mp hle)
          have hcounted := hs.failed
          omega
        have hpart := hbefore s.offers.length hbehind count hout
        rw [acceptedIn, hout, ← hs.total] at hpart
        exact absurd hpart (not_lt.mpr hall)
      · intro hzero
        have hcount := (haccepts _ count hout).2
        have hpart := hs.part
        omega

/-! ## The first call that does not fail -/

/-- The state when that many calls were made, and all have failed. -/
def SendState.allFailed (msg : SosBuffer) (calls : ℕ) : SendState :=
  ⟨calls, 0, [], List.replicate calls (0, msg.len.toNat)⟩

/-- Up to eight failures leave nothing on the wire. -/
theorem returns_allFailed {calls : ℕ} (hcalls : calls ≤ 8) (h : ∀ j < calls, outcomes j = .error)
    {r : SendResult} : Returns (sendTurn msg outside outcomes) .start r ↔
      Returns (sendTurn msg outside outcomes) (.allFailed msg calls) r := by
  induction calls with
  | zero => exact Iff.rfl
  | succ calls ih =>
      have hout : outcomes (SendState.allFailed msg calls).offers.length = .error := by
        rw [SendState.allFailed, List.length_replicate]
        exact h calls (by omega)
      have hturn : sendTurn msg outside outcomes (.allFailed msg calls) = _ :=
        sendTurn_error (show calls < 8 by omega) hout
      rw [ih (by omega) fun j hj => h j (by omega), returns_next hturn, SendState.allFailed,
        SendState.allFailed, List.replicate_succ']

/-- **All eight fail.** -/
theorem exactlySent_allFailed (hlen : 1 ≤ msg.len) (h : ∀ j < 8, outcomes j = .error) :
    ∃ r, Returns (sendTurn msg outside outcomes) .start r ∧ SentExactly msg outside r := by
  have hturn : sendTurn msg outside outcomes (.allFailed msg 8) = _ := sendTurn_gaveUp le_rfl
  refine ⟨_, (returns_allFailed le_rfl h).mpr ((returns_done hturn).mpr rfl), ?_, ?_⟩
  · intro offer hoffer
    obtain rfl := List.eq_of_mem_replicate hoffer
    show ((0 + msg.len.toNat : ℕ) : ℤ) ≤ msg.len
    omega
  · exact .inr ⟨rfl, rfl, List.nil_prefix⟩

/-- **The first call that does not fail accepts everything.** -/
theorem exactlySent_whole (hlen : 1 ≤ msg.len) {calls : ℕ} (hcalls : calls < 8)
    (h : ∀ j < calls, outcomes j = .error) (hout : outcomes calls = .accepted msg.len.toNat) :
    ∃ r, Returns (sendTurn msg outside outcomes) .start r ∧ SentExactly msg outside r := by
  have hout' : outcomes (SendState.allFailed msg calls).offers.length =
      .accepted msg.len.toNat := by
    rw [SendState.allFailed, List.length_replicate]
    exact hout
  have htotal : (0 + msg.len.toNat : ℕ) = msg.len := by omega
  have hturn : sendTurn msg outside outcomes (.allFailed msg calls) = _ :=
    sendTurn_sent (show calls < 8 from hcalls) hout' htotal.ge
  refine ⟨_, (returns_allFailed hcalls.le h).mpr ((returns_done hturn).mpr rfl), ?_, ?_⟩
  · intro offer hoffer
    have hoffer' : offer = (0, msg.len.toNat) := by
      rcases List.mem_append.mp hoffer with hold | hnew
      · exact List.eq_of_mem_replicate hold
      · exact List.mem_singleton.mp hnew
    rw [hoffer']
    exact htotal.le
  · exact .inl ⟨htotal, rfl⟩

/-- **It accepts a part**: then there is another call, which is offered as many bytes
again. -/
theorem not_exactlySent_part {calls count : ℕ} (hcalls : calls < 8)
    (h : ∀ j < calls, outcomes j = .error) (hout : outcomes calls = .accepted count)
    (hsome : 1 ≤ count) (hpart : (count : ℤ) < msg.len) {r : SendResult}
    (hr : Returns (sendTurn msg outside outcomes) .start r) : ¬ SentExactly msg outside r := by
  have hout' : outcomes (SendState.allFailed msg calls).offers.length = .accepted count := by
    rw [SendState.allFailed, List.length_replicate]
    exact hout
  have hpart' : ((0 + count : ℕ) : ℤ) < msg.len := by omega
  have hturn : sendTurn msg outside outcomes (.allFailed msg calls) = _ :=
    sendTurn_part (show calls < 8 from hcalls) hout' hpart'
  rw [returns_allFailed hcalls.le h, returns_next hturn] at hr
  -- the offer behind the accepted part is among those of every later state
  have hoffered : (count, msg.len.toNat) ∈ r.state.offers := by
    refine hr.of_invariant (fun s => (s.failed < 8 ∧ s.total = count) ∨
      (count, msg.len.toNat) ∈ s.offers) (fun r => (count, msg.len.toNat) ∈ r.state.offers)
      (.inl ⟨hcalls, Nat.zero_add count⟩) ?_ ?_
    · intro s r hs hdone
      rcases sendTurn_done hdone with ⟨hfailed, rfl⟩ | ⟨-, -, -, -, -, -, hoffers⟩
      · rcases hs with hbefore | hoffered
        · omega
        · exact hoffered
      · rw [hoffers]
        rcases hs with ⟨-, htotal⟩ | hoffered
        · exact List.mem_append_right _ (htotal ▸ List.mem_singleton_self _)
        · exact List.mem_append_left _ hoffered
    · intro s s' hs hnext
      obtain ⟨-, hoffers, -⟩ := sendTurn_next hnext
      rw [hoffers]
      rcases hs with ⟨-, htotal⟩ | hoffered
      · exact .inr (List.mem_append_right _ (htotal ▸ List.mem_singleton_self _))
      · exact .inr (List.mem_append_left _ hoffered)
  intro hexact
  have hwithin := hexact.within _ hoffered
  dsimp only at hwithin
  omega

/-- **A message is sent exactly** if and only if the first call that does not fail
accepts all of it. -/
theorem exactlySent_iff (hlen : 1 ≤ msg.len) (haccepts : Accepts outcomes msg.len.toNat) :
    ExactlySent msg outside outcomes ↔ FirstWhole msg outcomes := by
  have hreturns : ExactlySent msg outside outcomes ↔
      ∃ r, Returns (sendTurn msg outside outcomes) .start r ∧ SentExactly msg outside r := by
    constructor
    · rintro ⟨turns, r, hr, hexact⟩
      exact ⟨r, ⟨turns, hr⟩, hexact⟩
    · rintro ⟨r, ⟨turns, hr⟩, hexact⟩
      exact ⟨turns, r, hr, hexact⟩
  rw [hreturns]
  constructor
  · rintro ⟨r, hr, hexact⟩ i hi hbefore count hout
    have hcount := haccepts i count hout
    by_contra hne
    exact not_exactlySent_part hi hbefore hout (by omega) (by omega) hr hexact
  · intro hwhole
    by_cases hall : ∀ j < 8, outcomes j = .error
    · exact exactlySent_allFailed hlen hall
    · -- the first call that does not fail
      have hsome : ∃ k, k < 8 ∧ outcomes k ≠ .error := by
        push Not at hall
        exact hall
      obtain ⟨hlt, hne⟩ := Nat.find_spec hsome
      have hbefore : ∀ j < Nat.find hsome, outcomes j = .error := by
        intro j hj
        by_contra hfails
        exact Nat.find_min hsome hj ⟨by omega, hfails⟩
      cases hout : outcomes (Nat.find hsome) with
      | error => exact absurd hout hne
      | accepted count =>
          obtain rfl := hwhole _ hlt hbefore count hout
          exact exactlySent_whole hlen hlt hbefore hout

end

/-- A message of two bytes. -/
def twoBytes : SosBuffer := ⟨[1, 2], 2, Nat.le_of_ble_eq_true rfl⟩

theorem accepts_whole (offered : ℕ) : Accepts (fun _ => .accepted offered) offered := by
  intro i count hcount
  obtain rfl := SendOutcome.accepted.inj hcount
  omega

theorem exactlySent_twoBytes : ExactlySent twoBytes (fun _ => 0) (fun _ => .accepted 2) := by
  refine (exactlySent_iff (by decide) (accepts_whole 2)).mpr ?_
  intro i _ _ count hcount
  exact (SendOutcome.accepted.inj hcount).symm

/-- A call that accepts one byte, and then one that accepts all it is offered. -/
def oneAndTwo (i : ℕ) : SendOutcome := if i = 0 then .accepted 1 else .accepted 2

/-- **It sends three bytes of two**, the last of which is not of the message. -/
theorem not_exactlySent_oneAndTwo :
    sosTargetSendMsg twoBytes (fun _ => 0) oneAndTwo .running 2 =
      some ⟨3, false, ⟨0, 3, [1, 2, 0], [(0, 2), (1, 2)]⟩⟩ ∧
    ¬ ∀ msg outside outcomes, 1 ≤ msg.len → Accepts outcomes msg.len.toNat →
      ExactlySent msg outside outcomes := by
  refine ⟨by decide, ?_⟩
  intro hall
  have haccepts : Accepts oneAndTwo twoBytes.len.toNat := by
    intro i count hcount
    have hlen : twoBytes.len.toNat = 2 := by decide
    rw [hlen]
    unfold oneAndTwo at hcount
    split at hcount <;> obtain rfl := SendOutcome.accepted.inj hcount <;> omega
  obtain ⟨turns, r, hr, hexact⟩ := hall twoBytes (fun _ => 0) oneAndTwo (by decide) haccepts
  have hfirst : oneAndTwo 0 = .accepted 1 := rfl
  exact not_exactlySent_part (by decide) (fun j hj => absurd hj (Nat.not_lt_zero j)) hfirst le_rfl
    (by decide) ⟨turns, hr⟩ hexact

end SosFlow
