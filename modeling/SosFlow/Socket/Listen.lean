import SosFlow.Socket.Receive
import SosFlow.Daemon.Trigger

/-!
# What the listen loops do with a receive

Three loops wipe a buffer, receive a message into it and hand it on: the
daemon's, the cloud's of the socket transport, and the one of a client that
takes feedback. A receive may fail, or bring less than a header.

Two of the loops compare the result with the size of a header, which is
unsigned. So they let a negative result through, and go on with what is in
the buffer. The third does not compare it at all. What is in the buffer then
is often nothing but zeros, and type zero is the type of a payload to a
client (`listen_right_iff`).
-/

namespace SosFlow

open Mem (Holds)

/-- What a receive has returned, and the buffer behind it. -/
structure RecvData where
  ret : CInt
  buffer : SosBuffer

/-- `i < sizeof(SOS_msg_header)`: the `int` is converted to the other's type. -/
def belowHeader (i : CInt) : Bool := decide ((i.signExtend 64).toNat < headerSize)

/-- **Who the daemon's listen loop hands a message to.** -/
inductive DaemonHandler where
  | register
  | unregister
  | guidBlock
  | localQueue
  | echo
  | shutdown
  | checkIn
  | probe
  | manifest
  | query
  | cacheGrab
  | cacheSize
  | sensitivity
  | desensitize
  | triggerpull
  | unknown
deriving DecidableEq

/-- The `switch` of the daemon's listen loop. -/
def daemonHandlerOf (msgType : CInt) : DaemonHandler :=
  if msgType = MsgType.register.code then .register
  else if msgType = MsgType.unregister.code then .unregister
  else if msgType = MsgType.guidBlock.code then .guidBlock
  else if msgType = MsgType.announce.code ∨ msgType = MsgType.publish.code ∨
    msgType = MsgType.valSnaps.code then .localQueue
  else if msgType = MsgType.echo.code then .echo
  else if msgType = MsgType.shutdown.code then .shutdown
  else if msgType = MsgType.checkIn.code then .checkIn
  else if msgType = MsgType.probe.code then .probe
  else if msgType = MsgType.manifest.code then .manifest
  else if msgType = MsgType.query.code then .query
  else if msgType = MsgType.cacheGrab.code then .cacheGrab
  else if msgType = MsgType.cacheSize.code then .cacheSize
  else if msgType = MsgType.sensitivity.code then .sensitivity
  else if msgType = MsgType.desensitize.code then .desensitize
  else if msgType = MsgType.triggerpull.code then .triggerpull
  else .unknown

/-- A turn of the daemon's loop: back to listening, or a message handed on. -/
inductive DaemonTurn where
  | skipped
  | handled (handler : DaemonHandler) (msg : SosBuffer)

/-- A turn of a client's loop: back to listening, nothing to be called, or a call of the
feedback handler. The payload is not defined where the copy leaves the buffer. -/
inductive ClientTurn where
  | skipped
  | ignored
  | query (msgType msgSize : CInt) (buffer : SosBuffer)
  | payload (msgType : CInt) (payload : Option (CInt × List Byte))

section

variable [DoubleCodec]

/-- **`SOSD_listen_loop`**, behind the receive. -/
def sosdListenTurn (r : RecvData) : Option DaemonTurn :=
  if belowHeader r.ret then some .skipped
  else (sosMsgUnzip r.buffer 0).map fun p => .handled (daemonHandlerOf p.1.msgType) r.buffer

/-- The size and the bytes of a payload, behind a header that ends at `offset`. -/
def payloadOf (b : SosBuffer) (offset : ℕ) : Option (CInt × List Byte) := do
  let (payloadSize, b, offset) ← unpackInt b offset
  if 0 ≤ payloadSize.toInt then
    (Mem.load b.data offset payloadSize.toInt.toNat).map (payloadSize, ·)
  else none

/-- **The loop of `SOS_THREAD_receives_direct`**, behind the receive. -/
def receivesTurn (feedbackHandler : Bool) (r : RecvData) : Option ClientTurn :=
  if belowHeader r.ret then some .skipped
  else (sosMsgUnzip r.buffer 0).map fun p =>
    if p.1.msgType = feedbackTypeQuery then
      if feedbackHandler then .query p.1.msgType p.1.msgSize r.buffer else .ignored
    else if p.1.msgType = feedbackTypePayload then
      if feedbackHandler then .payload p.1.msgType (payloadOf r.buffer p.2) else .ignored
    else .ignored

/-- The copy that `SOSD_cloud_process_buffer` makes of a message. -/
def copyOut (buffer : SosBuffer) (msgSize : CInt) : Option SosBuffer := do
  let msg ← bufferOfSize (1 + msgSize.toInt)
  if msgSize.toInt < 0 then none
  else
    let data ← Mem.load buffer.data 0 msgSize.toInt.toNat
    let msg ← msg.store 0 data
    some (msg.setLen msgSize.toInt)

/-- **`SOSD_cloud_listen_loop` of the sockets**, behind the receive, which it does not
look at: where the message goes, and the copy. -/
def cloudListenTurn (r : RecvData) : Option (Handling × Option SosBuffer) :=
  (sosMsgUnzip r.buffer 0).map fun p => (handlingOf p.1.msgType, copyOut r.buffer p.1.msgSize)

/-- **A complete message**: as many bytes as its header says, and that many were
received. -/
def RecvData.Complete (r : RecvData) : Prop :=
  ∃ message : WireMessage, r.ret.toInt = message.size ∧ r.buffer.len = message.size ∧
    submitted r.buffer = some message.bytes

/-- **An outcome of a receive**: less than a header, also in the negative, or a complete
message. -/
structure RecvOutcome extends RecvData where
  room : headerSize ≤ buffer.max
  kind : ret.toInt < headerSize ∨ toRecvData.Complete

/-- The daemon hands on only complete messages. -/
def DaemonRight (r : RecvData) : Prop :=
  ∀ handler msg, sosdListenTurn r = some (.handled handler msg) → r.Complete ∧ msg = r.buffer

/-- A client's handler is called only for complete messages. -/
def ClientRight (feedbackHandler : Bool) (r : RecvData) : Prop :=
  (∀ msgType msgSize buffer, receivesTurn feedbackHandler r = some (.query msgType msgSize buffer) →
    r.Complete ∧ msgSize = r.ret ∧ buffer = r.buffer) ∧
  ∀ msgType payload, receivesTurn feedbackHandler r = some (.payload msgType payload) → r.Complete

/-- The cloud handles only complete messages, as they are. An ACK it takes no notice
of. -/
def CloudRight (r : RecvData) : Prop :=
  ∀ handling copy, cloudListenTurn r = some (handling, copy) → handling ≠ .ack →
    r.Complete ∧ ∃ msg, copy = some msg ∧ submitted msg = submitted r.buffer

/-- The type in the header that is in a buffer. -/
def typeIn (buffer : SosBuffer) : Option CInt := (sosMsgUnzip buffer 0).map fun p => p.1.msgType

/-! ## The comparison -/

omit [DoubleCodec] in
/-- **A negative result is not below the size of a header.** -/
theorem belowHeader_iff (i : CInt) : belowHeader i = true ↔ 0 ≤ i.toInt ∧ i.toInt < headerSize := by
  have hkept : (i.signExtend 64).toInt = i.toInt := BitVec.toInt_signExtend_of_le (by decide)
  have hcond := BitVec.toInt_eq_toNat_cond (i.signExtend 64)
  have hlt := (i.signExtend 64).isLt
  unfold belowHeader headerSize
  rw [decide_eq_true_iff]
  split_ifs at hcond <;> omega

/-! ## The loops -/

variable {r : RecvData}

/-- What a complete message is read as. -/
theorem RecvData.Complete.unzip (h : r.Complete) : ∃ header, sosMsgUnzip r.buffer 0 =
    some (header, headerSize) ∧ header.msgSize = r.ret ∧ (headerSize : ℤ) ≤ r.ret.toInt ∧
      r.buffer.len = r.ret.toInt ∧ ∃ bytes, submitted r.buffer = some bytes ∧
        (bytes.length : ℤ) = r.ret.toInt ∧ Holds r.buffer.data 0 bytes ∧
        bytes.length ≤ r.buffer.max := by
  obtain ⟨message, hret, hlen, hbytes⟩ := h
  have hload := hbytes
  rw [submitted, hlen, if_pos (Int.natCast_nonneg _), Int.toNat_natCast] at hload
  obtain ⟨hbound, hcount, hholds⟩ := Mem.load_some hload
  have hsize : message.header.msgSize.toInt = message.size := message.size_eq
  have hroom : headerSize ≤ r.buffer.max := by
    have hle : headerSize ≤ message.size := Nat.le_add_right _ _
    rw [Nat.zero_add] at hbound
    exact hle.trans hbound
  refine ⟨message.header, sosMsgUnzip_of_holds hroom (Mem.holds_append.mp hholds).1,
    BitVec.eq_of_toInt_eq (hsize.trans hret.symm), ?_, hlen.trans hret.symm, message.bytes, hbytes,
    ?_, hholds, ?_⟩
  · rw [hret]
    exact_mod_cast Nat.le_add_right _ _
  · rw [hcount, hret]
  · rw [hcount]
    rw [Nat.zero_add] at hbound
    exact hbound

/-- What a negative result is not. -/
theorem RecvData.Complete.nonneg (h : r.Complete) : 0 ≤ r.ret.toInt := by
  obtain ⟨-, -, -, hle, -⟩ := h.unzip
  omega

/-- A result that is not negative and passes the comparison is a complete message. -/
theorem RecvOutcome.complete (o : RecvOutcome) (hnonneg : 0 ≤ o.ret.toInt)
    (hpasses : ¬ belowHeader o.ret = true) : o.Complete := by
  rw [belowHeader_iff] at hpasses
  exact o.kind.resolve_left fun hlt => hpasses ⟨hnonneg, hlt⟩

omit [DoubleCodec] in
/-- A negative one passes it. -/
theorem passes_of_neg {i : CInt} (h : ¬ 0 ≤ i.toInt) : ¬ belowHeader i = true := by
  rw [belowHeader_iff]
  exact fun hbelow => h hbelow.1

/-- **The daemon's loop.** -/
theorem daemonRight_iff (o : RecvOutcome) : DaemonRight o.toRecvData ↔ 0 ≤ o.ret.toInt := by
  obtain ⟨header, hread⟩ := exists_header o.room
  constructor
  · intro hright
    by_contra hneg
    have hturn : sosdListenTurn o.toRecvData =
        some (.handled (daemonHandlerOf header.msgType) o.buffer) := by
      rw [sosdListenTurn, if_neg (passes_of_neg hneg), hread, Option.map_some]
    exact hneg (hright _ _ hturn).1.nonneg
  · intro hnonneg handler msg hturn
    unfold sosdListenTurn at hturn
    by_cases hbelow : belowHeader o.ret = true
    · rw [if_pos hbelow] at hturn
      cases hturn
    · rw [if_neg hbelow] at hturn
      obtain ⟨p, -, hhandled⟩ := Option.map_eq_some_iff.mp hturn
      exact ⟨o.complete hnonneg hbelow, (DaemonTurn.handled.inj hhandled).2.symm⟩

/-- A client's turn with a header in the buffer. -/
theorem receivesTurn_eq (feedbackHandler : Bool) {header : SosMsgHeader}
    (hpasses : ¬ belowHeader r.ret = true)
    (hread : sosMsgUnzip r.buffer 0 = some (header, headerSize)) :
    receivesTurn feedbackHandler r = some (if header.msgType = feedbackTypeQuery then
        if feedbackHandler then .query header.msgType header.msgSize r.buffer else .ignored
      else if header.msgType = feedbackTypePayload then
        if feedbackHandler then .payload header.msgType (payloadOf r.buffer headerSize) else .ignored
      else .ignored) := by
  rw [receivesTurn, if_neg hpasses, hread, Option.map_some]

/-- **What a complete message is called with.** -/
theorem clientRight_of_complete (feedbackHandler : Bool) (h : r.Complete)
    (hpasses : ¬ belowHeader r.ret = true) : ClientRight feedbackHandler r := by
  obtain ⟨header, hread, hsize, -⟩ := h.unzip
  refine ⟨?_, fun _ _ _ => h⟩
  intro msgType msgSize buffer hturn
  rw [receivesTurn_eq feedbackHandler hpasses hread] at hturn
  split_ifs at hturn
  all_goals first
    | cases Option.some.inj hturn
      exact ⟨h, hsize, rfl⟩
    | cases Option.some.inj hturn

/-- A turn without a call is right. -/
theorem clientRight_of_quiet {feedbackHandler : Bool} {turn : ClientTurn}
    (hquiet : turn = .skipped ∨ turn = .ignored) (hturn : receivesTurn feedbackHandler r = some turn) :
    ClientRight feedbackHandler r := by
  unfold ClientRight
  rw [hturn]
  constructor
  · intro msgType msgSize buffer hcall
    obtain rfl := Option.some.inj hcall
    rcases hquiet with h | h <;> cases h
  · intro msgType payload hcall
    obtain rfl := Option.some.inj hcall
    rcases hquiet with h | h <;> cases h

/-- **A client's loop.** -/
theorem clientRight_iff (feedbackHandler : Bool) (o : RecvOutcome) :
    ClientRight feedbackHandler o.toRecvData ↔ 0 ≤ o.ret.toInt ∨ feedbackHandler = false ∨
      (typeIn o.buffer ≠ some feedbackTypeQuery ∧ typeIn o.buffer ≠ some feedbackTypePayload) := by
  obtain ⟨header, hread⟩ := exists_header o.room
  have htype : typeIn o.buffer = some header.msgType := by
    rw [typeIn, hread, Option.map_some]
  rw [htype, Ne, Ne, Option.some.injEq, Option.some.injEq]
  constructor
  · intro hright
    by_contra hnone
    push Not at hnone
    obtain ⟨hneg, hhandler, hcalled⟩ := hnone
    obtain rfl : feedbackHandler = true := Bool.eq_true_of_not_eq_false hhandler
    have hnot : ¬ o.Complete := fun h => absurd h.nonneg (not_le.mpr hneg)
    have hturn := receivesTurn_eq true (passes_of_neg (not_le.mpr hneg)) hread
    rw [if_pos rfl, if_pos rfl] at hturn
    by_cases hquery : header.msgType = feedbackTypeQuery
    · rw [if_pos hquery] at hturn
      exact hnot (hright.1 _ _ _ hturn).1
    · rw [if_neg hquery, if_pos (hcalled hquery)] at hturn
      exact hnot (hright.2 _ _ hturn)
  · intro hmeets
    by_cases hbelow : belowHeader o.ret = true
    · exact clientRight_of_quiet (.inl rfl) (if_pos hbelow)
    rcases hmeets with hnonneg | hhandler | hother
    · exact clientRight_of_complete feedbackHandler (o.complete hnonneg hbelow) hbelow
    · have hturn := receivesTurn_eq feedbackHandler hbelow hread
      rw [hhandler] at hturn ⊢
      simp only [Bool.false_eq_true, if_false, ite_self] at hturn
      exact clientRight_of_quiet (.inr rfl) hturn
    · have hturn := receivesTurn_eq feedbackHandler hbelow hread
      rw [if_neg hother.1, if_neg hother.2] at hturn
      exact clientRight_of_quiet (.inr rfl) hturn

/-- The copy of a message is what was received. -/
theorem copyOut_of_complete (h : r.Complete) (hle : r.ret.toInt < intMax) :
    ∃ msg, copyOut r.buffer r.ret = some msg ∧ submitted msg = submitted r.buffer := by
  obtain ⟨header, -, -, hheader, hlen, bytes, hbytes, hcount, hholds, hmax⟩ := h.unzip
  obtain ⟨msg, hmsg⟩ := bufferOfSize_eq (1 + r.ret.toInt) (by omega)
  obtain ⟨hcap, -⟩ := bufferOfSize_some hmsg
  obtain ⟨msg', hstore, hmem, -, hmax'⟩ := SosBuffer.store_of_le (b := msg) 0 bytes (by omega)
  have hnat : r.ret.toInt.toNat = bytes.length := by omega
  have hload := Mem.load_of_holds hholds (by rw [Nat.zero_add]; exact hmax)
  refine ⟨msg'.setLen r.ret.toInt, ?_, ?_⟩
  · rw [copyOut, hmsg]
    simp only [Option.bind_eq_bind, Option.bind_some, hnat, hload, hstore]
    exact if_neg (by omega)
  · rw [hbytes, submitted, SosBuffer.setLen_len, if_pos (by omega), hnat]
    refine Mem.load_of_holds (Mem.holds_of_store hmem) ?_
    show 0 + bytes.length ≤ msg'.max
    omega

omit [DoubleCodec] in
/-- A copy has room for one byte more. -/
theorem copyOut_full {buffer : SosBuffer} {msgSize : CInt} (h : (intMax : ℤ) ≤ msgSize.toInt) :
    copyOut buffer msgSize = none := by
  have hnone : bufferOfSize (1 + msgSize.toInt) = none := by
    cases hmsg : bufferOfSize (1 + msgSize.toInt) with
    | none => rfl
    | some msg =>
        obtain ⟨hcap, -⟩ := bufferOfSize_some hmsg
        have hle := msg.max_le_intMax
        omega
  rw [copyOut, hnone]
  rfl

omit [DoubleCodec] in
theorem handlingOf_eq_ack {msgType : CInt} :
    handlingOf msgType = .ack ↔ msgType = MsgType.ack.code := by
  constructor
  · intro h
    unfold handlingOf at h
    split_ifs at h with _ _ _ _ hack
    exact hack
  · rintro rfl
    decide

/-- **The loop of the cloud.** -/
theorem cloudRight_iff (o : RecvOutcome) : CloudRight o.toRecvData ↔
    (o.Complete ∧ o.ret.toInt < intMax) ∨ typeIn o.buffer = some MsgType.ack.code := by
  obtain ⟨header, hread⟩ := exists_header o.room
  have hturn : cloudListenTurn o.toRecvData =
      some (handlingOf header.msgType, copyOut o.buffer header.msgSize) := by
    rw [cloudListenTurn, hread, Option.map_some]
  have htype : typeIn o.buffer = some header.msgType := by
    rw [typeIn, hread, Option.map_some]
  have hsize : o.Complete → header.msgSize = o.ret := by
    intro hcomplete
    obtain ⟨header', hread', hsize', -⟩ := hcomplete.unzip
    obtain ⟨rfl, -⟩ := Prod.mk.inj (Option.some.inj (hread.symm.trans hread'))
    exact hsize'
  rw [htype, Option.some.injEq, ← handlingOf_eq_ack]
  constructor
  · intro hright
    by_cases hack : handlingOf header.msgType = .ack
    · exact .inr hack
    · obtain ⟨hcomplete, msg, hcopy, -⟩ := hright _ _ hturn hack
      refine .inl ⟨hcomplete, ?_⟩
      by_contra hfull
      rw [hsize hcomplete, copyOut_full (not_lt.mp hfull)] at hcopy
      cases hcopy
  · rintro (⟨hcomplete, hle⟩ | hack) handling copy hhandled hother
    · obtain ⟨-, rfl⟩ := Prod.mk.inj (Option.some.inj (hturn.symm.trans hhandled))
      rw [hsize hcomplete]
      exact ⟨hcomplete, copyOut_of_complete hcomplete hle⟩
    · obtain ⟨rfl, -⟩ := Prod.mk.inj (Option.some.inj (hturn.symm.trans hhandled))
      exact absurd hack hother

/-- **When each loop hands on complete messages only.** The daemon's and a client's let a
negative result through, which to a client makes a difference when the buffer has one of
the two types that it calls its handler for. The cloud's lets everything through. -/
theorem listen_right_iff (feedbackHandler : Bool) (o : RecvOutcome) :
    (DaemonRight o.toRecvData ↔ 0 ≤ o.ret.toInt) ∧
    (ClientRight feedbackHandler o.toRecvData ↔ 0 ≤ o.ret.toInt ∨ feedbackHandler = false ∨
      (typeIn o.buffer ≠ some feedbackTypeQuery ∧ typeIn o.buffer ≠ some feedbackTypePayload)) ∧
    (CloudRight o.toRecvData ↔
      (o.Complete ∧ o.ret.toInt < intMax) ∨ typeIn o.buffer = some MsgType.ack.code) :=
  ⟨daemonRight_iff o, clientRight_iff feedbackHandler o, cloudRight_iff o⟩

/-! ## The functions they call -/

/-- `SOSD_cloud_process_buffer` is the turn of the cloud's loop. -/
theorem cloudListenTurn_of_process {buffer : SosBuffer} {handled : Handled} (ret : CInt)
    (h : sosdCloudProcessBuffer buffer = some handled) :
    cloudListenTurn ⟨ret, buffer⟩ = some (handled.handling, some handled.msg) := by
  obtain ⟨⟨header, offset⟩, hread, h⟩ := Option.bind_eq_some_iff.mp h
  obtain ⟨msg, hmsg, h⟩ := Option.bind_eq_some_iff.mp h
  by_cases hneg : header.msgSize.toInt < 0
  · rw [if_pos hneg] at h
    cases h
  rw [if_neg hneg] at h
  obtain ⟨data, hdata, h⟩ := Option.bind_eq_some_iff.mp h
  obtain ⟨msg', hstore, h⟩ := Option.bind_eq_some_iff.mp h
  obtain rfl := Option.some.inj h
  rw [cloudListenTurn, hread, Option.map_some]
  simp only [copyOut, hmsg, Option.bind_eq_bind, Option.bind_some, if_neg hneg, hdata, hstore]

/-- What `receivesDirect` calls the handler with is what a client's loop does. -/
theorem receivesTurn_of_receivesDirect {inlet : Inlet} {sent : List Byte} {call : FeedbackCall}
    (h : receivesDirect inlet sent = some call) :
    ∃ buffer, inlet.recv sent = some buffer ∧ ∀ ret, belowHeader ret = false →
      receivesTurn true ⟨ret, buffer⟩ =
        some (.payload call.payloadType (some (call.payloadSize, call.payloadData))) := by
  obtain ⟨buffer, hrecv, h⟩ := Option.bind_eq_some_iff.mp h
  obtain ⟨⟨header, offset⟩, hread, h⟩ := Option.bind_eq_some_iff.mp h
  obtain ⟨⟨payloadSize, b, behind⟩, hsize, h⟩ := Option.bind_eq_some_iff.mp h
  dsimp only at hsize h
  by_cases hpayload : header.msgType = feedbackTypePayload ∧ 0 ≤ payloadSize.toInt
  · rw [if_pos hpayload] at h
    obtain ⟨data, hdata, rfl⟩ := Option.map_eq_some_iff.mp h
    refine ⟨buffer, hrecv, fun ret hpasses => ?_⟩
    have hother : header.msgType ≠ feedbackTypeQuery := by
      rw [hpayload.1]
      decide
    have hbytes : payloadOf buffer offset = some (payloadSize, data) := by
      simp only [payloadOf, hsize, Option.bind_eq_bind, Option.bind_some, if_pos hpayload.2, hdata,
        Option.map_some]
    rw [receivesTurn, hpasses, if_neg Bool.false_ne_true, hread, Option.map_some, if_neg hother,
      if_pos hpayload.1, if_pos rfl, hbytes]
  · rw [if_neg hpayload] at h
    cases h

/-- A receive that has failed, with the wiped buffer as it was. -/
def failedReceive : RecvOutcome where
  ret := -1
  buffer := sosBufferInit
  room := by
    rw [show sosBufferInit.max = sosDefaultBufferMax from List.length_replicate]
    decide
  kind := .inl (by decide)

end

/-- **Zeros are handled** as a message by all three loops. -/
theorem not_listen_right :
    letI := DoubleCodec.bits
    typeIn failedReceive.buffer = some feedbackTypePayload ∧
    ¬ DaemonRight failedReceive.toRecvData ∧ ¬ ClientRight true failedReceive.toRecvData ∧
    ¬ CloudRight failedReceive.toRecvData ∧
    ¬ ∀ feedbackHandler, ∀ o : RecvOutcome, DaemonRight o.toRecvData ∧
      ClientRight feedbackHandler o.toRecvData ∧ CloudRight o.toRecvData := by
  let _ := DoubleCodec.bits
  have hneg : ¬ 0 ≤ failedReceive.ret.toInt := by decide
  have hnot : ¬ failedReceive.Complete := fun h => hneg h.nonneg
  have henc : (SosMsgHeader.mk 0 0 0 0).enc = List.replicate headerSize 0 := by decide
  have hzeros : Holds failedReceive.buffer.data 0 (SosMsgHeader.mk 0 0 0 0).enc := by
    refine ⟨List.replicate (sosDefaultBufferMax - headerSize) 0, ?_⟩
    rw [henc, List.replicate_append_replicate]
    rfl
  have hread := sosMsgUnzip_of_holds failedReceive.room hzeros
  have htype : typeIn failedReceive.buffer = some feedbackTypePayload := by
    rw [typeIn, hread]
    rfl
  have hdaemon : ¬ DaemonRight failedReceive.toRecvData := fun h =>
    hneg ((daemonRight_iff failedReceive).mp h)
  have hclient : ¬ ClientRight true failedReceive.toRecvData := by
    rw [clientRight_iff, htype]
    rintro (hnonneg | hhandler | ⟨-, hother⟩)
    · exact hneg hnonneg
    · cases hhandler
    · exact hother rfl
  have hcloud : ¬ CloudRight failedReceive.toRecvData := by
    rw [cloudRight_iff, htype]
    rintro (⟨hcomplete, -⟩ | hack)
    · exact hnot hcomplete
    · exact absurd hack (by decide)
  exact ⟨htype, hdaemon, hclient, hcloud, fun hall => hdaemon (hall true failedReceive).1⟩

end SosFlow
