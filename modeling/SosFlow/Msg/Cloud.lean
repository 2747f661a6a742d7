import SosFlow.Msg.Builders

/-!
# Control messages between daemons

Three transports carry messages from daemon to daemon, each with its own
`SOSD_cloud_*` functions. Besides data they carry control messages: the
notice of a shutdown, the ACK of a registration, and triggers that an
aggregator wraps again for its listeners. Here are the senders of these,
and the handlers that take a message out of the bytes that arrive.

The notice differs from transport to transport. Over EVPath and ZeroMQ it
still begins with a count of embedded messages, which no handler skips any
more: `understood_iff` finds that this is the one control message that is
not understood.
-/

namespace SosFlow

open Mem (Holds)

/-- The transports. -/
inductive Transport where
  | socket
  | evpath
  | zeromq
deriving DecidableEq

section

variable [DoubleCodec]

/-! ## The senders -/

/-- The ACK that `SOSD_socket_register_connection`,
`SOSD_aggregator_register_listener` and
`SOSD_cloud_handle_daemon_registration` send, each in the same words. -/
def registrationAck (commRank : CInt) : Option SosBuffer := do
  let reply ← bufferOfSize 128
  let r ← packFields reply 0 (SosMsgHeader.mk (-1) MsgType.ack.code (rankGuid commRank) 0).fields
  let z ← packFields r.buffer 0 [.i (BitVec.ofNat 32 r.offset)]
  some z.buffer

/-- The listeners that send a notice: "the first N listener ranks will notify
the N aggregators". -/
def Notifies (commRank targetCount : CInt) : Prop :=
  commRank.toInt - targetCount.toInt < targetCount.toInt

instance (commRank targetCount : CInt) : Decidable (Notifies commRank targetCount) := by
  unfold Notifies
  infer_instance

/-- The header of a notice, before its size is known. -/
def shutdownHeader (myGuid : SosGuid) : SosMsgHeader := ⟨-1, MsgType.shutdown.code, myGuid, 0⟩

/-- What `SOSD_cloud_shutdown_notice` hands to `SOSD_cloud_send`, in the
branch of the listeners. -/
def sosdCloudShutdownNotice (t : Transport) (commRank targetCount : CInt) (myGuid : SosGuid) :
    Option SosBuffer :=
  if Notifies commRank targetCount then
    match t with
    | .socket => do
        let r ← packFields sosBufferInit 0 (shutdownHeader myGuid).fields
        let z ← packFields r.buffer 0 [.i (BitVec.ofNat 32 r.packedBytes)]
        some z.buffer
    | .evpath => do
        let r ← packFields sosBufferInit 0 (shutdownHeader myGuid).fields
        let z ← packFields r.buffer 0 [.i 1, .i (BitVec.ofNat 32 r.packedBytes)]
        some z.buffer
    | .zeromq => do
        let count ← packFields sosBufferInit 0 [.i 1]
        let r ← packFields count.buffer count.offset (shutdownHeader myGuid).fields
        let z ← packFields r.buffer 0 [.i 1, .i (BitVec.ofNat 32 r.packedBytes)]
        some z.buffer
  else none

/-- The wrapping in `SOSD_cloud_handle_triggerpull`: the message copied into
a buffer grown by `growAmount`, and its size packed over its start. -/
def wrapTrigger (growAmount : ℤ) (msg : SosBuffer) : Option SosBuffer := do
  let wrapped ← bufferOfSize (msg.len + 4 + 1)
  let wrapped ← sosBufferGrow wrapped growAmount.toNat
  let data ← Mem.load msg.data 0 msg.len.toNat
  let wrapped ← wrapped.store 0 data
  let z ← packFields (wrapped.setLen msg.len) 0 [.i (BitVec.ofInt 32 msg.len)]
  some z.buffer

/-- `SOSD_cloud_handle_triggerpull` of an aggregator: the message it sends to
its listeners. -/
def sosdCloudHandleTriggerpull (t : Transport) (msg : SosBuffer) : Option SosBuffer :=
  match t with
  | .socket => wrapTrigger (msg.len + 1) msg
  | .evpath => wrapTrigger (msg.len + 1) msg
  | .zeromq => wrapTrigger msg.len msg

/-! ## The transports -/

/-- The bytes a transport is handed: `len` of them, from `data` on. -/
def submitted (b : SosBuffer) : Option (List Byte) :=
  if 0 ≤ b.len then Mem.load b.data 0 b.len.toNat else none

/-- `SOS_target_recv_msg`, of a message that is there for `recv` to return as
much of as it asks for. -/
def sosTargetRecvMsg (reply : SosBuffer) (sent : List Byte) : Option SosBuffer := do
  let first := sent.take reply.max
  let reply ← reply.store 0 first
  if first.length < headerSize then none
  else
    let (header, _) ← sosMsgUnzip reply 0
    let size := header.msgSize.toInt
    if size > first.length then
      let reply ← if size > reply.max then sosBufferGrow reply (1 + (size - reply.max)).toNat
        else some reply
      let rest := (sent.drop first.length).take (size - first.length).toNat
      let reply ← reply.store first.length rest
      if first.length + rest.length < size then none
      else some (reply.setLen (first.length + rest.length : ℕ))
    else some (reply.setLen first.length)

/-- **Delivery**: what the receiving daemon hands to its handler. The socket's
listen loop receives into one buffer, its `inlet`, again and again; the
others make a buffer of one byte more than arrived. -/
def deliver (t : Transport) (inlet : SosBuffer) (sent : List Byte) : Option SosBuffer :=
  match t with
  | .socket => sosTargetRecvMsg (sosBufferWipe inlet) sent
  | .evpath => (bufferOfSize (sent.length + 1)).bind fun b => b.store 0 sent
  | .zeromq => (bufferOfSize (sent.length + 1)).bind fun b => b.store 0 sent

/-! ## The handlers -/

/-- Where a handler sends a message. -/
inductive Handling where
  | localQueue
  | registration
  | shutdown
  | triggerpull
  | ack
  | unknown
deriving DecidableEq

/-- The `switch` on the type of a message. -/
def handlingOf (msgType : CInt) : Handling :=
  if msgType = MsgType.announce.code ∨ msgType = MsgType.publish.code ∨
    msgType = MsgType.valSnaps.code then .localQueue
  else if msgType = MsgType.register.code then .registration
  else if msgType = MsgType.shutdown.code then .shutdown
  else if msgType = MsgType.triggerpull.code then .triggerpull
  else if msgType = MsgType.ack.code then .ack
  else .unknown

/-- What a handler took out of the bytes: the header it read, the message it
copied, and where that goes. -/
structure Handled where
  header : SosMsgHeader
  msg : SosBuffer
  handling : Handling

/-- `SOSD_cloud_process_buffer`, and `SOSD_evpath_message_handler`, which
unpacks the header itself: the header is read, and `msg_size` bytes from
the start of the buffer are copied. -/
def sosdCloudProcessBuffer (buffer : SosBuffer) : Option Handled := do
  let (header, _) ← sosMsgUnzip buffer 0
  let msg ← bufferOfSize (1 + header.msgSize.toInt)
  -- a negative size is a `size_t` no object has
  if header.msgSize.toInt < 0 then none
  else
    let data ← Mem.load buffer.data 0 header.msgSize.toInt.toNat
    let msg ← msg.store 0 data
    some ⟨header, msg.setLen header.msgSize.toInt, handlingOf header.msgType⟩

/-! ## What is to be understood -/

/-- **A trigger as an aggregator receives it**: a TRIGGERPULL of the size its
header says, with any body. -/
structure TriggerMsg where
  buffer : SosBuffer
  msgFrom : SosGuid
  refGuid : SosGuid
  body : List Byte
  len_eq : buffer.len = (headerSize + body.length : ℕ)
  le_max : headerSize + body.length ≤ buffer.max
  holds : Holds buffer.data 0 ((SosMsgHeader.mk (BitVec.ofInt 32 buffer.len)
    MsgType.triggerpull.code msgFrom refGuid).enc ++ body)

/-- **The control messages**, by what they are built from. -/
inductive ControlMsg where
  | shutdownNotice (commRank targetCount : CInt) (myGuid : SosGuid)
  | registrationAck (commRank : CInt)
  | triggerpull (msg : TriggerMsg)

namespace ControlMsg

/-- What the sender builds. -/
def build (t : Transport) : ControlMsg → Option SosBuffer
  | shutdownNotice commRank targetCount myGuid =>
      sosdCloudShutdownNotice t commRank targetCount myGuid
  | registrationAck commRank => SosFlow.registrationAck commRank
  | triggerpull msg => sosdCloudHandleTriggerpull t msg.buffer

/-- The type the sender gives it. -/
def msgType : ControlMsg → CInt
  | shutdownNotice .. => MsgType.shutdown.code
  | registrationAck _ => MsgType.ack.code
  | triggerpull _ => MsgType.triggerpull.code

/-- **The message is understood**: its receiver dispatches on the type the
sender gave it, reads the number of bytes that were sent as its size, and
copies those bytes out. -/
def Understood (t : Transport) (c : ControlMsg) : Prop :=
  ∀ sent ∈ c.build t, ∀ inlet : SosBuffer, sosDefaultBufferMax ≤ inlet.max →
    ∃ bytes ∈ submitted sent, ∃ buffer ∈ deliver t inlet bytes,
      ∃ h ∈ sosdCloudProcessBuffer buffer,
        h.header.msgType = c.msgType ∧ h.header.msgSize.toInt = bytes.length ∧
        submitted h.msg = some bytes

end ControlMsg

/-! ## Messages that are understood -/

variable {b : SosBuffer} {header : SosMsgHeader} {body bytes : List Byte}

omit [DoubleCodec] in
/-- A store into a buffer that has room. -/
theorem SosBuffer.store_of_le (p : ℕ) (xs : List Byte) (h : p + xs.length ≤ b.max) :
    ∃ b', b.store p xs = some b' ∧ Mem.store b.data p xs = some b'.data ∧ b'.len = b.len ∧
      b'.max = b.max := by
  have hstore := Mem.store_eq h
  have hlen := Mem.length_store hstore
  exact ⟨⟨_, b.len, hlen ▸ b.max_le⟩, SosBuffer.store_of_mem hstore rfl, hstore, rfl, hlen⟩

omit [DoubleCodec] in
/-- A size as it is read back from the wire. -/
theorem toInt_ofNat_of_le {n : ℕ} (h : n ≤ intMax) : (BitVec.ofNat 32 n : CInt).toInt = n :=
  toInt_of_le h

/-- **A handler takes out what arrived**, when that begins with a header of its
size. -/
theorem process_of_holds (hbytes : bytes = header.enc ++ body)
    (hsize : header.msgSize = BitVec.ofNat 32 bytes.length) (hle : bytes.length + 1 ≤ intMax)
    (hholds : Holds b.data 0 bytes) (hmax : bytes.length ≤ b.max) :
    ∃ h, sosdCloudProcessBuffer b = some h ∧ h.header = header ∧
      h.header.msgSize.toInt = bytes.length ∧ submitted h.msg = some bytes := by
  have hheader : headerSize ≤ bytes.length := by
    rw [hbytes, List.length_append, SosMsgHeader.length_enc]
    omega
  have hread := sosMsgUnzip_of_holds (hheader.trans hmax)
    (Mem.holds_append.mp (hbytes ▸ hholds)).1
  have hint : header.msgSize.toInt = bytes.length := by
    rw [hsize]
    exact toInt_ofNat_of_le (by omega)
  obtain ⟨msg, hmsg⟩ := bufferOfSize_eq (1 + header.msgSize.toInt) (by rw [hint]; omega)
  obtain ⟨hcap, _, _⟩ := bufferOfSize_some hmsg
  rw [hint] at hcap
  obtain ⟨msg', hstore, hmem, _, hmax'⟩ := SosBuffer.store_of_le (b := msg) 0 bytes (by omega)
  have hload := Mem.load_of_holds hholds (by rw [Nat.zero_add]; exact hmax)
  refine ⟨⟨header, msg'.setLen header.msgSize.toInt, handlingOf header.msgType⟩, ?_, rfl, hint, ?_⟩
  · have hpos : ¬ header.msgSize.toInt < 0 := by rw [hint]; omega
    rw [sosdCloudProcessBuffer, hread]
    simp only [Option.bind_eq_bind, Option.bind_some, hmsg, if_neg hpos]
    rw [hint, Int.toNat_natCast, hload]
    simp only [Option.bind_some, hstore]
  · have hback := Mem.load_of_holds (Mem.holds_of_store hmem) (by
      rw [Nat.zero_add]
      change bytes.length ≤ msg'.max
      omega)
    rw [submitted, SosBuffer.setLen_len, hint, if_pos (Int.natCast_nonneg _), Int.toNat_natCast]
    exact hback

/-- What a socket receives in one piece. -/
theorem sosTargetRecvMsg_short (hbytes : bytes = header.enc ++ body)
    (hsize : header.msgSize = BitVec.ofNat 32 bytes.length) (hmax : bytes.length ≤ b.max) :
    ∃ r, sosTargetRecvMsg b bytes = some r ∧ Holds r.data 0 bytes ∧ bytes.length ≤ r.max ∧
      r.len = bytes.length := by
  have hle := b.max_le_intMax
  have hheader : headerSize ≤ bytes.length := by
    rw [hbytes, List.length_append, SosMsgHeader.length_enc]
    omega
  obtain ⟨b', hstore, hmem, _, hmax'⟩ := SosBuffer.store_of_le (b := b) 0 bytes
    (by omega)
  have hholds := Mem.holds_of_store hmem
  have hread := sosMsgUnzip_of_holds (b := b') (by omega)
    (Mem.holds_append.mp (hbytes ▸ hholds)).1
  have hint : header.msgSize.toInt = bytes.length := by
    rw [hsize]
    exact toInt_ofNat_of_le (by omega)
  have htake : bytes.take b.max = bytes := List.take_of_length_le hmax
  refine ⟨b'.setLen bytes.length, ?_, hholds, by rw [SosBuffer.setLen_max]; omega, rfl⟩
  rw [sosTargetRecvMsg]
  simp only [Option.bind_eq_bind, htake, hstore, Option.bind_some, hread, hint,
    if_neg (Nat.not_lt.mpr hheader), gt_iff_lt, lt_irrefl, if_false]

/-- What a socket receives in two pieces, the buffer grown between them. -/
theorem sosTargetRecvMsg_long (hbytes : bytes = header.enc ++ body)
    (hsize : header.msgSize = BitVec.ofNat 32 bytes.length) (hle : bytes.length + 2 ≤ intMax)
    (hroom : headerSize ≤ b.max) (hmax : b.max < bytes.length) :
    ∃ r, sosTargetRecvMsg b bytes = some r ∧ Holds r.data 0 bytes ∧ bytes.length ≤ r.max ∧
      r.len = bytes.length := by
  have hfirst : (bytes.take b.max).length = b.max := by rw [List.length_take]; omega
  obtain ⟨b₁, hstore₁, hmem₁, _, hmax₁⟩ :=
    SosBuffer.store_of_le (b := b) 0 (bytes.take b.max) (by omega)
  have hholds₁ := Mem.holds_of_store hmem₁
  have henc : bytes.take b.max = header.enc ++ body.take (b.max - headerSize) := by
    rw [hbytes, List.take_append, List.take_of_length_le (by simpa using hroom),
      SosMsgHeader.length_enc]
  have hread := sosMsgUnzip_of_holds (b := b₁) (by omega)
    (Mem.holds_append.mp (henc ▸ hholds₁)).1
  have hint : header.msgSize.toInt = bytes.length := by
    rw [hsize]
    exact toInt_ofNat_of_le (by omega)
  have hamount : (1 + ((bytes.length : ℤ) - b₁.max)).toNat = 1 + (bytes.length - b.max) := by
    omega
  obtain ⟨b₂, hgrow⟩ := sosBufferGrow_eq (b := b₁) (n := 1 + (bytes.length - b.max)) (by omega)
  obtain ⟨hdata₂, _, hmax₂⟩ := sosBufferGrow_some hgrow
  have hrest : (bytes.drop b.max).take ((bytes.length : ℤ) - b.max).toNat = bytes.drop b.max :=
    List.take_of_length_le (by rw [List.length_drop]; omega)
  have hlenrest : (bytes.drop b.max).length = bytes.length - b.max := List.length_drop
  obtain ⟨b₃, hstore₃, hmem₃, _, hmax₃⟩ :=
    SosBuffer.store_of_le (b := b₂) b.max (bytes.drop b.max) (by omega)
  -- the first piece is still there when the second is stored behind it
  have hkept : Holds b₃.data 0 (bytes.take b.max) := by
    have hold := hholds₁.append_right (Nat.zero_le _) (List.replicate (1 + (bytes.length - b.max) + 1) 0)
    rw [← hdata₂] at hold
    exact hold.store_above hmem₃ (by omega)
  have hall : Holds b₃.data 0 bytes := by
    rw [← List.take_append_drop b.max bytes, Mem.holds_append, hfirst, Nat.zero_add]
    exact ⟨hkept, Mem.holds_of_store hmem₃⟩
  refine ⟨b₃.setLen (b.max + (bytes.length - b.max) : ℕ), ?_, hall, by
    rw [SosBuffer.setLen_max]; omega, by rw [SosBuffer.setLen_len]; omega⟩
  rw [sosTargetRecvMsg]
  simp only [Option.bind_eq_bind, hstore₁, Option.bind_some, hread, hint, hfirst,
    if_neg (Nat.not_lt.mpr hroom)]
  rw [if_pos (by exact_mod_cast hmax), if_pos (by rw [hmax₁]; exact_mod_cast hmax), hamount, hgrow]
  simp only [Option.bind_some, hrest, hstore₃, hlenrest]
  rw [if_neg (by omega)]

/-- **Every transport delivers** what begins with a header of its size. -/
theorem deliver_of_framed (t : Transport) {inlet : SosBuffer}
    (hinlet : sosDefaultBufferMax ≤ inlet.max) (hbytes : bytes = header.enc ++ body)
    (hsize : header.msgSize = BitVec.ofNat 32 bytes.length) (hle : bytes.length + 2 ≤ intMax) :
    ∃ buffer, deliver t inlet bytes = some buffer ∧ Holds buffer.data 0 bytes ∧
      bytes.length ≤ buffer.max := by
  have hown : ∃ buffer, (bufferOfSize (bytes.length + 1)).bind (fun b => b.store 0 bytes) =
      some buffer ∧ Holds buffer.data 0 bytes ∧ bytes.length ≤ buffer.max := by
    obtain ⟨b₀, hb₀⟩ := bufferOfSize_eq (bytes.length + 1) (by omega)
    obtain ⟨hcap, _, _⟩ := bufferOfSize_some hb₀
    obtain ⟨b', hstore, hmem, _, hmax'⟩ := SosBuffer.store_of_le (b := b₀) 0 bytes
      (by omega)
    exact ⟨b', by rw [hb₀, Option.bind_some, hstore], Mem.holds_of_store hmem, by omega⟩
  cases t with
  | evpath => exact hown
  | zeromq => exact hown
  | socket =>
      have hwiped : (sosBufferWipe inlet).max = inlet.max := List.length_replicate
      by_cases hfit : bytes.length ≤ inlet.max
      · obtain ⟨r, hr, hholds, hmax, -⟩ := sosTargetRecvMsg_short (b := sosBufferWipe inlet) hbytes
          hsize (by omega)
        exact ⟨r, hr, hholds, hmax⟩
      · unfold sosDefaultBufferMax at hinlet
        obtain ⟨r, hr, hholds, hmax, -⟩ := sosTargetRecvMsg_long (b := sosBufferWipe inlet) hbytes
          hsize hle (by unfold headerSize; omega) (by omega)
        exact ⟨r, hr, hholds, hmax⟩

/-- **A message is understood when it is sent with a header of its size.** -/
theorem ControlMsg.understood_of_header {t : Transport} {c : ControlMsg}
    (h : ∀ sent, c.build t = some sent → ∃ (header : SosMsgHeader) (body : List Byte),
      header.msgType = c.msgType ∧
      header.msgSize = BitVec.ofInt 32 sent.len ∧ sent.len = (headerSize + body.length : ℕ) ∧
      headerSize + body.length + 2 ≤ intMax ∧ headerSize + body.length ≤ sent.max ∧
      Holds sent.data 0 (header.enc ++ body)) : c.Understood t := by
  intro sent hbuild inlet hinlet
  obtain ⟨header, body, htype, hsize, hlen, hle, hmax, hholds⟩ := h sent hbuild
  have hcount : (header.enc ++ body).length = headerSize + body.length := by
    rw [List.length_append, SosMsgHeader.length_enc]
  have hsent : submitted sent = some (header.enc ++ body) := by
    rw [submitted, hlen, if_pos (Int.natCast_nonneg _), Int.toNat_natCast, ← hcount]
    exact Mem.load_of_holds hholds (by rw [hcount, Nat.zero_add]; exact hmax)
  rw [hlen, BitVec.ofInt_natCast, ← hcount] at hsize
  obtain ⟨buffer, hdeliver, hholds', hmax'⟩ := deliver_of_framed t hinlet rfl hsize
    (by rw [hcount]; exact hle)
  obtain ⟨handled, hprocess, hheader, hint, hcopy⟩ := process_of_holds rfl hsize
    (by rw [hcount]; omega) hholds' hmax'
  exact ⟨_, hsent, buffer, hdeliver, handled, hprocess, by rw [hheader, htype], hint, hcopy⟩

/-- A header is its size and what follows it. -/
theorem SosMsgHeader.enc_eq (header : SosMsgHeader) : header.enc =
    packi32 header.msgSize ++
      encAll [.i header.msgType, .g header.msgFrom, .g header.refGuid] :=
  rfl

/-- A size packed over the start of a message goes into its header. -/
theorem holds_of_resize {r : PackResult} {size : CInt} (h : Holds b.data 0 (header.enc ++ body))
    (hpack : PackedAt b 0 (packi32 size) b.max r) :
    Holds r.buffer.data 0 (({ header with msgSize := size } : SosMsgHeader).enc ++ body) := by
  rw [SosMsgHeader.enc_eq, List.append_assoc, Mem.holds_append] at h ⊢
  have hstore := hpack.store
  refine ⟨Mem.holds_of_store hstore, ?_⟩
  rw [length_packi32] at h ⊢
  exact h.2.store_below hstore (by rw [length_packi32])

/-- Packing an integer over the start of a buffer. -/
theorem packFields_int (size : CInt) (h : 4 ≤ b.max) :
    ∃ r, packFields b 0 [.i size] = some r ∧ PackedAt b 0 (packi32 size) b.max r :=
  sosBufferPack_of_fits (by simp [Field.IsBlock]) ⟨b.max_le_intMax, h⟩

/-- Packing two integers over the start of a buffer. -/
theorem packFields_two_ints (first second : CInt) (h : 8 ≤ b.max) :
    ∃ r, packFields b 0 [.i first, .i second] = some r ∧
      PackedAt b 0 (packi32 first ++ packi32 second) b.max r :=
  sosBufferPack_of_fits (by simp [Field.IsBlock]) ⟨b.max_le_intMax, h⟩

/-- **A header packed alone and given its size**, as the ACK and the socket's
notice are. -/
theorem header_then_size (header : SosMsgHeader) {fresh : SosBuffer} (hroom : headerSize ≤ fresh.max)
    (hlen : fresh.len = 0) :
    ∃ r z, packFields fresh 0 header.fields = some r ∧ r.offset = headerSize ∧
      r.packedBytes = headerSize ∧
      packFields r.buffer 0 [.i (BitVec.ofNat 32 headerSize)] = some z ∧
      z.buffer.len = headerSize ∧ z.buffer.max = fresh.max ∧
      Holds z.buffer.data 0
        ({ header with msgSize := BitVec.ofNat 32 headerSize } : SosMsgHeader).enc := by
  obtain ⟨r, hpack, hr⟩ := sosMsgZip_start header hroom
  have hmax : r.buffer.max = fresh.max := hr.max
  obtain ⟨z, hsize, hz⟩ := packFields_int (b := r.buffer) (BitVec.ofNat 32 headerSize)
    (by rw [hmax]; unfold headerSize at hroom; omega)
  refine ⟨r, z, hpack, hr.newOffset, hr.packedBytes, hsize, ?_, hz.max.trans hmax, ?_⟩
  · rw [hz.len, hr.len, hlen]
    rfl
  · have hholds : Holds r.buffer.data 0 (header.enc ++ []) := by
      rw [List.append_nil]
      exact hr.holds
    have hresized := holds_of_resize hholds hz
    rwa [List.append_nil] at hresized

/-- What a message that is a header alone shows its receiver. -/
theorem ControlMsg.understood_of_sized {t : Transport} {c : ControlMsg} (header : SosMsgHeader)
    (htype : header.msgType = c.msgType)
    (h : ∀ sent, c.build t = some sent → sent.len = headerSize ∧ headerSize ≤ sent.max ∧
      Holds sent.data 0 ({ header with msgSize := BitVec.ofNat 32 headerSize } : SosMsgHeader).enc) :
    c.Understood t := by
  apply understood_of_header
  intro sent hbuild
  obtain ⟨hlen, hmax, hholds⟩ := h sent hbuild
  refine ⟨{ header with msgSize := BitVec.ofNat 32 headerSize }, [], htype, ?_, hlen, by decide,
    hmax, by rwa [List.append_nil]⟩
  rw [hlen, BitVec.ofInt_natCast]

/-- **The ACK of a registration is understood.** -/
theorem registrationAck_understood (t : Transport) (commRank : CInt) :
    (ControlMsg.registrationAck commRank).Understood t := by
  apply ControlMsg.understood_of_sized ⟨-1, MsgType.ack.code, rankGuid commRank, 0⟩ rfl
  intro sent hbuild
  simp only [ControlMsg.build, registrationAck, Option.bind_eq_bind,
    Option.bind_eq_some_iff] at hbuild
  obtain ⟨reply, hreply, r', hpack', z', hsize', hbuild⟩ := hbuild
  obtain ⟨hcap, hlen, _⟩ := bufferOfSize_some hreply
  have hroom : headerSize ≤ reply.max := by
    unfold headerSize
    omega
  obtain ⟨r, z, hpack, hoff, _, hsize, hlenz, hmaxz, hholds⟩ := header_then_size
    ⟨-1, MsgType.ack.code, rankGuid commRank, 0⟩ hroom hlen
  obtain rfl := Option.some.inj (hpack'.symm.trans hpack)
  rw [hoff] at hsize'
  obtain rfl := Option.some.inj (hsize'.symm.trans hsize)
  obtain rfl := Option.some.inj hbuild
  exact ⟨hlenz, by rw [hmaxz]; exact hroom, hholds⟩

omit [DoubleCodec] in
/-- The buffer a notice is built in. -/
theorem sosBufferInit_max : sosBufferInit.max = sosDefaultBufferMax := List.length_replicate

/-- **Over a socket the notice of a shutdown is understood.** -/
theorem shutdownNotice_understood (commRank targetCount : CInt) (myGuid : SosGuid) :
    (ControlMsg.shutdownNotice commRank targetCount myGuid).Understood .socket := by
  apply ControlMsg.understood_of_sized (shutdownHeader myGuid) rfl
  intro sent hbuild
  have hroom : headerSize ≤ sosBufferInit.max := by
    rw [sosBufferInit_max]
    decide
  obtain ⟨r, z, hpack, _, hpacked, hsize, hlenz, hmaxz, hholds⟩ :=
    header_then_size (shutdownHeader myGuid) hroom rfl
  by_cases hnotify : Notifies commRank targetCount
  · simp only [ControlMsg.build, sosdCloudShutdownNotice, if_pos hnotify, hpack,
      Option.bind_eq_bind, Option.bind_some, hpacked, hsize] at hbuild
    obtain rfl := Option.some.inj hbuild
    exact ⟨hlenz, by rw [hmaxz]; exact hroom, hholds⟩
  · simp only [ControlMsg.build, sosdCloudShutdownNotice, if_neg hnotify] at hbuild
    cases hbuild

/-- **A wrapped message is the message**, its size packed over its size. -/
theorem wrapTrigger_some {growAmount : ℤ} {msg : TriggerMsg} {sent : SosBuffer}
    (h : wrapTrigger growAmount msg.buffer = some sent) :
    sent.len = msg.buffer.len ∧ headerSize + msg.body.length + 2 ≤ intMax ∧
      headerSize + msg.body.length ≤ sent.max ∧
      Holds sent.data 0 ((SosMsgHeader.mk (BitVec.ofInt 32 msg.buffer.len)
        MsgType.triggerpull.code msg.msgFrom msg.refGuid).enc ++ msg.body) := by
  simp only [wrapTrigger, Option.bind_eq_bind, Option.bind_eq_some_iff] at h
  obtain ⟨w₀, hw₀, w₁, hw₁, data, hload, w₂, hw₂, z, hz, h⟩ := h
  obtain rfl := Option.some.inj h
  have hlen := msg.len_eq
  obtain ⟨hcap₀, _, _⟩ := bufferOfSize_some hw₀
  obtain ⟨_, _, hcap₁⟩ := sosBufferGrow_some hw₁
  have hle₁ := w₁.max_le_intMax
  -- the bytes copied are the header and the body
  obtain ⟨_, hcount, hdata⟩ := Mem.load_some hload
  have htoNat : msg.buffer.len.toNat = headerSize + msg.body.length := by
    rw [hlen, Int.toNat_natCast]
  rw [htoNat] at hcount
  obtain rfl := hdata.unique msg.holds (by
    rw [hcount, List.length_append, SosMsgHeader.length_enc])
  obtain ⟨hstore, _⟩ := SosBuffer.store_some hw₂
  have hcap₂ : w₂.max = w₁.max := Mem.length_store hstore
  have hroom : 4 ≤ (w₂.setLen msg.buffer.len).max := by
    rw [SosBuffer.setLen_max]
    omega
  obtain ⟨r, hr, hpacked⟩ := packFields_int (BitVec.ofInt 32 msg.buffer.len) hroom
  obtain rfl := Option.some.inj (hr.symm.trans hz)
  have hheld : Holds (w₂.setLen msg.buffer.len).data 0 _ := Mem.holds_of_store hstore
  have hresized := holds_of_resize hheld hpacked
  refine ⟨?_, by omega, ?_, hresized⟩
  · rw [hpacked.len, SosBuffer.setLen_len, length_packi32, hlen]
    unfold headerSize
    omega
  · rw [hpacked.max, SosBuffer.setLen_max]
    omega

/-- **A trigger an aggregator wraps again is understood.** -/
theorem triggerpull_understood (t : Transport) (msg : TriggerMsg) :
    (ControlMsg.triggerpull msg).Understood t := by
  apply ControlMsg.understood_of_header
  intro sent hbuild
  obtain ⟨growAmount, hwrap⟩ : ∃ growAmount, wrapTrigger growAmount msg.buffer = some sent := by
    cases t with
    | socket => exact ⟨_, hbuild⟩
    | evpath => exact ⟨_, hbuild⟩
    | zeromq => exact ⟨_, hbuild⟩
  obtain ⟨hlen, hle, hmax, hholds⟩ := wrapTrigger_some hwrap
  exact ⟨_, msg.body, rfl, by rw [hlen], hlen.trans msg.len_eq, hle, hmax, hholds⟩

/-! ## The notices that are not -/

/-- **A message that begins with a one is not understood** where the handler
reads the one as its size. -/
theorem ControlMsg.not_understood_of_one {t : Transport} {c : ControlMsg} {sent : SosBuffer}
    (ht : t ≠ .socket) (hbuild : c.build t = some sent) (hlen : 4 ≤ sent.len)
    (hone : Holds sent.data 0 (packi32 1)) : ¬ c.Understood t := by
  intro h
  obtain ⟨bytes, hbytes, buffer, hdeliver, handled, hprocess, _, hsize, _⟩ :=
    h sent hbuild sosBufferInit (by rw [sosBufferInit_max])
  have hload : Mem.load sent.data 0 sent.len.toNat = some bytes :=
    (if_pos (by omega)).symm.trans hbytes
  obtain ⟨_, hcount, hholds⟩ := Mem.load_some hload
  have hstart : packi32 1 <+: bytes :=
    List.prefix_of_prefix_length_le hone hholds (by rw [length_packi32]; omega)
  -- the bytes arrive as they were sent
  have hown : (bufferOfSize (bytes.length + 1)).bind (fun b => b.store 0 bytes) = some buffer := by
    cases t with
    | socket => exact absurd rfl ht
    | evpath => exact hdeliver
    | zeromq => exact hdeliver
  obtain ⟨b₀, _, hstore⟩ := Option.bind_eq_some_iff.mp hown
  have harrived := Mem.holds_of_store (SosBuffer.store_some hstore).1
  have hfour : Holds buffer.data 0 (packi32 1) := hstart.trans harrived
  have hpos : 0 < buffer.max := by
    have hbound := hfour.bound (List.ne_nil_of_length_pos (by rw [length_packi32]; decide))
    rw [length_packi32] at hbound
    exact lt_of_lt_of_le (by decide) hbound
  -- and the handler reads them as a size
  simp only [sosdCloudProcessBuffer, Option.bind_eq_bind, Option.mem_def,
    Option.bind_eq_some_iff] at hprocess
  obtain ⟨⟨header, offset⟩, hread, msg, _, hprocess⟩ := hprocess
  have hsame : handled.header = header := by
    split at hprocess
    · cases hprocess
    · obtain ⟨_, _, hprocess⟩ := Option.bind_eq_some_iff.mp hprocess
      obtain ⟨_, _, hprocess⟩ := Option.bind_eq_some_iff.mp hprocess
      exact congrArg Handled.header (Option.some.inj hprocess).symm
  have hheld := holds_size_of_header (holds_of_sosMsgUnzip hpos hread)
  have hmsgSize : header.msgSize = 1 :=
    packi32_inj (hheld.unique hfour (by rw [length_packi32, length_packi32]))
  rw [hsame, hmsgSize] at hsize
  change (1 : ℤ) = bytes.length at hsize
  omega

/-- **Over EVPath the notice of a shutdown begins with a one.** -/
theorem evpathNotice_sent {commRank targetCount : CInt} (myGuid : SosGuid)
    (hnotify : Notifies commRank targetCount) :
    ∃ sent, sosdCloudShutdownNotice .evpath commRank targetCount myGuid = some sent ∧
      4 ≤ sent.len ∧ Holds sent.data 0 (packi32 1) := by
  have hroom : headerSize ≤ sosBufferInit.max := by
    rw [sosBufferInit_max]
    decide
  obtain ⟨r, hpack, hr⟩ := sosMsgZip_start (shutdownHeader myGuid) hroom
  obtain ⟨z, hz, hpacked⟩ := packFields_two_ints (b := r.buffer) 1 (BitVec.ofNat 32 r.packedBytes)
    (by rw [hr.max, sosBufferInit_max]; decide)
  refine ⟨z.buffer, ?_, ?_, (Mem.holds_append.mp hpacked.holds).1⟩
  · simp only [sosdCloudShutdownNotice, if_pos hnotify, sosMsgZip] at hpack ⊢
    simp only [hpack, Option.bind_eq_bind, Option.bind_some, hz]
  · rw [hpacked.len, hr.len, SosMsgHeader.length_enc]
    unfold headerSize
    omega

/-- **Over ZeroMQ the notice of a shutdown begins with a one.** -/
theorem zeromqNotice_sent {commRank targetCount : CInt} (myGuid : SosGuid)
    (hnotify : Notifies commRank targetCount) :
    ∃ sent, sosdCloudShutdownNotice .zeromq commRank targetCount myGuid = some sent ∧
      4 ≤ sent.len ∧ Holds sent.data 0 (packi32 1) := by
  obtain ⟨c, hcount, hc⟩ := packFields_int (b := sosBufferInit) 1 (by
    rw [sosBufferInit_max]
    decide)
  have hoff : c.offset = 4 := hc.newOffset
  have hmaxc : c.buffer.max = 4096 := hc.max.trans sosBufferInit_max
  have hfits : Fits c.buffer.max 4 (shutdownHeader myGuid).fields := by
    rw [hmaxc]
    exact ⟨by change 4096 ≤ 2147483647; decide, by change 4 + 24 ≤ 4096; decide⟩
  obtain ⟨r, hpack, hr⟩ := sosBufferPack_of_fits
    (by simp [SosMsgHeader.fields, Field.IsBlock]) hfits
  have hmaxr : r.buffer.max = 4096 := by
    rw [hr.max, hmaxc]
    rfl
  obtain ⟨z, hz, hpacked⟩ := packFields_two_ints (b := r.buffer) 1 (BitVec.ofNat 32 r.packedBytes)
    (by rw [hmaxr]; decide)
  refine ⟨z.buffer, ?_, ?_, (Mem.holds_append.mp hpacked.holds).1⟩
  · have hheader : packFields c.buffer 4 (shutdownHeader myGuid).fields = some r := hpack
    simp only [sosdCloudShutdownNotice, if_pos hnotify, hcount, Option.bind_eq_bind,
      Option.bind_some, hoff, hheader, hz]
  · rw [hpacked.len, hr.len]
    omega

/-- **Which control messages are understood**: all of them, but for the notice
of a shutdown over EVPath and ZeroMQ. -/
theorem ControlMsg.understood_iff (t : Transport) (c : ControlMsg) :
    c.Understood t ↔ ∀ commRank targetCount myGuid,
      c = .shutdownNotice commRank targetCount myGuid → Notifies commRank targetCount →
        t = .socket := by
  cases c with
  | registrationAck commRank =>
      exact ⟨fun _ _ _ _ h => (by cases h), fun _ => registrationAck_understood t commRank⟩
  | triggerpull msg => exact ⟨fun _ _ _ _ h => (by cases h), fun _ => triggerpull_understood t msg⟩
  | shutdownNotice commRank targetCount myGuid =>
      constructor
      · intro h _ _ _ heq hnotify
        cases heq
        cases t with
        | socket => rfl
        | evpath =>
            obtain ⟨sent, hbuild, hlen, hone⟩ := evpathNotice_sent myGuid hnotify
            exact absurd h (not_understood_of_one (by decide) hbuild hlen hone)
        | zeromq =>
            obtain ⟨sent, hbuild, hlen, hone⟩ := zeromqNotice_sent myGuid hnotify
            exact absurd h (not_understood_of_one (by decide) hbuild hlen hone)
      · intro h
        by_cases hnotify : Notifies commRank targetCount
        · obtain rfl := h commRank targetCount myGuid rfl hnotify
          exact shutdownNotice_understood commRank targetCount myGuid
        · intro sent hbuild
          simp only [build, sosdCloudShutdownNotice, if_neg hnotify] at hbuild
          cases hbuild

end

/-- **Two notices that are not understood**, of rank 0 where there is one aggregator. -/
theorem not_understood :
    letI := DoubleCodec.bits
    ¬ (ControlMsg.shutdownNotice 0 1 7).Understood .evpath ∧
      ¬ (ControlMsg.shutdownNotice 0 1 7).Understood .zeromq := by
  let _ := DoubleCodec.bits
  have hnotify : Notifies 0 1 := by decide
  constructor
  · obtain ⟨sent, hbuild, hlen, hone⟩ := evpathNotice_sent 7 hnotify
    exact ControlMsg.not_understood_of_one (by decide) hbuild hlen hone
  · obtain ⟨sent, hbuild, hlen, hone⟩ := zeromqNotice_sent 7 hnotify
    exact ControlMsg.not_understood_of_one (by decide) hbuild hlen hone

end SosFlow
