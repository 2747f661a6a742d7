import SosFlow.Msg.Cloud
import SosFlow.Daemon.Wire

/-!
# A trigger on its way to a daemon

`SOS_sense_trigger` packs a handle, the length of some data, and the data, as
a C string: what goes out ends at the first zero byte, wherever that is. A
daemon takes the three apart again, after an aggregator may have wrapped the
message for its listeners, which leaves it as it was.

A message that does not fit its buffer goes out restarted, with the data at
the place of the handle. What a daemon then reads as the handle is longer
than the one that was meant.
-/

namespace SosFlow

open Mem (Holds)

/-! ## The client -/

/-- **A trigger as a client pulls it**: a block of `dataLength` bytes, in what `data`
reaches up to the end of its allocation. -/
structure Trigger where
  myGuid : SosGuid
  handle : CString
  memory : List Byte
  dataLength : ℕ
  pos : 1 ≤ dataLength
  le_memory : dataLength ≤ memory.length
  le_int : dataLength ≤ intMax

namespace Trigger

variable (t : Trigger)

/-- The block. -/
def block : List Byte := t.memory.take t.dataLength

/-- The string that `SOS_buffer_pack` takes the data for. -/
def string : CString := .ofBytes t.memory

/-- What it packs of that. -/
def data : CString := t.string.clip

/-- The message. -/
def layout : Layout := sosSenseTrigger t.myGuid t.handle t.string (intOf t.dataLength)

/-- The message as it is packed. -/
def packed : Layout := sosSenseTrigger t.myGuid t.handle.clip t.data (intOf t.dataLength)

/-- Its body. -/
def fields : List Field := [.s t.handle.clip, .i (intOf t.dataLength), .s t.data]

/-- How many bytes it has. -/
def size : ℕ := headerSize + sizeOf' t.fields

/-- Its header. -/
def header : SosMsgHeader := ⟨BitVec.ofNat 32 t.size, MsgType.triggerpull.code, t.myGuid, 0⟩

/-- **`SOS_sense_trigger`**, with the bytes it hands to the socket. A string that does
not end reads past its allocation. -/
def send [DoubleCodec] : Option (List Byte) :=
  if 0 ∈ t.memory then t.layout.build.bind fun m => submitted m.buffer else none

end Trigger

/-! ## The daemons -/

/-- **A buffer that a socket receives into** again and again: it is made with
`SOS_DEFAULT_BUFFER_MAX` bytes, and only grows. -/
structure Inlet where
  buffer : SosBuffer
  le_max : sosDefaultBufferMax ≤ buffer.max

/-- `SOSD_feedback_payload`. -/
structure SosdFeedbackPayload where
  handle : CString
  size : CInt
  data : List Byte

section

variable [DoubleCodec]

/-- The wiped buffer behind a `SOS_target_recv_msg`. -/
def Inlet.recv (inlet : Inlet) (sent : List Byte) : Option SosBuffer :=
  sosTargetRecvMsg (sosBufferWipe inlet.buffer) sent

/-- One `SOS_buffer_unpack` of an `int`. -/
def unpackInt (b : SosBuffer) (offset : ℕ) : Option (CInt × SosBuffer × ℕ) :=
  (sosBufferUnpack b offset ['i']).bind fun u => match u.outs with
    | [some (.int i)] => some (i, u.buffer, u.offset)
    | _ => none

/-- **`SOS_buffer_unpack_safestr`**: a string in memory that has one zero byte more
than its length. The `calloc` of a negative one fails. -/
def sosBufferUnpackSafestr (b : SosBuffer) (offset : ℕ) : Option (List Byte × SosBuffer × ℕ) := do
  let (strLength, b, _) ← unpackInt b offset
  let u ← sosBufferUnpack b offset ['s']
  match u.outs with
  | [some (.str copied)] =>
    if strLength.toInt < 0 then none else some (copied ++ [0], u.buffer, u.offset)
  | _ => none

/-- The payload `SOSD_cloud_handle_triggerpull` puts into the queue of the feedback
thread. -/
def triggerPayload (msg : SosBuffer) : Option SosdFeedbackPayload := do
  let (_, offset) ← sosMsgUnzip msg 0
  let (handle, b, offset) ← sosBufferUnpackSafestr msg offset
  let (messageLen, b, offset) ← unpackInt b offset
  let (message, _, _) ← sosBufferUnpackSafestr b offset
  some ⟨.ofBytes handle, messageLen, message⟩

/-- **`SOSD_handle_triggerpull`** of an aggregator: the message for its listeners, and
the payload. -/
def wrapAndTrigger (msg : SosBuffer) : Option (SosBuffer × SosdFeedbackPayload) := do
  let wrapped ← sosdCloudHandleTriggerpull .socket msg
  let payload ← triggerPayload msg
  some (wrapped, payload)

/-- A message that the listen loop dispatches to it. -/
def listened (msg : SosBuffer) : Option SosBuffer := do
  let (header, _) ← sosMsgUnzip msg 0
  if header.msgType = MsgType.triggerpull.code then some msg else none

/-- **How the message comes to a daemon**: from the client, to an aggregator with
listeners or to a daemon that has none, or from an aggregator to a listener. -/
inductive Route where
  | direct (inlet : Inlet)
  | aggregator (inlet : Inlet)
  | relayed (inlet inlet' : Inlet)

/-- The payload of that daemon. -/
def Route.payload (sent : List Byte) : Route → Option SosdFeedbackPayload
  | direct inlet => (inlet.recv sent).bind fun b => (listened b).bind triggerPayload
  | aggregator inlet =>
    (inlet.recv sent).bind fun b => (listened b).bind fun msg => (wrapAndTrigger msg).map Prod.snd
  | relayed inlet inlet' => do
    let b ← inlet.recv sent
    let msg ← listened b
    let (wrapped, _) ← wrapAndTrigger msg
    let bytes ← submitted wrapped
    let b' ← inlet'.recv bytes
    let h ← sosdCloudProcessBuffer b'
    if h.handling = .triggerpull then triggerPayload h.msg else none

end

/-- **There is room to receive** that many bytes: at once, or when the buffer has grown. -/
def Inlet.Receives (inlet : Inlet) (size : ℕ) : Prop :=
  size ≤ inlet.buffer.max ∨ size + 2 ≤ intMax

/-- The wrapped message has room, in a buffer that is grown by as much again. -/
def Wraps (size : ℕ) : Prop := 2 * size + 7 ≤ intMax

/-- **The way has room** for a message of that many bytes. -/
def Route.Carries (size : ℕ) : Route → Prop
  | direct inlet => inlet.Receives size
  | aggregator inlet => inlet.Receives size ∧ Wraps size
  | relayed inlet inlet' => inlet.Receives size ∧ Wraps size ∧ inlet'.Receives size

instance (inlet : Inlet) (size : ℕ) : Decidable (inlet.Receives size) := by
  unfold Inlet.Receives
  infer_instance

instance (size : ℕ) : Decidable (Wraps size) := by
  unfold Wraps
  infer_instance

instance (route : Route) (size : ℕ) : Decidable (route.Carries size) := by
  cases route <;> unfold Route.Carries <;> infer_instance

/-- **A buffer with a message** in it, as it was received. -/
structure Shows (msg : SosBuffer) (bytes : List Byte) : Prop where
  holds : Holds msg.data 0 bytes
  le_max : bytes.length ≤ msg.max
  len : msg.len = bytes.length

section

variable [DoubleCodec] {header : SosMsgHeader} {body bytes : List Byte}

/-! ## Sending -/

/-- **How a handle, a length and a string are packed**: all of them fit, or the
growth for the string restarts the call, and the string is where the handle
should be. -/
theorem packFields_two_strings {b : SosBuffer} {offset : ℕ} {handle data : CString} {length : CInt}
    {r : PackResult} (hhandle : handle.length ≤ intMax) (hdata : data.length ≤ intMax)
    (hpack : packFields b offset [.s handle, .i length, .s data] = some r) :
    Fits b.max offset [.s handle, .i length, .s data] ∨
      handle.length < data.length ∧ Holds r.buffer.data offset (Field.s data).enc := by
  have hblock : ∀ f ∈ [Field.s handle, .i length, .s data], ¬ f.IsBlock := by
    simp [Field.IsBlock]
  have hshort : ∀ f ∈ [Field.s handle, .i length, .s data], f.Short := by
    simp [Field.Short, hhandle, hdata]
  obtain ⟨b₁, st, hgrow, hloop, hheld, -⟩ := sosBufferPack_some hpack
  rw [packLoop_fields hblock hshort rfl] at hloop
  obtain ⟨st₁, hfirst, hloop⟩ := Option.bind_eq_some_iff.mp hloop
  obtain ⟨st₂, hsecond, hloop⟩ := Option.bind_eq_some_iff.mp hloop
  obtain ⟨st₃, hthird, hloop⟩ := Option.bind_eq_some_iff.mp hloop
  obtain rfl := Option.some.inj hloop
  obtain ⟨b', -, -, -, hput⟩ := putField_first [] hfirst
  have hstart : InPlace offset [] (PackState.mk b' offset 0 0) :=
    ⟨rfl, rfl, Mem.holds_nil, le_trans (Nat.le_add_right _ _) (PackState.put_bound hput)⟩
  have h₂ := (hstart.put hput).put hsecond
  obtain ⟨st', hgrown, hwrite⟩ := Option.bind_eq_some_iff.mp hthird
  rcases PackState.growForString_some hgrown with ⟨-, rfl⟩ | ⟨hfull, b₂, -, rfl⟩
  · refine .inl (fits_of_holds (n := 0) hblock hshort hpack ?_)
    have hall := (h₂.put hwrite).holds
    rw [hheld, List.replicate_zero, List.append_nil]
    simpa [encAll_cons] using hall
  · have hinside := h₂.inside
    simp only [List.nil_append, List.length_append, Field.length_enc, Field.size] at hinside
    refine .inr ⟨by omega, ?_⟩
    rw [hheld]
    exact Mem.holds_of_store (PackState.put_some hwrite).1

namespace Trigger

variable {t : Trigger}

/-- What `strlen` takes for the two strings are counts that are not negative. -/
def Counted (t : Trigger) : Prop := 0 ≤ toInt t.handle.length ∧ 0 ≤ toInt t.string.length

instance (t : Trigger) : Decidable t.Counted := by
  unfold Counted
  infer_instance

/-- **The message is packed as what the lengths leave of its strings.** -/
theorem build_packed (h : t.Counted) : t.layout.build = t.packed.build := by
  have hcounted : ∀ f ∈ [Field.s t.handle, .i (intOf t.dataLength), .s t.string], f.Counted := by
    simpa [Field.Counted, Counted] using h
  have hclip : ∀ b offset,
      packFields b offset [.s t.handle, .i (intOf t.dataLength), .s t.string] =
        packFields b offset t.fields := fun b offset =>
    sosBufferPack_clip (by simp [Field.IsBlock]) hcounted
  have hcalls : ∀ b offset, runCalls b offset t.layout.calls = runCalls b offset t.packed.calls := by
    intro b offset
    exact congrArg (Option.bind · _) (hclip b offset)
  simp only [Layout.build, zipPackZip, hcalls]
  rfl

theorem counted_of_build {m : Built} (h : t.layout.build = some m) : t.Counted := by
  obtain ⟨b, -, hzip⟩ := Layout.build_eq_some.mp h
  obtain ⟨r₁, -, hzip⟩ := Option.bind_eq_some_iff.mp hzip
  obtain ⟨body, hrun, -⟩ := Option.bind_eq_some_iff.mp hzip
  obtain ⟨p, hpack, -⟩ := Option.bind_eq_some_iff.mp hrun
  have hall := counted_of_sosBufferPack (by simp [Field.IsBlock]) hpack
  simpa [Field.Counted, Counted] using hall

omit [DoubleCodec] in
theorem not_isBlock_fields : ∀ f ∈ t.fields, ¬ f.IsBlock := by
  simp [fields, Field.IsBlock]

omit [DoubleCodec] in
theorem short_fields : ∀ f ∈ t.fields, f.Short := by
  simp [fields, Field.Short, CString.length_clip_le, data]

theorem encCalls_packed : encCalls t.packed.calls = encAll t.fields := by
  rw [packed, sosSenseTrigger, encCalls_cons, encCalls_nil, List.append_nil]
  rfl

/-- **A message that fits is sent**, whole. -/
theorem send_of_fits (hends : 0 ∈ t.memory) (hcounted : t.Counted) (hfits : t.packed.Fits) :
    t.send = some (t.header.enc ++ encAll t.fields) := by
  obtain ⟨m, hm, hframed⟩ := Layout.builds_framed_iff.mpr hfits
  have hlen := hframed.len
  have hbytes := hframed.bytes
  rw [encCalls_packed, length_encAll] at hlen
  rw [encCalls_packed, hlen, BitVec.ofInt_natCast] at hbytes
  have hsize : (t.header.enc ++ encAll t.fields).length = headerSize + sizeOf' t.fields := by
    rw [List.length_append, SosMsgHeader.length_enc, length_encAll]
  have hbound := hbytes.bound (List.ne_nil_of_length_pos (by
    rw [List.length_append, SosMsgHeader.length_enc]
    exact Nat.add_pos_left (by decide) _))
  have hload := Mem.load_of_holds hbytes hbound
  rw [List.length_append, SosMsgHeader.length_enc, length_encAll] at hload
  rw [send, if_pos hends, build_packed hcounted, hm, Option.bind_some, submitted, hlen,
    if_pos (Int.natCast_nonneg _), Int.toNat_natCast]
  exact hload

/-- **What is sent**: the message whole, or with the data where the handle should
be. -/
theorem send_some {bytes : List Byte} (h : t.send = some bytes) :
    0 ∈ t.memory ∧ t.Counted ∧ ∃ body, bytes = t.header.enc ++ body ∧ bytes.length = t.size ∧
      t.size ≤ intMax ∧ (t.packed.Fits ∧ body = encAll t.fields ∨
        t.handle.clip.length < t.data.length ∧ (Field.s t.data).enc <+: body) := by
  unfold send at h
  split at h
  case isFalse => cases h
  case isTrue hends =>
    obtain ⟨m, hbuild, hsent⟩ := Option.bind_eq_some_iff.mp h
    have hcounted := counted_of_build hbuild
    rw [build_packed hcounted] at hbuild
    obtain ⟨b, hb, hzip⟩ := Layout.build_eq_some.mp hbuild
    obtain ⟨hmax, hlenb, -⟩ := bufferOfSize_some hb
    have hcalls : t.packed.calls = [.fields t.fields not_isBlock_fields] := rfl
    obtain ⟨b₁, r, hmax₁, hpack, hlen, hheader, hdrop⟩ :=
      zipPackZip_fields hcalls short_fields (by rw [hlenb]; decide) hzip
    rw [submitted, hlen, if_pos (Int.natCast_nonneg _), Int.toNat_natCast] at hsent
    obtain ⟨hbound, hcount, hholds⟩ := Mem.load_some hsent
    have hle := m.buffer.max_le_intMax
    have hfirst : t.header.enc <+: bytes :=
      List.prefix_of_prefix_length_le hheader hholds (by
        rw [SosMsgHeader.length_enc, hcount]
        exact Nat.le_add_right _ _)
    obtain ⟨body, rfl⟩ := hfirst
    refine ⟨hends, hcounted, body, rfl, hcount, by
      unfold size
      rw [Nat.zero_add] at hbound
      exact hbound.trans hle, ?_⟩
    have hbody := (Mem.holds_append.mp hholds).2
    rw [SosMsgHeader.length_enc, Nat.zero_add, Holds, hdrop] at hbody
    change Holds r.buffer.data headerSize body at hbody
    have hbodyLen : body.length = sizeOf' t.fields := by
      rw [List.length_append, SosMsgHeader.length_enc] at hcount
      omega
    rcases packFields_two_strings (CString.length_clip_le _) (CString.length_clip_le _) hpack with
      hfits | ⟨hlt, hlost⟩
    · obtain ⟨r', hr', hat⟩ := sosBufferPack_of_fits (by simp [Field.IsBlock]) hfits
      obtain rfl := Option.some.inj (hr'.symm.trans hpack)
      have hall : body = encAll t.fields :=
        Holds.unique hbody hat.holds (hbodyLen.trans (length_encAll _).symm)
      have hroom : (headerSize : ℤ) ≤ (intOf t.dataLength).toInt + 256 := by
        rw [toInt_intOf t.le_int]
        unfold headerSize
        omega
      refine .inl ⟨⟨hroom, by rw [hmax]; exact_mod_cast b.max_le_intMax, ?_⟩, hall⟩
      rw [hmax, Int.toNat_natCast, ← hmax₁]
      exact ⟨hfits, trivial⟩
    · refine .inr ⟨hlt, List.prefix_of_prefix_length_le hlost hbody ?_⟩
      rw [hbodyLen, Field.length_enc]
      simp only [fields, sizeOf'_cons, sizeOf'_nil]
      unfold data
      omega

end Trigger

/-! ## Receiving -/

/-- What begins with a header of its size is received where there is room. -/
theorem Inlet.recv_returns {inlet : Inlet} (hbytes : bytes = header.enc ++ body)
    (hsize : header.msgSize = BitVec.ofNat 32 bytes.length) (hroom : inlet.Receives bytes.length) :
    ∃ msg, inlet.recv bytes = some msg ∧ Shows msg bytes := by
  have hwiped : (sosBufferWipe inlet.buffer).max = inlet.buffer.max := List.length_replicate
  have hinlet := inlet.le_max
  unfold sosDefaultBufferMax at hinlet
  by_cases hfit : bytes.length ≤ inlet.buffer.max
  · obtain ⟨msg, hmsg, hholds, hmax, hlen⟩ := sosTargetRecvMsg_short (b := sosBufferWipe inlet.buffer)
      hbytes hsize (hwiped ▸ hfit)
    exact ⟨msg, hmsg, hholds, hmax, hlen⟩
  · have hle := hroom.resolve_left hfit
    obtain ⟨msg, hmsg, hholds, hmax, hlen⟩ := sosTargetRecvMsg_long (b := sosBufferWipe inlet.buffer)
      hbytes hsize hle (by unfold headerSize; omega) (by omega)
    exact ⟨msg, hmsg, hholds, hmax, hlen⟩

/-- **What is received had room.** -/
theorem Inlet.recv_some {inlet : Inlet} {msg : SosBuffer} (hbytes : bytes = header.enc ++ body)
    (hsize : header.msgSize = BitVec.ofNat 32 bytes.length) (hle : bytes.length ≤ intMax)
    (h : inlet.recv bytes = some msg) : inlet.Receives bytes.length := by
  by_cases hfit : bytes.length ≤ inlet.buffer.max
  · exact .inl hfit
  · refine .inr ?_
    have hinlet := inlet.le_max
    unfold sosDefaultBufferMax at hinlet
    have hwiped : (sosBufferWipe inlet.buffer).max = inlet.buffer.max := List.length_replicate
    have hfirst : (bytes.take (sosBufferWipe inlet.buffer).max).length = inlet.buffer.max := by
      rw [List.length_take]
      omega
    unfold Inlet.recv sosTargetRecvMsg at h
    obtain ⟨b₁, hstore₁, h⟩ := Option.bind_eq_some_iff.mp h
    obtain ⟨hmem₁, -⟩ := SosBuffer.store_some hstore₁
    have hmax₁ : b₁.max = inlet.buffer.max := (Mem.length_store hmem₁).trans hwiped
    have hread : sosMsgUnzip b₁ 0 = some (header, headerSize) := by
      refine sosMsgUnzip_of_holds (by unfold headerSize; omega) ?_
      have hstart : header.enc <+: bytes.take (sosBufferWipe inlet.buffer).max := by
        rw [hbytes, List.take_append, SosMsgHeader.length_enc,
          List.take_of_length_le (by rw [SosMsgHeader.length_enc]; unfold headerSize; omega)]
        exact List.prefix_append _ _
      exact hstart.trans (Mem.holds_of_store hmem₁)
    have hint : header.msgSize.toInt = bytes.length := by
      rw [hsize]
      exact toInt_ofNat_of_le hle
    have hnot : ¬ (bytes.take (sosBufferWipe inlet.buffer).max).length < headerSize := by
      rw [hfirst]
      unfold headerSize
      omega
    simp only [if_neg hnot, hread, hint, Option.bind_eq_bind, Option.bind_some] at h
    rw [if_pos (by rw [hfirst]; omega), if_pos (by rw [hmax₁]; omega)] at h
    obtain ⟨b₂, hgrow, -⟩ := Option.bind_eq_some_iff.mp h
    have hmax₂ := (sosBufferGrow_some hgrow).2.2
    have hle₂ := b₂.max_le_intMax
    omega

/-! ## Wrapping -/

omit [DoubleCodec] in
/-- A message that is shown is sent on as it is. -/
theorem Shows.submitted {msg : SosBuffer} (h : Shows msg bytes) : submitted msg = some bytes := by
  rw [SosFlow.submitted, h.len, if_pos (Int.natCast_nonneg _), Int.toNat_natCast]
  exact Mem.load_of_holds h.holds (by rw [Nat.zero_add]; exact h.le_max)

omit [DoubleCodec] in
/-- What is sent is shown. -/
theorem shows_of_submitted {msg : SosBuffer} (h : SosFlow.submitted msg = some bytes)
    (hlen : msg.len = bytes.length) : Shows msg bytes := by
  rw [SosFlow.submitted, hlen, if_pos (Int.natCast_nonneg _), Int.toNat_natCast] at h
  obtain ⟨hbound, -, hholds⟩ := Mem.load_some h
  rw [Nat.zero_add] at hbound
  exact ⟨hholds, hbound, hlen⟩

/-- **A message wrapped again is the message**, and there was room for it twice. -/
theorem wrapTrigger_shown {msg w : SosBuffer} (hshows : Shows msg bytes)
    (hbytes : bytes = header.enc ++ body) (hsize : header.msgSize = BitVec.ofNat 32 bytes.length)
    (htype : header.msgType = MsgType.triggerpull.code)
    (h : wrapTrigger (msg.len + 1) msg = some w) : submitted w = some bytes ∧ Wraps bytes.length := by
  have hcount : bytes.length = headerSize + body.length := by
    rw [hbytes, List.length_append, SosMsgHeader.length_enc]
  have hlen := hshows.len
  have hheader : header = ⟨BitVec.ofInt 32 msg.len, MsgType.triggerpull.code, header.msgFrom,
      header.refGuid⟩ := by
    rw [hlen, BitVec.ofInt_natCast, ← hsize, ← htype]
  have hholds := hshows.holds
  rw [hbytes, hheader] at hholds
  let trigger : TriggerMsg := ⟨msg, header.msgFrom, header.refGuid, body,
    hlen.trans (by rw [hcount]), hcount ▸ hshows.le_max, hholds⟩
  have hwrap : wrapTrigger (msg.len + 1) trigger.buffer = some w := h
  obtain ⟨hsent, -, hmax, hheld⟩ := wrapTrigger_some hwrap
  change Holds w.data 0 ((SosMsgHeader.mk (BitVec.ofInt 32 msg.len) MsgType.triggerpull.code
    header.msgFrom header.refGuid).enc ++ body) at hheld
  rw [← hheader, ← hbytes] at hheld
  refine ⟨Shows.submitted ⟨hheld, by rw [hcount]; exact hmax, hsent.trans hlen⟩, ?_⟩
  obtain ⟨w₀, hw₀, h⟩ := Option.bind_eq_some_iff.mp h
  obtain ⟨w₁, hw₁, -⟩ := Option.bind_eq_some_iff.mp h
  have hcap₀ := (bufferOfSize_some hw₀).1
  have hcap₁ := (sosBufferGrow_some hw₁).2.2
  have hle := w₁.max_le_intMax
  unfold Wraps
  omega

/-- A message is wrapped where there is room for it twice. -/
theorem wrapTrigger_returns {msg : SosBuffer} (hshows : Shows msg bytes)
    (hpos : headerSize ≤ bytes.length) (hwraps : Wraps bytes.length) :
    ∃ w, wrapTrigger (msg.len + 1) msg = some w := by
  have hlen := hshows.len
  unfold Wraps at hwraps
  obtain ⟨w₀, hw₀⟩ := bufferOfSize_eq (msg.len + 4 + 1) (by omega)
  have hcap₀ := (bufferOfSize_some hw₀).1
  obtain ⟨w₁, hw₁⟩ := sosBufferGrow_eq (b := w₀) (n := (msg.len + 1).toNat) (by omega)
  have hcap₁ := (sosBufferGrow_some hw₁).2.2
  have hload := Mem.load_of_holds hshows.holds (by rw [Nat.zero_add]; exact hshows.le_max)
  obtain ⟨w₂, hw₂, -, -, hcap₂⟩ := SosBuffer.store_of_le (b := w₁) 0 bytes (by omega)
  obtain ⟨z, hz, -⟩ := packFields_int (b := w₂.setLen msg.len) (BitVec.ofInt 32 msg.len) (by
    rw [SosBuffer.setLen_max, hcap₂]
    unfold headerSize at hpos
    omega)
  refine ⟨z.buffer, ?_⟩
  have htoNat : msg.len.toNat = bytes.length := by rw [hlen, Int.toNat_natCast]
  simp only [wrapTrigger, hw₀, hw₁, htoNat, hload, hw₂, hz, Option.bind_eq_bind, Option.bind_some]

/-! ## Unpacking -/

/-- One `int` is read. -/
theorem unpackInt_of_holds {b : SosBuffer} {offset : ℕ} {i : CInt}
    (hholds : Holds b.data offset (Field.i i).enc) (hin : offset + 4 ≤ b.max) :
    unpackInt b offset = some (i, b, offset + 4) := by
  have hread : sosBufferUnpack b offset ['i'] = some ⟨b, offset + 4, 4, [some (.int i)]⟩ :=
    sosBufferUnpack_one (f := .i i) rfl id trivial hholds hin
  rw [unpackInt, hread, Option.bind_some]

/-- **A string is copied with its terminator.** -/
theorem sosBufferUnpackSafestr_of_holds {b : SosBuffer} {offset : ℕ} {v : CString}
    (hv : v.length ≤ intMax) (hholds : Holds b.data offset (Field.s v).enc)
    (hin : offset + (Field.s v).size ≤ b.max) :
    sosBufferUnpackSafestr b offset = some (v.bytes ++ [0], b, offset + (Field.s v).size) := by
  have hlength : Holds b.data offset (Field.i (intOf v.length)).enc :=
    (Mem.holds_append.mp hholds).1
  have hint := unpackInt_of_holds hlength (by
    rw [Field.size] at hin
    omega)
  have hstr : sosBufferUnpack b offset ['s'] =
      some ⟨b, offset + (Field.s v).size, (Field.s v).size, [some (.str v.bytes)]⟩ :=
    sosBufferUnpack_one (f := .s v) rfl id hv hholds hin
  have hpos : ¬ (intOf v.length).toInt < 0 := by
    rw [toInt_intOf hv]
    omega
  simp only [sosBufferUnpackSafestr, hint, hstr, Option.bind_eq_bind, Option.bind_some,
    if_neg hpos]

omit [DoubleCodec] in
/-- The string in the copy of one. -/
theorem CString.ofBytes_append_zero (v : CString) : ofBytes (v.bytes ++ [0]) = v := by
  refine CString.ext ?_
  have hall : ∀ x ∈ v.bytes, decide (x ≠ 0) = true := fun x hx => decide_eq_true (v.nonzero x hx)
  change (v.bytes ++ [0]).takeWhile (fun x => decide (x ≠ 0)) = v.bytes
  rw [List.takeWhile_append_of_pos hall]
  simp

/-- **The payload has what is at the place of the handle** for its handle. -/
theorem handle_of_triggerPayload {msg : SosBuffer} {v : CString} {p : SosdFeedbackPayload}
    (hshows : Shows msg bytes) (hbytes : bytes = header.enc ++ body) (hv : v.length ≤ intMax)
    (hfirst : (Field.s v).enc <+: body) (h : triggerPayload msg = some p) : p.handle = v := by
  have hholds := hshows.holds
  rw [hbytes, Mem.holds_append, SosMsgHeader.length_enc, Nat.zero_add] at hholds
  have hheld : Holds msg.data headerSize (Field.s v).enc := hfirst.trans hholds.2
  have hcount : (Field.s v).size ≤ body.length := by
    rw [← Field.length_enc]
    exact hfirst.length_le
  have hle := hshows.le_max
  rw [hbytes, List.length_append, SosMsgHeader.length_enc] at hle
  have hread := sosMsgUnzip_of_holds (le_trans (Nat.le_add_right _ _) hle) hholds.1
  have hcopy := sosBufferUnpackSafestr_of_holds hv hheld (by omega)
  simp only [triggerPayload, hread, hcopy, Option.bind_eq_bind, Option.bind_some,
    CString.ofBytes_append_zero] at h
  obtain ⟨_, -, h⟩ := Option.bind_eq_some_iff.mp h
  obtain ⟨_, -, h⟩ := Option.bind_eq_some_iff.mp h
  exact congrArg SosdFeedbackPayload.handle (Option.some.inj h).symm

/-- **The payload of a whole message** has what was packed. -/
theorem triggerPayload_of_whole {msg : SosBuffer} {handle data : CString} {length : CInt}
    (hshows : Shows msg bytes)
    (hbytes : bytes = header.enc ++ encAll [.s handle, .i length, .s data])
    (hhandle : handle.length ≤ intMax) (hdata : data.length ≤ intMax) :
    triggerPayload msg = some ⟨handle, length, data.bytes ++ [0]⟩ := by
  have hholds := hshows.holds
  rw [hbytes, Mem.holds_append, SosMsgHeader.length_enc, Nat.zero_add] at hholds
  obtain ⟨hheader, hbody⟩ := hholds
  rw [encAll_cons, Mem.holds_append, encAll_cons, Mem.holds_append, encAll_cons, encAll_nil,
    List.append_nil, Field.length_enc, Field.length_enc] at hbody
  obtain ⟨hfirst, hsecond, hthird⟩ := hbody
  have hle := hshows.le_max
  rw [hbytes, List.length_append, SosMsgHeader.length_enc, length_encAll, sizeOf'_cons,
    sizeOf'_cons, sizeOf'_cons, sizeOf'_nil] at hle
  have hread := sosMsgUnzip_of_holds (le_trans (Nat.le_add_right _ _) hle) hheader
  have hcopy := sosBufferUnpackSafestr_of_holds hhandle hfirst (by omega)
  have hsize : (Field.i length).size = 4 := rfl
  rw [hsize] at hthird hle
  have hint := unpackInt_of_holds hsecond (by omega)
  have hcopy' := sosBufferUnpackSafestr_of_holds hdata hthird (by omega)
  simp only [triggerPayload, hread, hcopy, hint, hcopy', Option.bind_eq_bind, Option.bind_some,
    CString.ofBytes_append_zero]

/-! ## The way -/

/-- What is received is shown, where there was room. -/
theorem Inlet.recv_shown {inlet : Inlet} {msg : SosBuffer} (hbytes : bytes = header.enc ++ body)
    (hsize : header.msgSize = BitVec.ofNat 32 bytes.length) (hle : bytes.length ≤ intMax)
    (h : inlet.recv bytes = some msg) : inlet.Receives bytes.length ∧ Shows msg bytes := by
  have hroom := Inlet.recv_some hbytes hsize hle h
  obtain ⟨msg', hmsg', hshows⟩ := Inlet.recv_returns hbytes hsize hroom
  obtain rfl := Option.some.inj (hmsg'.symm.trans h)
  exact ⟨hroom, hshows⟩

/-- A trigger is dispatched. -/
theorem listened_of_shown {msg : SosBuffer} (hshows : Shows msg bytes)
    (hbytes : bytes = header.enc ++ body) (htype : header.msgType = MsgType.triggerpull.code) :
    listened msg = some msg := by
  have hholds := hshows.holds
  rw [hbytes, Mem.holds_append] at hholds
  have hle := hshows.le_max
  rw [hbytes, List.length_append, SosMsgHeader.length_enc] at hle
  have hread := sosMsgUnzip_of_holds (le_trans (Nat.le_add_right _ _) hle) hholds.1
  simp only [listened, hread, Option.bind_eq_bind, Option.bind_some, if_pos htype]

/-- A listener takes a trigger out of its buffer. -/
theorem process_shown {b : SosBuffer} (hshows : Shows b bytes) (hbytes : bytes = header.enc ++ body)
    (hsize : header.msgSize = BitVec.ofNat 32 bytes.length) (hle : bytes.length + 1 ≤ intMax)
    (htype : header.msgType = MsgType.triggerpull.code) :
    ∃ h, sosdCloudProcessBuffer b = some h ∧ h.handling = .triggerpull ∧ Shows h.msg bytes := by
  obtain ⟨h, hprocess, hheader, hint, hsent⟩ :=
    process_of_holds hbytes hsize hle hshows.holds hshows.le_max
  obtain ⟨⟨header', offset⟩, -, hparts⟩ := Option.bind_eq_some_iff.mp hprocess
  obtain ⟨msg, -, hparts⟩ := Option.bind_eq_some_iff.mp hparts
  split at hparts
  case isTrue => cases hparts
  case isFalse =>
    obtain ⟨data, -, hparts⟩ := Option.bind_eq_some_iff.mp hparts
    obtain ⟨msg', -, hparts⟩ := Option.bind_eq_some_iff.mp hparts
    obtain rfl := Option.some.inj hparts
    obtain rfl : header' = header := hheader
    refine ⟨_, hprocess, ?_, shows_of_submitted hsent hint⟩
    rw [htype]
    rfl

/-- **Where the way has room**, a trigger comes to the daemon. -/
theorem Route.payload_of_carries {route : Route} {p : SosdFeedbackPayload}
    (hbytes : bytes = header.enc ++ body) (hsize : header.msgSize = BitVec.ofNat 32 bytes.length)
    (htype : header.msgType = MsgType.triggerpull.code) (hcarries : route.Carries bytes.length)
    (hpayload : ∀ msg, Shows msg bytes → triggerPayload msg = some p) :
    route.payload bytes = some p := by
  have hpos : headerSize ≤ bytes.length := by
    rw [hbytes, List.length_append, SosMsgHeader.length_enc]
    exact Nat.le_add_right _ _
  cases route with
  | direct inlet =>
      obtain ⟨b, hb, hshows⟩ := Inlet.recv_returns hbytes hsize hcarries
      rw [Route.payload, hb, Option.bind_some, listened_of_shown hshows hbytes htype,
        Option.bind_some, hpayload b hshows]
  | aggregator inlet =>
      obtain ⟨b, hb, hshows⟩ := Inlet.recv_returns hbytes hsize hcarries.1
      obtain ⟨w, hw⟩ := wrapTrigger_returns hshows hpos hcarries.2
      rw [Route.payload, hb, Option.bind_some, listened_of_shown hshows hbytes htype,
        Option.bind_some]
      simp only [wrapAndTrigger, sosdCloudHandleTriggerpull, hw, hpayload b hshows,
        Option.bind_eq_bind, Option.bind_some, Option.map_some]
  | relayed inlet inlet' =>
      obtain ⟨hroom, hwraps, hroom'⟩ := hcarries
      obtain ⟨b, hb, hshows⟩ := Inlet.recv_returns hbytes hsize hroom
      obtain ⟨w, hw⟩ := wrapTrigger_returns hshows hpos hwraps
      have hsent := (wrapTrigger_shown hshows hbytes hsize htype hw).1
      obtain ⟨b', hb', hshows'⟩ := Inlet.recv_returns hbytes hsize hroom'
      obtain ⟨h, hprocess, hhandling, hmsg⟩ := process_shown hshows' hbytes hsize
        (by unfold Wraps at hwraps; omega) htype
      simp only [Route.payload, hb, listened_of_shown hshows hbytes htype, wrapAndTrigger,
        sosdCloudHandleTriggerpull, hw, hpayload b hshows, hsent, hb', hprocess, if_pos hhandling,
        hpayload h.msg hmsg, Option.bind_eq_bind, Option.bind_some]

/-- **What comes to the daemon had room**, and is the payload of the message. -/
theorem Route.payload_some {route : Route} {p : SosdFeedbackPayload}
    (hbytes : bytes = header.enc ++ body) (hsize : header.msgSize = BitVec.ofNat 32 bytes.length)
    (htype : header.msgType = MsgType.triggerpull.code) (hle : bytes.length ≤ intMax)
    (h : route.payload bytes = some p) :
    route.Carries bytes.length ∧ ∃ msg, Shows msg bytes ∧ triggerPayload msg = some p := by
  cases route with
  | direct inlet =>
      obtain ⟨b, hb, h⟩ := Option.bind_eq_some_iff.mp h
      obtain ⟨hroom, hshows⟩ := Inlet.recv_shown hbytes hsize hle hb
      rw [listened_of_shown hshows hbytes htype, Option.bind_some] at h
      exact ⟨hroom, b, hshows, h⟩
  | aggregator inlet =>
      obtain ⟨b, hb, h⟩ := Option.bind_eq_some_iff.mp h
      obtain ⟨hroom, hshows⟩ := Inlet.recv_shown hbytes hsize hle hb
      rw [listened_of_shown hshows hbytes htype, Option.bind_some] at h
      obtain ⟨⟨w, p'⟩, hwrap, rfl⟩ := Option.map_eq_some_iff.mp h
      obtain ⟨w', hw, h⟩ := Option.bind_eq_some_iff.mp hwrap
      obtain ⟨p'', hp, h⟩ := Option.bind_eq_some_iff.mp h
      obtain ⟨rfl, rfl⟩ := Prod.mk.inj (Option.some.inj h)
      have hwraps := (wrapTrigger_shown hshows hbytes hsize htype hw).2
      exact ⟨⟨hroom, hwraps⟩, b, hshows, hp⟩
  | relayed inlet inlet' =>
      obtain ⟨b, hb, hway⟩ := Option.bind_eq_some_iff.mp h
      obtain ⟨hroom, hshows⟩ := Inlet.recv_shown hbytes hsize hle hb
      simp only [listened_of_shown hshows hbytes htype, Option.bind_eq_bind, Option.bind_some] at hway
      obtain ⟨⟨w, p'⟩, hwrap, hway⟩ := Option.bind_eq_some_iff.mp hway
      obtain ⟨w', hw, hwrap⟩ := Option.bind_eq_some_iff.mp hwrap
      obtain ⟨p'', -, hwrap⟩ := Option.bind_eq_some_iff.mp hwrap
      obtain ⟨rfl, -⟩ := Prod.mk.inj (Option.some.inj hwrap)
      obtain ⟨hsent, hwraps⟩ := wrapTrigger_shown hshows hbytes hsize htype hw
      simp only [hsent, Option.bind_some] at hway
      obtain ⟨b', hb', hway⟩ := Option.bind_eq_some_iff.mp hway
      obtain ⟨hroom', hshows'⟩ := Inlet.recv_shown hbytes hsize hle hb'
      obtain ⟨taken, hprocess, hway⟩ := Option.bind_eq_some_iff.mp hway
      obtain ⟨taken', hprocess', hhandling, hmsg⟩ := process_shown hshows' hbytes hsize
        (by unfold Wraps at hwraps; omega) htype
      obtain rfl := Option.some.inj (hprocess'.symm.trans hprocess)
      rw [if_pos hhandling] at hway
      exact ⟨⟨hroom, hwraps, hroom'⟩, _, hmsg, hway⟩

end

end SosFlow
