import SosFlow.Daemon.TriggerMsg
import SosFlow.Daemon.FanOut

/-!
# A trigger for every client that is sensitive to it

From the daemon a trigger goes to the clients by way of the feedback thread,
which packs the data as a block of the length that came with it, and from
there to the handler of a client. On the whole way the block is carried as a
C string once and as a block once, in buffers of different sizes.
`delivered_iff_deliverable` finds which triggers come through: those whose
block lies in the string with its terminator, in buffers that are grown in
time, if the walk over the sensitivities is not cut short.
-/

namespace SosFlow

open Mem (Holds)
open Linked

/-! ## The feedback thread -/

/-- **The feedback thread** of a daemon, with its delivery buffer: it is made with
`SOS_DEFAULT_REPLY_LEN` bytes, and only grows. -/
structure FeedbackThread where
  commRank : CInt
  delivery : SosBuffer
  le_max : sosDefaultReplyLen ≤ delivery.max

/-- **A call of a client's feedback handler**: the bytes are those in front of the
extra one. -/
structure FeedbackCall where
  payloadType : CInt
  payloadSize : CInt
  payloadData : List Byte
deriving DecidableEq

/-- The bytes `SOS_buffer_pack_bytes` is to pack. It reads none of them for a count
below one. -/
def SosdFeedbackPayload.source (p : SosdFeedbackPayload) : Option (List Byte) :=
  if p.size.toInt < 1 then some [] else Mem.load p.data 0 p.size.toInt.toNat

section

variable [DoubleCodec]

/-- **The delivery of a payload**, with the bytes that go to every client. -/
def FeedbackThread.deliver (thread : FeedbackThread) (p : SosdFeedbackPayload) :
    Option (List Byte) := do
  let source ← p.source
  let m ← zipPackZip (sosBufferWipe thread.delivery)
    (sosdFeedbackPayload thread.commRank thread.delivery.max source)
  submitted m.buffer

/-- **`SOS_THREAD_receives_direct`**, on a message with a payload. The memory for a
negative number of bytes is not there to be copied to. -/
def receivesDirect (inlet : Inlet) (sent : List Byte) : Option FeedbackCall := do
  let b ← inlet.recv sent
  let (header, offset) ← sosMsgUnzip b 0
  let (payloadSize, b, offset) ← unpackInt b offset
  if header.msgType = feedbackTypePayload ∧ 0 ≤ payloadSize.toInt then
    (Mem.load b.data offset payloadSize.toInt.toNat).map (⟨header.msgType, payloadSize, ·⟩)
  else none

end

/-- **A daemon with clients**: the feedback thread, the list of sensitivities, the
outcome a connect has for each entry, and what the client behind it receives
into. -/
structure SensingDaemon (A : Type) where
  thread : FeedbackThread
  mem : Memory A SenseEntry
  senseListHead : Option A
  entries : List (A × SenseEntry)
  list : Segment mem senseListHead entries none
  connects : A → Bool
  clients : A → Inlet

variable {A : Type} [DecidableEq A]

/-- The calls of the handlers of some clients, each for the same message. -/
def callHandlers (handle : A → Option FeedbackCall) : List A → Option (List (A × FeedbackCall))
  | [] => some []
  | a :: clients => do
      let call ← handle a
      let calls ← callHandlers handle clients
      some ((a, call) :: calls)

section

variable [DoubleCodec]

/-- **A trigger from end to end**: from the client that pulls it to the handlers of
those that are sensitive to it. -/
def SensingDaemon.pulled (d : SensingDaemon A) (t : Trigger) (route : Route) :
    Option (List (A × FeedbackCall)) := do
  let sent ← t.send
  let p ← route.payload sent
  let bytes ← d.thread.deliver p
  let s ← feedbackPayload p.handle d.connects d.entries.length d.mem d.senseListHead
  callHandlers (fun a => receivesDirect (d.clients a) bytes) s.sends

/-! ## What a trigger is for -/

/-- The entries of the clients that are to get it. -/
def SensingDaemon.reached (d : SensingDaemon A) (t : Trigger) : List (A × SenseEntry) :=
  d.entries.filter (Reached t.handle d.connects)

/-- **The trigger is delivered**: no step reads or writes outside its buffer, and the
handler of each client with the sensitivity is called with exactly the block,
and no other. -/
def SensingDaemon.Delivered (d : SensingDaemon A) (t : Trigger) (route : Route) : Prop :=
  ∃ calls ∈ d.pulled t route,
    calls.Perm ((d.reached t).map fun c =>
      (c.1, ⟨feedbackTypePayload, intOf t.dataLength, t.block⟩))

end

/-- **The trigger can be delivered.** -/
structure SensingDaemon.Deliverable (d : SensingDaemon A) (t : Trigger) (route : Route) : Prop where
  ends : 0 ∈ t.memory
  handle : t.handle.length ≤ intMax
  counted : t.Counted
  block : t.block <+: t.data.bytes ++ [0]
  packed : t.packed.Fits
  carries : route.Carries t.size
  delivery : (PackCall.bytes t.block).Fits d.thread.delivery.max headerSize
  clients : ∀ c ∈ d.reached t, (d.clients c.1).Receives (headerSize + (4 + t.dataLength))
  walk : NotCutShort t.handle d.connects d.entries

section

variable {d : SensingDaemon A} {t : Trigger} {route : Route}

/-! ## The handlers -/

omit [DecidableEq A] in
/-- Handlers that are all called alike. -/
theorem callHandlers_of_forall {handle : A → Option FeedbackCall} {call : FeedbackCall}
    {clients : List A} (h : ∀ a ∈ clients, handle a = some call) :
    callHandlers handle clients = some (clients.map fun a => (a, call)) := by
  induction clients with
  | nil => rfl
  | cons a clients ih =>
      obtain ⟨hfirst, hrest⟩ := List.forall_mem_cons.mp h
      simp only [callHandlers, hfirst, ih hrest, Option.bind_eq_bind, Option.bind_some,
        List.map_cons]

omit [DecidableEq A] in
/-- What the handlers were called with. -/
theorem callHandlers_some {handle : A → Option FeedbackCall} {clients : List A}
    {calls : List (A × FeedbackCall)} (h : callHandlers handle clients = some calls) :
    calls.map Prod.fst = clients ∧ ∀ c ∈ calls, handle c.1 = some c.2 := by
  induction clients generalizing calls with
  | nil =>
      obtain rfl := Option.some.inj h
      exact ⟨rfl, fun c hc => absurd hc List.not_mem_nil⟩
  | cons a clients ih =>
      obtain ⟨call, hfirst, h⟩ := Option.bind_eq_some_iff.mp h
      obtain ⟨rest, hrest, h⟩ := Option.bind_eq_some_iff.mp h
      obtain rfl := Option.some.inj h
      obtain ⟨hclients, hcalls⟩ := ih hrest
      exact ⟨congrArg (a :: ·) hclients, List.forall_mem_cons.mpr ⟨hfirst, hcalls⟩⟩

/-! ## The block -/

/-- A block has a byte. -/
theorem Trigger.length_block (t : Trigger) : t.block.length = t.dataLength :=
  (List.length_take).trans (min_eq_left t.le_memory)

theorem Trigger.payload_block (t : Trigger) : PackCall.payload t.block = t.block := by
  have hlen := t.length_block
  have hpos := t.pos
  exact if_neg (by omega)

/-- What the feedback thread packs of a trigger. -/
def Trigger.source (t : Trigger) : Option (List Byte) :=
  Mem.load (t.data.bytes ++ [0]) 0 t.dataLength

/-- The payload of a message that is whole. -/
def Trigger.payload (t : Trigger) : SosdFeedbackPayload :=
  ⟨t.handle.clip, intOf t.dataLength, t.data.bytes ++ [0]⟩

theorem Trigger.source_payload (t : Trigger) : t.payload.source = t.source := by
  have hint : t.payload.size.toInt = t.dataLength := toInt_intOf t.le_int
  have hpos := t.pos
  rw [SosdFeedbackPayload.source, hint, if_neg (by omega), Int.toNat_natCast]
  rfl

theorem Trigger.source_eq (h : t.block <+: t.data.bytes ++ [0]) : t.source = some t.block := by
  have hholds : Holds (t.data.bytes ++ [0]) 0 t.block := h
  have hload := Mem.load_of_holds hholds (by rw [Nat.zero_add]; exact h.length_le)
  rwa [t.length_block] at hload

/-! ## The delivery -/

variable [DoubleCodec] {thread : FeedbackThread} {source bytes : List Byte}

/-- The header of a delivery. -/
def FeedbackThread.header (thread : FeedbackThread) (size : ℕ) : SosMsgHeader :=
  ⟨BitVec.ofNat 32 size, feedbackTypePayload, rankGuid thread.commRank, 0⟩

/-- The bytes of a delivery. -/
def FeedbackThread.message (thread : FeedbackThread) (source : List Byte) : List Byte :=
  (thread.header (headerSize + (PackCall.bytes source).size)).enc ++ (PackCall.bytes source).enc

theorem FeedbackThread.length_message (thread : FeedbackThread) (source : List Byte) :
    (thread.message source).length = headerSize + (PackCall.bytes source).size := by
  rw [message, List.length_append, SosMsgHeader.length_enc, PackCall.length_enc]

/-- A delivery begins with a header of its size. -/
theorem FeedbackThread.message_framed (thread : FeedbackThread) (source : List Byte) :
    thread.message source = (thread.header (thread.message source).length).enc ++
      (PackCall.bytes source).enc := by
  rw [length_message]
  rfl

/-- **A source that fits is delivered.** -/
theorem FeedbackThread.deliver_of_fits {p : SosdFeedbackPayload} (hsource : p.source = some source)
    (hfits : (PackCall.bytes source).Fits thread.delivery.max headerSize) :
    thread.deliver p = some (thread.message source) := by
  have hwiped : (sosBufferWipe thread.delivery).max = thread.delivery.max := List.length_replicate
  have hmax := thread.le_max
  unfold sosDefaultReplyLen at hmax
  obtain ⟨m, hm, hframed, -⟩ := zipPackZip_of_fits (b := sosBufferWipe thread.delivery)
    (l := sosdFeedbackPayload thread.commRank thread.delivery.max source)
    (Int.natCast_nonneg _) (by rw [hwiped]; unfold headerSize; omega)
    (by rw [hwiped]; exact ⟨hfits, trivial⟩)
  have hcalls : encCalls (sosdFeedbackPayload thread.commRank thread.delivery.max source).calls =
      (PackCall.bytes source).enc := by
    rw [sosdFeedbackPayload, encCalls_cons, encCalls_nil, List.append_nil]
  have hlen := hframed.len
  have hheld := hframed.bytes
  rw [hcalls, PackCall.length_enc] at hlen
  rw [hcalls, hlen, BitVec.ofInt_natCast] at hheld
  change Holds m.buffer.data 0 (thread.message source) at hheld
  have hlenMsg := thread.length_message source
  have hload := Mem.load_of_holds hheld (hheld.bound (List.ne_nil_of_length_pos (by
    rw [hlenMsg]
    exact Nat.add_pos_left (by decide) _)))
  simp only [deliver, hsource, hm, Option.bind_eq_bind, Option.bind_some, submitted, hlen]
  rw [if_pos (Int.natCast_nonneg _), Int.toNat_natCast, ← hlenMsg]
  exact hload

/-- **A delivery had a source that fits.** -/
theorem FeedbackThread.deliver_some {p : SosdFeedbackPayload} (h : thread.deliver p = some bytes) :
    ∃ source, p.source = some source ∧
      (PackCall.bytes source).Fits thread.delivery.max headerSize ∧ bytes = thread.message source := by
  obtain ⟨source, hsource, hrest⟩ := Option.bind_eq_some_iff.mp h
  obtain ⟨m, hm, -⟩ := Option.bind_eq_some_iff.mp hrest
  have hwiped : (sosBufferWipe thread.delivery).max = thread.delivery.max := List.length_replicate
  obtain ⟨r₁, hzip, hm⟩ := Option.bind_eq_some_iff.mp hm
  obtain ⟨body, hrun, -⟩ := Option.bind_eq_some_iff.mp hm
  obtain ⟨r, hr, hat⟩ := sosMsgZip_start _ (sosMsgZip_bound hzip)
  obtain rfl := Option.some.inj (hr.symm.trans hzip)
  obtain ⟨packed, hpack, -⟩ := Option.bind_eq_some_iff.mp hrun
  have hfits := (sosBufferPackBytes_some hpack).1
  rw [hat.max, hwiped, hat.newOffset, SosMsgHeader.length_enc, Nat.zero_add] at hfits
  exact ⟨source, hsource, hfits,
    Option.some.inj (h.symm.trans (FeedbackThread.deliver_of_fits hsource hfits))⟩

/-- What the handler of a client is called with, for a delivery that it has
received. -/
theorem receivesDirect_of_recv {inlet : Inlet} {b : SosBuffer}
    (hpayload : PackCall.payload source = source) (hlen : source.length ≤ intMax)
    (hrecv : inlet.recv (thread.message source) = some b)
    (hshows : Shows b (thread.message source)) :
    receivesDirect inlet (thread.message source) =
      some ⟨feedbackTypePayload, intOf source.length, source⟩ := by
  have hsize : (PackCall.bytes source).size = 4 + source.length := by
    rw [PackCall.size, hpayload]
  have hle := hshows.le_max
  rw [FeedbackThread.length_message, hsize] at hle
  obtain ⟨hheader, hbody⟩ := Mem.holds_append.mp hshows.holds
  rw [SosMsgHeader.length_enc, Nat.zero_add, PackCall.enc, hpayload, Mem.holds_append,
    length_packi32] at hbody
  have hread := sosMsgUnzip_of_holds (le_trans (Nat.le_add_right _ _) hle) hheader
  have hint := unpackInt_of_holds (i := intOf source.length) hbody.1 (by omega)
  have hload := Mem.load_of_holds hbody.2 (by
    change headerSize + 4 + source.length ≤ b.max
    omega)
  have htype : (thread.header (headerSize + (PackCall.bytes source).size)).msgType =
    feedbackTypePayload := rfl
  have hcount : (intOf source.length).toInt = source.length := toInt_intOf hlen
  simp only [receivesDirect, hrecv, hread, hint, htype, hcount, Option.bind_eq_bind,
    Option.bind_some]
  rw [if_pos ⟨trivial, Int.natCast_nonneg _⟩, Int.toNat_natCast, hload, Option.map_some]

/-- **A handler is called** with what was packed, where there is room to receive
it. -/
theorem receivesDirect_returns {inlet : Inlet} (hpayload : PackCall.payload source = source)
    (hlen : source.length ≤ intMax) (hroom : inlet.Receives (headerSize + (4 + source.length))) :
    receivesDirect inlet (thread.message source) =
      some ⟨feedbackTypePayload, intOf source.length, source⟩ := by
  have hsize := thread.length_message source
  have hroom' : inlet.Receives (thread.message source).length := by
    rw [hsize, PackCall.size, hpayload]
    exact hroom
  obtain ⟨b, hrecv, hshows⟩ := Inlet.recv_returns (thread.message_framed source) rfl hroom'
  exact receivesDirect_of_recv hpayload hlen hrecv hshows

/-- What a handler was called with. -/
theorem receivesDirect_some {inlet : Inlet} {call : FeedbackCall}
    (hpayload : PackCall.payload source = source)
    (hlen : (thread.message source).length ≤ intMax)
    (h : receivesDirect inlet (thread.message source) = some call) :
    inlet.Receives (headerSize + (4 + source.length)) ∧
      call = ⟨feedbackTypePayload, intOf source.length, source⟩ := by
  have hsize := thread.length_message source
  have hbytes : (PackCall.bytes source).size = 4 + source.length := by
    rw [PackCall.size, hpayload]
  obtain ⟨b, hrecv, -⟩ := Option.bind_eq_some_iff.mp h
  obtain ⟨hroom, hshows⟩ := Inlet.recv_shown (thread.message_framed source) rfl hlen hrecv
  rw [hsize, hbytes] at hroom hlen
  exact ⟨hroom, Option.some.inj
    (h.symm.trans (receivesDirect_of_recv hpayload (by omega) hrecv hshows))⟩

/-! ## From end to end -/

/-- **What can be delivered is.** -/
theorem SensingDaemon.Deliverable.delivered (h : d.Deliverable t route) : d.Delivered t route := by
  have hsend := Trigger.send_of_fits h.ends h.counted h.packed
  have hcount : (t.header.enc ++ encAll t.fields).length = t.size := by
    rw [List.length_append, SosMsgHeader.length_enc, length_encAll]
    rfl
  have hway : route.payload (t.header.enc ++ encAll t.fields) = some t.payload :=
    Route.payload_of_carries rfl (by rw [hcount]; rfl) rfl (hcount ▸ h.carries) fun msg hshows =>
      triggerPayload_of_whole hshows rfl (CString.length_clip_le _) (CString.length_clip_le _)
  have hsource := t.source_payload.trans (Trigger.source_eq h.block)
  have hdeliver := FeedbackThread.deliver_of_fits hsource h.delivery
  have hhandle : t.payload.handle = t.handle := CString.clip_eq_iff.mpr h.handle
  obtain ⟨s, hs, hsends, -⟩ := sends_of_walk d.list t.handle d.connects
  have hperm := hsends h.walk
  have hcalls : ∀ a ∈ s.sends, receivesDirect (d.clients a) (d.thread.message t.block) =
      some ⟨feedbackTypePayload, intOf t.dataLength, t.block⟩ := by
    intro a ha
    obtain ⟨c, hc, rfl⟩ := List.mem_map.mp (hperm.mem_iff.mp ha)
    have hroom := h.clients c hc
    rw [← t.length_block] at hroom ⊢
    exact receivesDirect_returns t.payload_block (t.length_block ▸ t.le_int) hroom
  have hall := hperm.map fun a => (a, FeedbackCall.mk feedbackTypePayload (intOf t.dataLength) t.block)
  rw [List.map_map] at hall
  refine ⟨_, ?_, hall⟩
  simp only [pulled, hsend, hway, hdeliver, hhandle, hs, Option.bind_eq_bind, Option.bind_some]
  exact callHandlers_of_forall hcalls

omit [DecidableEq A] [DoubleCodec] in
/-- An entry that is sent to by its address. -/
theorem SensingDaemon.handle_of_sent {handle handle' : CString} {c : A × SenseEntry}
    (hc : c ∈ d.entries.filter (Reached handle d.connects))
    (hsent : c.1 ∈ (d.entries.filter (Reached handle' d.connects)).map Prod.fst) :
    handle' = handle := by
  obtain ⟨c', hc', hsame⟩ := List.mem_map.mp hsent
  obtain ⟨hmem, hreached⟩ := List.mem_filter.mp hc
  obtain ⟨hmem', hreached'⟩ := List.mem_filter.mp hc'
  obtain rfl := List.inj_on_of_nodup_map d.list.nodup hmem' hmem hsame
  exact (reached_iff.mp hreached').1.trans (reached_iff.mp hreached).1.symm

omit [DoubleCodec] in
/-- A handle is not what is left of a longer string. -/
theorem Trigger.handle_ne_data (h : t.handle.clip.length < t.data.length) : t.data ≠ t.handle := by
  intro heq
  have hle : t.handle.length ≤ intMax := heq ▸ CString.length_clip_le _
  rw [CString.clip_eq_iff.mpr hle, heq] at h
  exact lt_irrefl _ h

/-- **What is delivered could be**, if there was a client to deliver it to. -/
theorem SensingDaemon.Delivered.deliverable (hreached : d.reached t ≠ [])
    (h : d.Delivered t route) : d.Deliverable t route := by
  obtain ⟨calls, hpulled, hperm⟩ := h
  obtain ⟨sent, hsend, hpulled⟩ := Option.bind_eq_some_iff.mp hpulled
  obtain ⟨p, hway, hpulled⟩ := Option.bind_eq_some_iff.mp hpulled
  obtain ⟨bytes, hdeliver, hpulled⟩ := Option.bind_eq_some_iff.mp hpulled
  obtain ⟨s, hs, hcalls⟩ := Option.bind_eq_some_iff.mp hpulled
  obtain ⟨hends, hcounted, body, hsent, hcount, hsize, hbody⟩ := Trigger.send_some hsend
  have hmsgSize : t.header.msgSize = BitVec.ofNat 32 sent.length := by rw [hcount]; rfl
  obtain ⟨hcarries, msg, hshows, hpayload⟩ :=
    Route.payload_some hsent hmsgSize rfl (hcount ▸ hsize) hway
  obtain ⟨hclients, heach⟩ := callHandlers_some hcalls
  have hsends : s.sends.Perm ((d.reached t).map Prod.fst) := by
    have hfirst := hperm.map Prod.fst
    rwa [hclients, List.map_map] at hfirst
  have hclient : ∀ c ∈ d.reached t, receivesDirect (d.clients c.1) bytes =
      some ⟨feedbackTypePayload, intOf t.dataLength, t.block⟩ := by
    intro c hc
    have hmem : (c.1, FeedbackCall.mk feedbackTypePayload (intOf t.dataLength) t.block) ∈ calls :=
      hperm.mem_iff.mpr (List.mem_map.mpr ⟨c, hc, rfl⟩)
    exact heach (c.1, ⟨feedbackTypePayload, intOf t.dataLength, t.block⟩) hmem
  obtain ⟨c, hc⟩ := List.exists_mem_of_ne_nil _ hreached
  have hcsent : c.1 ∈ s.sends := hsends.mem_iff.mpr (List.mem_map_of_mem hc)
  -- somebody is sent to, so the payload has the handle
  obtain ⟨s', hs', hfan, hwalk⟩ := sends_of_walk d.list p.handle d.connects
  obtain rfl := Option.some.inj (hs'.symm.trans hs)
  have hnotcut := hwalk (List.ne_nil_of_mem hcsent)
  have hhandle : p.handle = t.handle :=
    SensingDaemon.handle_of_sent hc ((hfan hnotcut).mem_iff.mp hcsent)
  rw [hhandle] at hnotcut
  rcases hbody with ⟨hfits, rfl⟩ | ⟨hlt, hfirst⟩
  · have hwhole := triggerPayload_of_whole hshows hsent (CString.length_clip_le _)
      (CString.length_clip_le _)
    obtain rfl : p = t.payload := Option.some.inj (hpayload.symm.trans hwhole)
    obtain ⟨source, hsource, hdfits, rfl⟩ := FeedbackThread.deliver_some hdeliver
    obtain ⟨-, hlen, hheld⟩ := Mem.load_some (t.source_payload.symm.trans hsource)
    have hpos := t.pos
    have hall : PackCall.payload source = source := if_neg (by omega)
    have hmessage : (d.thread.message source).length ≤ intMax := by
      rw [FeedbackThread.length_message]
      exact hdfits.2.trans hdfits.1
    obtain rfl : source = t.block :=
      (congrArg FeedbackCall.payloadData (receivesDirect_some hall hmessage (hclient c hc)).2).symm
    refine ⟨hends, CString.clip_eq_iff.mp hhandle, hcounted, hheld, hfits, hcount ▸ hcarries,
      hdfits, fun c hc => ?_, hnotcut⟩
    have hroom := (receivesDirect_some hall hmessage (hclient c hc)).1
    rwa [hlen] at hroom
  · have hlost := handle_of_triggerPayload hshows hsent (CString.length_clip_le _) hfirst hpayload
    exact absurd (hlost.symm.trans hhandle) (Trigger.handle_ne_data hlt)

/-- **Which triggers are delivered**: those that can be, and, where there is a
client to deliver them to, no others. -/
theorem delivered_iff_deliverable (d : SensingDaemon A) (t : Trigger) (route : Route) :
    (d.Deliverable t route → d.Delivered t route) ∧
      (d.reached t ≠ [] → d.Delivered t route → d.Deliverable t route) :=
  ⟨fun h => h.delivered, fun hreached h => h.deliverable hreached⟩

end

/-- A daemon with two clients that are sensitive to `""`. -/
def plainDaemon : SensingDaemon ℕ where
  thread := ⟨0, sosBufferInitSized sosDefaultReplyLen (by decide), List.length_replicate.ge⟩
  mem := twoEntries
  senseListHead := some 1
  entries := [(1, plainEntry), (2, plainEntry)]
  list := twoEntries_list
  connects := fun _ => true
  clients := fun _ => ⟨sosBufferInit, List.length_replicate.ge⟩

/-- The way to it from a client. -/
def plainRoute : Route := .direct ⟨sosBufferInit, List.length_replicate.ge⟩

/-- A block with one letter and a terminator. -/
def letterTrigger : Trigger := ⟨7, .empty, [1, 0], 2, by decide, by decide, by decide⟩

theorem letter_delivered :
    letI := DoubleCodec.bits
    plainDaemon.Delivered letterTrigger plainRoute := by
  let _ := DoubleCodec.bits
  exact (delivered_iff_deliverable plainDaemon letterTrigger plainRoute).1
    { ends := by decide
      handle := by decide
      counted := by decide +kernel
      block := by decide +kernel
      packed := by decide +kernel
      carries := by decide +kernel
      delivery := by decide +kernel
      clients := by decide +kernel
      walk := fun h => (by cases h) }

/-- A block with a zero byte in it. -/
def zeroTrigger : Trigger := ⟨7, .empty, [1, 0, 2], 3, by decide, by decide, by decide⟩

/-- A string that the delivery buffer is one byte too small for. -/
def longTrigger : Trigger where
  myGuid := 7
  handle := .empty
  memory := List.replicate 997 1 ++ [0]
  dataLength := 997
  pos := by decide
  le_memory := by
    rw [List.length_append, List.length_replicate]
    exact Nat.le_add_right _ _
  le_int := by decide

/-- **Two triggers that are not delivered**: of the one the feedback thread reads
more than there is, and the other it writes past its buffer. -/
theorem not_delivered :
    letI := DoubleCodec.bits
    ¬ plainDaemon.Delivered zeroTrigger plainRoute ∧
      ¬ plainDaemon.Delivered longTrigger plainRoute := by
  let _ := DoubleCodec.bits
  constructor
  · intro h
    have hblock := (h.deliverable (by decide +kernel)).block
    revert hblock
    decide +kernel
  · intro h
    have hfits := (h.deliverable (by decide +kernel)).delivery
    revert hfits
    decide +kernel

end SosFlow
