import SosFlow.Msg.Cloud
import SosFlow.Lib.Loop

/-!
# Receiving a message

`SOS_target_recv_msg` reads as much as its buffer holds, takes the size of
the message from the header, and reads on until it has that many bytes. The
buffer is grown on the way to a longer message.

The first read has to bring the whole header: with less, the rest of the
message is never asked for. Behind it, a peer that closes the connection is
not told from one that is slow, and the loop asks again for ever. Elsewhere
the message is put together as it was sent (`reassembles_iff`).
-/

namespace SosFlow

open Loop
open Mem (Holds)

/-- How a stream ends: `recv` returns 0 from then on, or an error. -/
inductive StreamEnd where
  | closed
  | failed
deriving DecidableEq

/-- **A stream**: the chunks in which its bytes arrive, and what comes then. -/
structure ByteStream where
  chunks : List (List Byte)
  ending : StreamEnd

/-- `recv` of up to `want` bytes: what it stores, unless it is an error, and the stream
behind it. What a chunk has more stays for the next call. -/
def ByteStream.recv (stream : ByteStream) (want : ℕ) : Option (List Byte) × ByteStream :=
  match stream.chunks with
  | [] => (if stream.ending = .closed then some [] else none, stream)
  | chunk :: chunks =>
    (some (chunk.take want),
      { stream with chunks :=
          if chunk.drop want = [] then chunks else chunk.drop want :: chunks })

/-- What a receive returns; a buffer that cannot be grown ends the process. -/
inductive RecvResult where
  | returned (ret : ℤ) (reply : SosBuffer)
  | crashed

/-- The buffer and the stream, from one `recv` to the next. -/
structure RecvState where
  reply : SosBuffer
  stream : ByteStream

/-- The growth in front of a `recv`. One is enough, so that the loop around it goes
round once. -/
def growToSize (reply : SosBuffer) (size : ℤ) : Option SosBuffer :=
  if size > reply.max then sosBufferGrow reply (1 + (size - reply.max)).toNat else some reply

/-- **One turn of the loop** that reads the rest of a message of `size` bytes. -/
def recvTurn (size : ℤ) (s : RecvState) : Turn RecvState RecvResult :=
  if size > s.reply.len then
    match growToSize s.reply size with
    | none => .done .crashed
    | some reply =>
      match s.stream.recv (size - reply.len).toNat with
      | (none, _) => .done (.returned (-1) reply)
      | (some rest, stream) =>
        match reply.store reply.len.toNat rest with
        | none => .done .crashed
        | some stored => .next ⟨stored.setLen (reply.len + rest.length), stream⟩
  else .done (.returned s.reply.len s.reply)

section

variable [DoubleCodec]

/-- The first read, and the size of the message when it brought the header. -/
def recvFirst (reply : SosBuffer) (stream : ByteStream) : RecvResult ⊕ (ℤ × RecvState) :=
  match stream.recv reply.max with
  | (none, _) => .inl (.returned (-1) (reply.setLen (-1)))
  | (some first, stream) =>
    match reply.store 0 first with
    | none => .inl .crashed
    | some stored =>
      let reply := stored.setLen first.length
      if first.length < headerSize then .inl (.returned (-1) reply)
      else match sosMsgUnzip reply 0 with
        | none => .inl .crashed
        | some (header, _) => .inr (header.msgSize.toInt, ⟨reply, stream⟩)

/-- **`SOS_target_recv_msg`**, in at most that many turns of its loop. -/
def recvMsg (shutdown : Bool) (reply : SosBuffer) (stream : ByteStream) (turns : ℕ) :
    Option RecvResult :=
  if shutdown then some (.returned (-1) reply)
  else match recvFirst reply stream with
    | .inl result => some result
    | .inr (size, s) => iterate (recvTurn size) turns s

/-- **A message**: a header, and a body of the size that the header says. -/
structure WireMessage where
  header : SosMsgHeader
  body : List Byte
  size_eq : header.msgSize.toInt = (headerSize + body.length : ℕ)

namespace WireMessage

variable (message : WireMessage)

/-- Its bytes. -/
def bytes : List Byte := message.header.enc ++ message.body

/-- How many there are. -/
def size : ℕ := headerSize + message.body.length

end WireMessage

/-- **A delivery of a message**: chunks that are not empty, of a first part of its
bytes. -/
structure Delivery (message : WireMessage) extends ByteStream where
  nonempty : ∀ chunk ∈ chunks, chunk ≠ []
  prefix_bytes : chunks.flatten <+: message.bytes

namespace Delivery

variable {message : WireMessage} (delivery : Delivery message)

/-- The whole message arrives. -/
def Whole : Prop := delivery.chunks.flatten = message.bytes

/-- How much the first read brings. -/
def firstRead (reply : SosBuffer) : ℕ := min reply.max (delivery.chunks.headD []).length

end Delivery

/-- The buffer has room for the message, or can be given it. -/
def Growable (reply : SosBuffer) (message : WireMessage) : Prop :=
  message.size ≤ reply.max ∨ message.size + 2 ≤ intMax

/-- **The message is put together**: the receive returns, with the message when all of it
has arrived, and with less than a header when not. -/
def Reassembles (shutdown : Bool) (reply : SosBuffer) (message : WireMessage)
    (delivery : Delivery message) : Prop :=
  ∃ turns ret received,
    recvMsg shutdown reply delivery.toByteStream turns = some (.returned ret received) ∧
    (delivery.Whole → ret = message.size ∧ submitted received = some message.bytes ∧
      received.len ≤ received.max) ∧
    (¬ delivery.Whole → ret < headerSize)

/-- **When it is**: the first read brings the header and the buffer can be grown, and a
message that does not arrive whole ends in an error. -/
def ReceiveMeets (shutdown : Bool) (reply : SosBuffer) (message : WireMessage)
    (delivery : Delivery message) : Prop :=
  (delivery.Whole → shutdown = false ∧ headerSize ≤ delivery.firstRead reply ∧
    Growable reply message) ∧
  (¬ delivery.Whole → shutdown = false → headerSize ≤ delivery.firstRead reply →
    Growable reply message ∧ delivery.ending = .failed)

variable {message : WireMessage} {s : RecvState} {all got chunk : List Byte}
  {chunks : List (List Byte)}

omit [DoubleCodec] in
/-- A turn that reads something, or nothing, behind what is there. -/
theorem recvTurn_read {size : ℤ} {roomy stored : SosBuffer} {stream : ByteStream}
    (hmore : size > s.reply.len) (hgrow : growToSize s.reply size = some roomy)
    (hrecv : s.stream.recv (size - roomy.len).toNat = (some chunk, stream))
    (hstore : roomy.store roomy.len.toNat chunk = some stored) :
    recvTurn size s = .next ⟨stored.setLen (roomy.len + chunk.length), stream⟩ := by
  rw [recvTurn, if_pos hmore, hgrow]
  dsimp only
  rw [hrecv]
  dsimp only
  rw [hstore]

omit [DoubleCodec] in
/-- **The growth makes room** and moves nothing. -/
theorem growToSize_eq {reply : SosBuffer} {size : ℤ} (h : size ≤ reply.max ∨ size + 2 ≤ intMax) :
    ∃ roomy, growToSize reply size = some roomy ∧ roomy.len = reply.len ∧ size ≤ roomy.max ∧
      reply.data <+: roomy.data := by
  unfold growToSize
  by_cases hfits : size ≤ reply.max
  · exact ⟨reply, if_neg (not_lt.mpr hfits), rfl, hfits, List.prefix_rfl⟩
  · have hint := h.resolve_left hfits
    rw [if_pos (not_le.mp hfits)]
    obtain ⟨roomy, hgrow⟩ := sosBufferGrow_eq
      (show reply.max + ((1 + (size - reply.max)).toNat + 1) ≤ intMax by omega)
    obtain ⟨hdata, hlen, hmax⟩ := sosBufferGrow_some hgrow
    refine ⟨roomy, hgrow, hlen, by omega, ?_⟩
    rw [hdata]
    exact List.prefix_append _ _

omit [DoubleCodec] in
/-- **A buffer that cannot be grown** ends the process. -/
theorem returns_crashed {size : ℤ} (hmore : s.reply.len < size)
    (h : ¬ (size ≤ s.reply.max ∨ size + 2 ≤ intMax)) : Returns (recvTurn size) s .crashed := by
  push Not at h
  refine (returns_done ?_).mpr rfl
  have hfails : growToSize s.reply size = none := by
    rw [growToSize, if_pos h.1]
    exact dif_neg (by omega)
  rw [recvTurn, if_pos hmore, hfails]

theorem WireMessage.length_bytes (message : WireMessage) : message.bytes.length = message.size := by
  rw [WireMessage.bytes, List.length_append, SosMsgHeader.length_enc, WireMessage.size]

omit [DoubleCodec] in
theorem Growable.int {reply : SosBuffer} (h : Growable reply message) :
    (message.size : ℤ) ≤ reply.max ∨ (message.size : ℤ) + 2 ≤ intMax :=
  h.imp Int.ofNat_le.mpr fun hint => by omega

/-! ## The rest of a message -/

/-- **What was received so far** is in the buffer, and `all` is that and what is still to
come: a first part of the message. -/
structure Receiving (message : WireMessage) (all got : List Byte) (s : RecvState) : Prop where
  len : s.reply.len = got.length
  holds : Holds s.reply.data 0 got
  le_max : got.length ≤ s.reply.max
  split : got ++ s.stream.chunks.flatten = all
  prefix_bytes : all <+: message.bytes
  nonempty : ∀ chunk ∈ s.stream.chunks, chunk ≠ []
  growable : Growable s.reply message

/-- The room for the message. -/
theorem Receiving.grow (h : Receiving message all got s) :
    ∃ roomy, growToSize s.reply message.size = some roomy ∧ roomy.len = got.length ∧
      Holds roomy.data 0 got ∧ message.size ≤ roomy.max := by
  obtain ⟨roomy, hgrow, hlen, hmax, more, hdata⟩ := growToSize_eq h.growable.int
  refine ⟨roomy, hgrow, hlen.trans h.len, ?_, by omega⟩
  rw [← hdata]
  exact h.holds.append_right (Nat.zero_le _) _

/-- **A turn that reads a chunk**: it is stored behind what was there. -/
theorem Receiving.turn_chunk (h : Receiving message all got s)
    (hchunks : s.stream.chunks = chunk :: chunks) :
    ∃ s', recvTurn message.size s = .next s' ∧ Receiving message all (got ++ chunk) s' ∧
      s'.stream = ⟨chunks, s.stream.ending⟩ := by
  have hall := h.split
  rw [hchunks, List.flatten_cons] at hall
  have hne : chunk ≠ [] := h.nonempty chunk (hchunks ▸ List.mem_cons_self)
  have hpos := List.length_pos_of_ne_nil hne
  have hlen : got.length + chunk.length ≤ message.size := by
    have hprefix := h.prefix_bytes.length_le
    rw [← hall, List.length_append, List.length_append, message.length_bytes] at hprefix
    omega
  obtain ⟨roomy, hgrow, hroomy, hholds, hroom⟩ := h.grow
  -- all of the chunk is wanted
  have hwant : ((message.size : ℤ) - roomy.len).toNat = message.size - got.length := by
    rw [hroomy]
    omega
  have hrecv : s.stream.recv ((message.size : ℤ) - roomy.len).toNat =
      (some chunk, ⟨chunks, s.stream.ending⟩) := by
    rw [ByteStream.recv, hchunks, hwant]
    dsimp only
    rw [List.take_of_length_le (by omega), List.drop_of_length_le (by omega), if_pos rfl]
  obtain ⟨stored, hstore, hmem, -, hmax⟩ := SosBuffer.store_of_le (b := roomy) got.length chunk
    (by omega)
  have hoffset : roomy.len.toNat = got.length := by rw [hroomy, Int.toNat_natCast]
  refine ⟨⟨stored.setLen (roomy.len + chunk.length), ⟨chunks, s.stream.ending⟩⟩, ?_, ?_, rfl⟩
  · exact recvTurn_read (by rw [h.len]; omega) hgrow hrecv (by rw [hoffset]; exact hstore)
  · refine ⟨?_, ?_, ?_, ?_, h.prefix_bytes, ?_, .inl ?_⟩
    · rw [SosBuffer.setLen_len, hroomy, List.length_append]
      omega
    · rw [Mem.holds_append, Nat.zero_add]
      exact ⟨hholds.store_above hmem (by omega), Mem.holds_of_store hmem⟩
    · rw [SosBuffer.setLen_max, hmax, List.length_append]
      omega
    · rw [← hall, List.append_assoc]
    · intro other hother
      exact h.nonempty other (hchunks ▸ List.mem_cons_of_mem chunk hother)
    · rw [SosBuffer.setLen_max, hmax]
      exact hroom

/-- What there still is to read when a part of the message is missing. -/
theorem Receiving.lt_size (h : Receiving message all got s) (hpart : all ≠ message.bytes) :
    got.length < message.size := by
  have hlt : all.length < message.bytes.length := by
    refine lt_of_le_of_ne h.prefix_bytes.length_le fun heq => hpart ?_
    exact h.prefix_bytes.eq_of_length heq
  have hle : got.length ≤ all.length := by
    rw [← h.split, List.length_append]
    omega
  rw [message.length_bytes] at hlt
  omega

/-- **All of the message**: the loop reads every chunk and ends. -/
theorem Receiving.returns_whole (h : Receiving message message.bytes got s) :
    ∃ received, Returns (recvTurn message.size) s (.returned message.size received) ∧
      submitted received = some message.bytes ∧ received.len ≤ received.max := by
  induction hchunks : s.stream.chunks generalizing s got with
  | nil =>
      have hgot : got = message.bytes := by
        have hsplit := h.split
        rw [hchunks, List.flatten_nil, List.append_nil] at hsplit
        exact hsplit
      have hlen : s.reply.len = message.size := by rw [h.len, hgot, message.length_bytes]
      have hmax : message.bytes.length ≤ s.reply.max := hgot ▸ h.le_max
      refine ⟨s.reply, (returns_done ?_).mpr rfl, ?_, ?_⟩
      · rw [recvTurn, if_neg (by rw [hlen]; exact lt_irrefl _), hlen]
      · rw [submitted, hlen, if_pos (Int.natCast_nonneg _), Int.toNat_natCast,
          ← message.length_bytes]
        exact Mem.load_of_holds (hgot ▸ h.holds) (by rw [Nat.zero_add]; exact hmax)
      · rw [h.len, hgot]
        exact_mod_cast hmax
  | cons chunk chunks ih =>
      obtain ⟨s', hturn, hnext, hstream⟩ := h.turn_chunk hchunks
      obtain ⟨received, hreturns, hrest⟩ := ih hnext (by rw [hstream])
      exact ⟨received, (returns_next hturn).mpr hreturns, hrest⟩

/-- **A part of it and an error**: the loop ends with the error. -/
theorem Receiving.returns_failed (h : Receiving message all got s) (hpart : all ≠ message.bytes)
    (hending : s.stream.ending = .failed) :
    ∃ received, Returns (recvTurn message.size) s (.returned (-1) received) := by
  induction hchunks : s.stream.chunks generalizing s got with
  | nil =>
      have hlt := h.lt_size hpart
      obtain ⟨roomy, hgrow, -⟩ := h.grow
      refine ⟨roomy, (returns_done ?_).mpr rfl⟩
      rw [recvTurn, if_pos (by rw [h.len]; omega), hgrow]
      simp only [ByteStream.recv, hchunks, hending, reduceCtorEq, if_false]
  | cons chunk chunks ih =>
      obtain ⟨s', hturn, hnext, hstream⟩ := h.turn_chunk hchunks
      obtain ⟨received, hreturns⟩ := ih hnext (by rw [hstream, hending]) (by rw [hstream])
      exact ⟨received, (returns_next hturn).mpr hreturns⟩

/-- A turn that reads nothing because the stream is closed. -/
theorem Receiving.turn_closed (h : Receiving message all got s) (hlt : got.length < message.size)
    (hchunks : s.stream.chunks = []) (hending : s.stream.ending = .closed) :
    ∃ s', recvTurn message.size s = .next s' ∧ Receiving message all got s' ∧
      s'.stream = s.stream := by
  obtain ⟨roomy, hgrow, hroomy, hholds, hroom⟩ := h.grow
  obtain ⟨stored, hstore, hmem, -, hmax⟩ := SosBuffer.store_of_le (b := roomy) got.length []
    (by rw [List.length_nil]; omega)
  have hoffset : roomy.len.toNat = got.length := by rw [hroomy, Int.toNat_natCast]
  have hrecv : s.stream.recv ((message.size : ℤ) - roomy.len).toNat = (some [], s.stream) := by
    simp only [ByteStream.recv, hchunks, hending, if_true]
  refine ⟨⟨stored.setLen (roomy.len + ([] : List Byte).length), s.stream⟩, ?_, ?_, rfl⟩
  · exact recvTurn_read (by rw [h.len]; omega) hgrow hrecv (by rw [hoffset]; exact hstore)
  · refine ⟨?_, ?_, ?_, h.split, h.prefix_bytes, h.nonempty, .inl ?_⟩
    · rw [SosBuffer.setLen_len, hroomy, List.length_nil, Int.natCast_zero, add_zero]
    · exact hholds.store_above hmem (by omega)
    · rw [SosBuffer.setLen_max, hmax]
      omega
    · rw [SosBuffer.setLen_max, hmax]
      exact hroom

/-- **A part of it and the end of the stream**: the loop does not end. -/
theorem Receiving.never_closed (h : Receiving message all got s) (hpart : all ≠ message.bytes)
    (hending : s.stream.ending = .closed) (result : RecvResult) :
    ¬ Returns (recvTurn message.size) s result := by
  induction hchunks : s.stream.chunks generalizing s got with
  | nil =>
      refine never_returns (fun s => Receiving message all got s ∧ s.stream.chunks = [] ∧
        s.stream.ending = .closed) ?_ ⟨h, hchunks, hending⟩
      rintro s ⟨hs, hnil, hclosed⟩
      obtain ⟨s', hturn, hnext, hstream⟩ := hs.turn_closed (hs.lt_size hpart) hnil hclosed
      exact ⟨s', hturn, hnext, by rw [hstream, hnil], by rw [hstream, hclosed]⟩
  | cons chunk chunks ih =>
      obtain ⟨s', hturn, hnext, hstream⟩ := h.turn_chunk hchunks
      rw [returns_next hturn]
      exact ih hnext (by rw [hstream, hending]) (by rw [hstream])

/-! ## The first read -/

variable {reply : SosBuffer}

/-- A first read of less than a header is all there is. -/
theorem recvFirst_short (delivery : Delivery message)
    (hshort : delivery.firstRead reply < headerSize) :
    ∃ received, recvFirst reply delivery.toByteStream = .inl (.returned (-1) received) := by
  unfold recvFirst ByteStream.recv
  cases hchunks : delivery.chunks with
  | nil =>
      cases hending : delivery.ending with
      | failed => exact ⟨_, rfl⟩
      | closed =>
          obtain ⟨stored, hstore, -⟩ := SosBuffer.store_of_le (b := reply) 0 []
            (by rw [List.length_nil]; omega)
          simp only [if_true, hstore, List.length_nil]
          exact ⟨_, if_pos (by decide)⟩
  | cons chunk chunks =>
      have hlen : (chunk.take reply.max).length < headerSize := by
        rw [Delivery.firstRead, hchunks, List.headD_cons] at hshort
        rw [List.length_take]
        exact hshort
      obtain ⟨stored, hstore, -⟩ := SosBuffer.store_of_le (b := reply) 0 (chunk.take reply.max)
        (by rw [List.length_take]; omega)
      simp only [hstore, if_pos hlen]
      exact ⟨_, rfl⟩

/-- **A first read of a header** is the start of the loop. -/
theorem recvFirst_header (delivery : Delivery message)
    (hheader : headerSize ≤ delivery.firstRead reply) :
    ∃ s, recvFirst reply delivery.toByteStream = .inr (message.size, s) ∧
      s.reply.len = delivery.firstRead reply ∧ s.reply.max = reply.max ∧
      s.stream.ending = delivery.ending ∧
      (Growable reply message → ∃ got, Receiving message delivery.chunks.flatten got s) := by
  cases hchunks : delivery.chunks with
  | nil =>
      rw [Delivery.firstRead, hchunks, List.headD_nil, List.length_nil, Nat.min_zero] at hheader
      exact absurd hheader (by decide)
  | cons chunk chunks =>
      have hfirst : (chunk.take reply.max).length = delivery.firstRead reply := by
        rw [Delivery.firstRead, hchunks, List.headD_cons, List.length_take]
      have hmax : (chunk.take reply.max).length ≤ reply.max := by
        rw [List.length_take]
        omega
      obtain ⟨stored, hstore, hmem, -, hcap⟩ := SosBuffer.store_of_le (b := reply) 0
        (chunk.take reply.max) (by omega)
      have hholds := Mem.holds_of_store hmem
      -- what was read begins with the header of the message
      have hprefix : chunk.take reply.max <+: message.bytes := by
        refine (List.take_prefix _ _).trans (List.IsPrefix.trans ?_ delivery.prefix_bytes)
        rw [hchunks, List.flatten_cons]
        exact List.prefix_append _ _
      have henc : message.header.enc <+: chunk.take reply.max := by
        refine List.prefix_of_prefix_length_le (List.prefix_append _ message.body) hprefix ?_
        rw [SosMsgHeader.length_enc, hfirst]
        exact hheader
      have hread : sosMsgUnzip (stored.setLen (chunk.take reply.max).length) 0 =
          some (message.header, headerSize) := by
        refine sosMsgUnzip_of_holds ?_ (henc.trans hholds)
        rw [SosBuffer.setLen_max, hcap]
        omega
      have hsize : message.header.msgSize.toInt = message.size := message.size_eq
      let rest := if chunk.drop reply.max = [] then chunks else chunk.drop reply.max :: chunks
      refine ⟨⟨stored.setLen (chunk.take reply.max).length, ⟨rest, delivery.ending⟩⟩, ?_, ?_, ?_,
        rfl, ?_⟩
      · unfold recvFirst ByteStream.recv
        rw [hchunks]
        dsimp only
        rw [hstore]
        dsimp only
        rw [if_neg (by omega), hread, ← hsize]
      · rw [SosBuffer.setLen_len, hfirst]
      · rw [SosBuffer.setLen_max, hcap]
      · intro hgrowable
        refine ⟨chunk.take reply.max, rfl, hholds, ?_, ?_, ?_, ?_, ?_⟩
        · rw [SosBuffer.setLen_max, hcap]
          exact hmax
        · show chunk.take reply.max ++ rest.flatten = _
          have hrest : rest.flatten = chunk.drop reply.max ++ chunks.flatten := by
            by_cases hnil : chunk.drop reply.max = []
            · rw [show rest = chunks from if_pos hnil, hnil, List.nil_append]
            · rw [show rest = _ from if_neg hnil, List.flatten_cons]
          rw [hrest, ← List.append_assoc, List.take_append_drop, List.flatten_cons]
        · rw [← hchunks]
          exact delivery.prefix_bytes
        · intro other hother
          change other ∈ rest at hother
          by_cases hnil : chunk.drop reply.max = []
          · rw [show rest = chunks from if_pos hnil] at hother
            exact delivery.nonempty other (hchunks ▸ List.mem_cons_of_mem chunk hother)
          · rw [show rest = _ from if_neg hnil] at hother
            rcases List.mem_cons.mp hother with rfl | hold
            · exact hnil
            · exact delivery.nonempty other (hchunks ▸ List.mem_cons_of_mem chunk hold)
        · rcases hgrowable with hfits | hint
          · refine .inl ?_
            rw [SosBuffer.setLen_max, hcap]
            exact hfits
          · exact .inr hint

/-! ## Which messages are put together -/

/-- What a receive that is running comes to. -/
theorem recvMsg_eq {stream : ByteStream} {size : ℤ}
    (hfirst : recvFirst reply stream = .inr (size, s)) (result : RecvResult) :
    (∃ turns, recvMsg false reply stream turns = some result) ↔ Returns (recvTurn size) s result := by
  unfold recvMsg
  simp only [Bool.false_eq_true, if_false, hfirst]
  rfl

/-- **A message is put together** if and only if the first read brings its header, the
buffer can be grown to it, and the stream does not just end before it. -/
theorem reassembles_iff (shutdown : Bool) (reply : SosBuffer) (message : WireMessage)
    (delivery : Delivery message) :
    Reassembles shutdown reply message delivery ↔
      ReceiveMeets shutdown reply message delivery := by
  have hnot : ¬ (message.size : ℤ) = -1 := by omega
  cases hrun : shutdown with
  | true =>
      have heq : ∀ turns, recvMsg true reply delivery.toByteStream turns =
          some (.returned (-1) reply) := fun turns => rfl
      constructor
      · rintro ⟨turns, ret, received, hrecv, hwhole, -⟩
        obtain ⟨rfl, -⟩ := RecvResult.returned.inj (Option.some.inj ((heq turns).symm.trans hrecv))
        exact ⟨fun h => absurd (hwhole h).1.symm hnot, fun _ hfalse => absurd hfalse (by decide)⟩
      · intro hmeets
        exact ⟨0, -1, reply, heq 0, fun h => absurd (hmeets.1 h).1 (by decide), fun _ => by decide⟩
  | false =>
      by_cases hheader : headerSize ≤ delivery.firstRead reply
      · obtain ⟨s, hfirst, hlen, hmax, hending, hreceiving⟩ := recvFirst_header delivery hheader
        by_cases hgrowable : Growable reply message
        · obtain ⟨got, hgot⟩ := hreceiving hgrowable
          by_cases hall : delivery.Whole
          · rw [hall] at hgot
            obtain ⟨received, hreturns, hrest⟩ := hgot.returns_whole
            obtain ⟨turns, hturns⟩ := (recvMsg_eq hfirst _).mpr hreturns
            refine iff_of_true ⟨turns, _, received, hturns, fun _ => ⟨rfl, hrest⟩,
              fun hpart => absurd hall hpart⟩ ?_
            exact ⟨fun _ => ⟨rfl, hheader, hgrowable⟩, fun hpart => absurd hall hpart⟩
          · cases hend : delivery.ending with
            | failed =>
                obtain ⟨received, hreturns⟩ := hgot.returns_failed hall (hending.trans hend)
                obtain ⟨turns, hturns⟩ := (recvMsg_eq hfirst _).mpr hreturns
                refine iff_of_true ⟨turns, _, received, hturns, fun h => absurd h hall,
                  fun _ => by decide⟩ ?_
                exact ⟨fun h => absurd h hall, fun _ _ _ => ⟨hgrowable, hend⟩⟩
            | closed =>
                have hnever := hgot.never_closed hall (hending.trans hend)
                refine iff_of_false ?_ ?_
                · rintro ⟨turns, ret, received, hrecv, -⟩
                  exact hnever _ ((recvMsg_eq hfirst _).mp ⟨turns, hrecv⟩)
                · intro hmeets
                  have hfailed := (hmeets.2 hall rfl hheader).2
                  rw [hend] at hfailed
                  exact absurd hfailed (by decide)
        · have hcrashed : Returns (recvTurn message.size) s .crashed := by
            unfold Growable at hgrowable
            refine returns_crashed ?_ ?_
            · rw [hlen, Delivery.firstRead]
              omega
            · rw [hmax]
              omega
          refine iff_of_false ?_ ?_
          · rintro ⟨turns, ret, received, hrecv, -⟩
            have hreturns := (recvMsg_eq hfirst _).mp ⟨turns, hrecv⟩
            cases hreturns.unique hcrashed
          · intro hmeets
            by_cases hall : delivery.Whole
            · exact hgrowable (hmeets.1 hall).2.2
            · exact hgrowable (hmeets.2 hall rfl hheader).1
      · obtain ⟨received, hfirst⟩ := recvFirst_short delivery (not_le.mp hheader)
        have heq : ∀ turns, recvMsg false reply delivery.toByteStream turns =
            some (.returned (-1) received) := by
          intro turns
          simp only [recvMsg, Bool.false_eq_true, if_false, hfirst]
        constructor
        · rintro ⟨turns, ret, received', hrecv, hwhole, -⟩
          obtain ⟨rfl, -⟩ :=
            RecvResult.returned.inj (Option.some.inj ((heq turns).symm.trans hrecv))
          exact ⟨fun h => absurd (hwhole h).1.symm hnot, fun _ _ h => absurd h hheader⟩
        · intro hmeets
          refine ⟨0, -1, received, heq 0, fun h => absurd (hmeets.1 h).2.1 hheader, ?_⟩
          exact fun _ => by decide

/-! ## When a receive returns -/

/-- **The rest of a message ends**: it is there, or the buffer can be grown to it and
enough bytes follow, or an error. -/
def RestEnds (size : ℤ) (s : RecvState) : Prop :=
  size ≤ s.reply.len ∨ ((size ≤ s.reply.max ∨ size + 2 ≤ intMax) ∧
    (size ≤ s.reply.len + s.stream.chunks.flatten.length ∨ s.stream.ending = .failed))

/-- **The stream ends a receive**: what its first read makes of it, if that brings a
header, ends. -/
def StreamEnds (reply : SosBuffer) (stream : ByteStream) : Prop :=
  ∀ size s, recvFirst reply stream = .inr (size, s) → RestEnds size s

omit [DoubleCodec] in
/-- A `recv` brings at most what was asked for. -/
theorem ByteStream.length_recv_le {stream stream' : ByteStream} {want : ℕ} {first : List Byte}
    (h : stream.recv want = (some first, stream')) : first.length ≤ want := by
  unfold ByteStream.recv at h
  split at h
  · have hfirst := congrArg Prod.fst h
    dsimp only at hfirst
    split at hfirst
    · obtain rfl := Option.some.inj hfirst
      exact Nat.zero_le _
    · cases hfirst
  · obtain rfl := Option.some.inj (congrArg Prod.fst h)
    exact List.length_take_le _ _

omit [DoubleCodec] in
/-- A turn that finds the message there. -/
theorem recvTurn_there {size : ℤ} (h : size ≤ s.reply.len) :
    recvTurn size s = .done (.returned s.reply.len s.reply) :=
  if_neg (not_lt.mpr h)

omit [DoubleCodec] in
/-- A turn that finds something, or the end of the stream. -/
theorem recvTurn_some {size : ℤ} {stream : ByteStream} (hlen : 0 ≤ s.reply.len)
    (hmore : s.reply.len < size) (hgrow : size ≤ s.reply.max ∨ size + 2 ≤ intMax)
    (hrecv : s.stream.recv (size - s.reply.len).toNat = (some chunk, stream))
    (hchunk : s.reply.len + chunk.length ≤ size) :
    ∃ s', recvTurn size s = .next s' ∧ s'.stream = stream ∧
      s'.reply.len = s.reply.len + chunk.length ∧ size ≤ s'.reply.max := by
  obtain ⟨roomy, hroomy, hsame, hroom, -⟩ := growToSize_eq hgrow
  obtain ⟨stored, hstore, -, -, hmax⟩ := SosBuffer.store_of_le (b := roomy) roomy.len.toNat chunk
    (by omega)
  refine ⟨_, recvTurn_read hmore hroomy (hsame ▸ hrecv) hstore, rfl, ?_, ?_⟩
  · rw [SosBuffer.setLen_len, hsame]
  · rw [SosBuffer.setLen_max, hmax]
    exact hroom

omit [DoubleCodec] in
/-- **The loop returns** exactly when the rest of the message ends. -/
theorem recvTurn_returns_iff {size : ℤ} (hlen : 0 ≤ s.reply.len) (hle : s.reply.len ≤ s.reply.max) :
    (∃ ret received, Returns (recvTurn size) s (.returned ret received)) ↔ RestEnds size s := by
  by_cases hthere : size ≤ s.reply.len
  · exact iff_of_true ⟨_, _, (returns_done (recvTurn_there hthere)).mpr rfl⟩ (.inl hthere)
  have hmore := not_le.mp hthere
  by_cases hgrow : size ≤ s.reply.max ∨ size + 2 ≤ intMax
  · -- one chunk after the other, until one of them is more than is wanted
    induction hchunks : s.stream.chunks generalizing s with
    | nil =>
        cases hending : s.stream.ending with
        | failed =>
            obtain ⟨roomy, hroomy, -⟩ := growToSize_eq hgrow
            refine iff_of_true ⟨-1, roomy, (returns_done ?_).mpr rfl⟩ (.inr ⟨hgrow, .inr hending⟩)
            rw [recvTurn, if_pos hmore, hroomy]
            simp only [ByteStream.recv, hchunks, hending, reduceCtorEq, if_false]
        | closed =>
            refine iff_of_false ?_ ?_
            · rintro ⟨ret, received, hreturns⟩
              refine never_returns (fun s => 0 ≤ s.reply.len ∧ s.reply.len < size ∧
                (size ≤ s.reply.max ∨ size + 2 ≤ intMax) ∧ s.stream.chunks = [] ∧
                s.stream.ending = .closed) ?_ ⟨hlen, hmore, hgrow, hchunks, hending⟩ hreturns
              rintro s ⟨hlen, hmore, hgrow, hchunks, hending⟩
              have hrecv : s.stream.recv (size - s.reply.len).toNat = (some [], s.stream) := by
                simp only [ByteStream.recv, hchunks, hending, if_true]
              obtain ⟨s', hturn, hstream, hlen', hroom⟩ :=
                recvTurn_some hlen hmore hgrow hrecv (by rw [List.length_nil]; omega)
              rw [List.length_nil] at hlen'
              exact ⟨s', hturn, by omega, by omega, .inl hroom, by rw [hstream, hchunks],
                by rw [hstream, hending]⟩
            · rintro (hbefore | ⟨-, hrest | hfailed⟩)
              · exact hthere hbefore
              · rw [hchunks, List.flatten_nil, List.length_nil] at hrest
                omega
              · cases hending.symm.trans hfailed
    | cons chunk chunks ih =>
        have htake : s.reply.len + (chunk.take (size - s.reply.len).toNat).length ≤ size := by
          rw [List.length_take]
          omega
        have hrecv : s.stream.recv (size - s.reply.len).toNat =
            (some (chunk.take (size - s.reply.len).toNat), ⟨if chunk.drop (size - s.reply.len).toNat
              = [] then chunks else chunk.drop (size - s.reply.len).toNat :: chunks,
              s.stream.ending⟩) := by
          rw [ByteStream.recv, hchunks]
        obtain ⟨s', hturn, hstream, hlen', hroom⟩ := recvTurn_some hlen hmore hgrow hrecv htake
        rw [List.length_take] at hlen'
        simp only [returns_next hturn]
        by_cases hall : (size - s.reply.len).toNat ≤ chunk.length
        · have hfull : s'.reply.len = size := by omega
          refine iff_of_true ⟨_, _, (returns_done (recvTurn_there hfull.ge)).mpr rfl⟩
            (.inr ⟨hgrow, .inl ?_⟩)
          rw [hchunks, List.flatten_cons, List.length_append]
          omega
        · have hdrop : chunk.drop (size - s.reply.len).toNat = [] :=
            List.drop_of_length_le (by omega)
          rw [if_pos hdrop] at hstream
          refine (ih (s := s') (by omega) (by omega) (by omega) (by omega) (.inl hroom)
            (by rw [hstream])).trans ?_
          unfold RestEnds
          rw [hstream, hchunks, List.flatten_cons, List.length_append, Nat.cast_add]
          have hlt : ¬ size ≤ s.reply.len + chunk.length := by omega
          have hsum : s'.reply.len = s.reply.len + chunk.length := by omega
          simp only [hsum, hlt, hthere, hroom, hgrow, true_or, true_and, false_or, add_assoc]
  · refine iff_of_false ?_ ?_
    · rintro ⟨ret, received, hreturns⟩
      cases hreturns.unique (returns_crashed hmore hgrow)
    · rintro (hbefore | ⟨hgrow', -⟩)
      · exact hthere hbefore
      · exact hgrow hgrow'

/-- More turns change nothing behind the end of a receive. -/
theorem recvMsg_mono {shutdown : Bool} {stream : ByteStream} {turns more : ℕ} {result : RecvResult}
    (h : recvMsg shutdown reply stream turns = some result) (hle : turns ≤ more) :
    recvMsg shutdown reply stream more = some result := by
  unfold recvMsg at h ⊢
  split_ifs at h ⊢
  · exact h
  · cases hfirst : recvFirst reply stream with
    | inl ended =>
        rw [hfirst] at h
        exact h
    | inr next =>
        rw [hfirst] at h
        exact iterate_mono h hle

/-- What a first read leaves for the loop, if it does not end the receive. -/
theorem recvFirst_cases (reply : SosBuffer) (stream : ByteStream) :
    (∃ ret received, recvFirst reply stream = .inl (.returned ret received)) ∨
      ∃ size s, recvFirst reply stream = .inr (size, s) ∧ 0 ≤ s.reply.len ∧
        s.reply.len ≤ s.reply.max := by
  unfold recvFirst
  cases hrecv : stream.recv reply.max with
  | mk first stream' =>
      cases first with
      | none => exact .inl ⟨-1, _, rfl⟩
      | some first =>
          have hle : first.length ≤ reply.max := stream.length_recv_le hrecv
          obtain ⟨stored, hstore, -, -, hmax⟩ := SosBuffer.store_of_le (b := reply) 0 first
            (by omega)
          dsimp only
          rw [hstore]
          dsimp only
          by_cases hshort : first.length < headerSize
          · exact .inl ⟨-1, _, if_pos hshort⟩
          · obtain ⟨header, hread⟩ := exists_header (b := stored.setLen first.length)
              (by rw [SosBuffer.setLen_max, hmax]; omega)
            refine .inr ⟨header.msgSize.toInt, _, by rw [if_neg hshort, hread], ?_, ?_⟩
            · rw [SosBuffer.setLen_len]
              exact Int.natCast_nonneg _
            · rw [SosBuffer.setLen_len, SosBuffer.setLen_max, hmax]
              exact Int.ofNat_le.mpr hle

/-- **A receive returns** exactly when the runtime is shutting down or the stream
ends it. -/
theorem recvMsg_returns_iff (shutdown : Bool) (reply : SosBuffer) (stream : ByteStream) :
    (∃ turns ret received, recvMsg shutdown reply stream turns = some (.returned ret received)) ↔
      shutdown = true ∨ StreamEnds reply stream := by
  cases shutdown with
  | true => exact iff_of_true ⟨0, -1, reply, rfl⟩ (.inl rfl)
  | false =>
      rw [or_iff_right Bool.false_ne_true]
      rcases recvFirst_cases reply stream with ⟨ret, received, hfirst⟩ | ⟨size, s, hfirst, hlen, hle⟩
      · refine iff_of_true ⟨0, ret, received, ?_⟩ ?_
        · simp only [recvMsg, Bool.false_eq_true, if_false, hfirst]
        · intro size s hnext
          cases hfirst.symm.trans hnext
      · have hends : StreamEnds reply stream ↔ RestEnds size s := by
          constructor
          · exact fun h => h size s hfirst
          · intro h size' s' hnext
            obtain ⟨rfl, rfl⟩ := Prod.mk.inj (Sum.inr.inj (hfirst.symm.trans hnext))
            exact h
        rw [hends, ← recvTurn_returns_iff hlen hle]
        constructor
        · rintro ⟨turns, ret, received, hrecv⟩
          exact ⟨ret, received, (recvMsg_eq hfirst _).mp ⟨turns, hrecv⟩⟩
        · rintro ⟨ret, received, hreturns⟩
          obtain ⟨turns, hturns⟩ := (recvMsg_eq hfirst _).mpr hreturns
          exact ⟨turns, ret, received, hturns⟩

/-! ## A message in one piece -/

omit [DoubleCodec] in
/-- A growth does not look at the length. -/
theorem sosBufferGrow_setLen {b grown : SosBuffer} {n : ℕ} (len : ℤ)
    (h : sosBufferGrow b n = some grown) :
    sosBufferGrow (b.setLen len) n = some (grown.setLen len) := by
  unfold sosBufferGrow at h ⊢
  split at h
  case isTrue hroom =>
    obtain rfl := Option.some.inj h
    exact dif_pos hroom
  case isFalse => cases h

omit [DoubleCodec] in
/-- Nor does a store. -/
theorem SosBuffer.store_setLen {b stored : SosBuffer} {p : ℕ} {xs : List Byte} (len : ℤ)
    (h : b.store p xs = some stored) : (b.setLen len).store p xs = some (stored.setLen len) := by
  obtain ⟨hdata, -⟩ := SosBuffer.store_some h
  exact SosBuffer.store_of_mem hdata rfl

/-- **A message that is there in one piece** is received as `sosTargetRecvMsg` says. -/
theorem recvMsg_one_chunk {sent : List Byte} {received : SosBuffer} (ending : StreamEnd)
    (h : sosTargetRecvMsg reply sent = some received) :
    ∃ turns, recvMsg false reply ⟨[sent], ending⟩ turns =
      some (.returned received.len received) := by
  obtain ⟨stored, hstore, h⟩ := Option.bind_eq_some_iff.mp h
  by_cases hshort : (sent.take reply.max).length < headerSize
  · rw [if_pos hshort] at h
    cases h
  rw [if_neg hshort] at h
  obtain ⟨⟨header, offset⟩, hread, h⟩ := Option.bind_eq_some_iff.mp h
  dsimp only at h
  obtain ⟨hmem, -⟩ := SosBuffer.store_some hstore
  have hmax : stored.max = reply.max := Mem.length_store hmem
  have hlen : (sent.take reply.max).length ≤ reply.max := by
    rw [List.length_take]
    omega
  have hheader : headerSize ≤ reply.max := by omega
  have hpos : 0 < headerSize := by decide
  have hholds := holds_of_sosMsgUnzip (b := stored) (by omega) hread
  have hread' : sosMsgUnzip (stored.setLen (sent.take reply.max).length) 0 =
      some (header, headerSize) := by
    refine sosMsgUnzip_of_holds ?_ hholds
    rw [SosBuffer.setLen_max, hmax]
    exact hheader
  let left := if sent.drop reply.max = [] then [] else [sent.drop reply.max]
  have hfirst : recvFirst reply ⟨[sent], ending⟩ = .inr (header.msgSize.toInt,
      ⟨stored.setLen (sent.take reply.max).length, ⟨left, ending⟩⟩) := by
    unfold recvFirst ByteStream.recv
    dsimp only
    rw [hstore]
    dsimp only
    rw [if_neg hshort, hread']
  refine (recvMsg_eq hfirst _).mpr ?_
  generalize hfirstLen : (sent.take reply.max).length = n at *
  generalize header.msgSize.toInt = size at *
  by_cases hmore : size > n
  · rw [if_pos hmore] at h
    have hgrown : ∃ grown, growToSize stored size = some grown ∧
        (grown.store n ((sent.drop n).take (size - n).toNat)).bind (fun stored' =>
          if (n + ((sent.drop n).take (size - n).toNat).length : ℤ) < size then none
          else some (stored'.setLen (n + ((sent.drop n).take (size - n).toNat).length : ℕ))) =
        some received := by
      unfold growToSize
      by_cases hgrow : size > stored.max
      · rw [if_pos hgrow] at h ⊢
        exact Option.bind_eq_some_iff.mp h
      · rw [if_neg hgrow] at h ⊢
        exact ⟨stored, rfl, h⟩
    obtain ⟨grown, hgrow, h⟩ := hgrown
    obtain ⟨stored', hstore', h⟩ := Option.bind_eq_some_iff.mp h
    split_ifs at h with hall
    obtain rfl := Option.some.inj h
    have hrest : (sent.drop n).take (size - n).toNat ≠ [] := by
      intro hnil
      rw [hnil, List.length_nil] at hall
      omega
    -- something is left of the chunk, so the buffer was filled
    have hn : n = reply.max := by
      rw [List.length_take] at hfirstLen
      have hne : (sent.drop n).length ≠ 0 := by
        intro hzero
        rw [List.eq_nil_of_length_eq_zero hzero, List.take_nil] at hrest
        exact hrest rfl
      rw [List.length_drop] at hne
      omega
    have hleft : left = [sent.drop n] := by
      have hne : sent.drop reply.max ≠ [] := by
        intro hnil
        rw [hn, hnil, List.take_nil] at hrest
        exact hrest rfl
      rw [show left = [sent.drop reply.max] from if_neg hne, hn]
    have hgrow' : growToSize (stored.setLen n) size = some (grown.setLen n) := by
      unfold growToSize at hgrow ⊢
      rw [SosBuffer.setLen_max]
      by_cases hmax' : size > stored.max
      · rw [if_pos hmax'] at hgrow ⊢
        exact sosBufferGrow_setLen n hgrow
      · rw [if_neg hmax'] at hgrow ⊢
        rw [Option.some.inj hgrow]
    have hstored := SosBuffer.store_setLen n hstore'
    have hturn : recvTurn size ⟨stored.setLen n, ⟨left, ending⟩⟩ = .next
        ⟨stored'.setLen (n + ((sent.drop n).take (size - n).toNat).length : ℕ),
          ⟨if (sent.drop n).drop (size - n).toNat = [] then []
            else [(sent.drop n).drop (size - n).toNat], ending⟩⟩ := by
      refine (recvTurn_read hmore hgrow' ?_ hstored).trans rfl
      rw [hleft]
      rfl
    rw [returns_next hturn]
    refine (returns_done ?_).mpr rfl
    refine if_neg ?_
    rw [SosBuffer.setLen_len]
    omega
  · rw [if_neg hmore] at h
    obtain rfl := Option.some.inj h
    refine (returns_done ?_).mpr rfl
    exact if_neg hmore

end

/-- A header that says it comes with two bytes, and these. -/
def shortMessage : WireMessage := ⟨⟨26, MsgType.ack.code, 0, 0⟩, [0, 0], rfl⟩

section

variable [DoubleCodec]

/-- It arrives whole, ten bytes first. -/
def tenFirst : Delivery shortMessage where
  chunks := [shortMessage.bytes.take 10, shortMessage.bytes.drop 10]
  ending := .closed
  nonempty := by
    intro chunk hchunk
    rcases List.mem_cons.mp hchunk with rfl | hrest
    · exact List.cons_ne_nil _ _
    · rw [List.mem_singleton.mp hrest]
      exact List.cons_ne_nil _ _
  prefix_bytes := by
    rw [List.flatten_cons, List.flatten_singleton, List.take_append_drop]

/-- Its header arrives, and the connection is closed. -/
def onlyHeader : Delivery shortMessage where
  chunks := [shortMessage.header.enc]
  ending := .closed
  nonempty := by
    intro chunk hchunk
    rw [List.mem_singleton.mp hchunk]
    exact List.cons_ne_nil _ _
  prefix_bytes := List.prefix_append _ _

theorem firstRead_tenFirst (reply : SosBuffer) :
    tenFirst.firstRead reply < headerSize := by
  have hten : (tenFirst.chunks.headD []).length ≤ 10 := List.length_take_le _ _
  unfold Delivery.firstRead headerSize
  omega

theorem firstRead_onlyHeader {reply : SosBuffer} (h : headerSize ≤ reply.max) :
    headerSize ≤ onlyHeader.firstRead reply := by
  have hlen : (onlyHeader.chunks.headD []).length = headerSize := SosMsgHeader.length_enc _
  unfold Delivery.firstRead
  omega

theorem not_whole_onlyHeader : ¬ onlyHeader.Whole := by
  intro h
  have hlen := congrArg List.length h
  rw [WireMessage.length_bytes] at hlen
  simp [onlyHeader, shortMessage, WireMessage.size] at hlen

end

/-- **The first is lost and the second is waited for** for ever. -/
theorem not_reassembles :
    letI := DoubleCodec.bits
    (∃ received, ∀ turns, recvMsg false sosBufferInit tenFirst.toByteStream turns =
      some (.returned (-1) received)) ∧
    (∀ turns, recvMsg false sosBufferInit onlyHeader.toByteStream turns = none) ∧
    ¬ ∀ reply message, ∀ delivery : Delivery message, Reassembles false reply message delivery := by
  let _ := DoubleCodec.bits
  obtain ⟨received, hfirst⟩ := recvFirst_short tenFirst (firstRead_tenFirst sosBufferInit)
  have hlost : ∀ turns, recvMsg false sosBufferInit tenFirst.toByteStream turns =
      some (.returned (-1) received) := by
    intro turns
    simp only [recvMsg, Bool.false_eq_true, if_false, hfirst]
  refine ⟨⟨received, hlost⟩, ?_, ?_⟩
  · intro turns
    have hmax : headerSize ≤ sosBufferInit.max := by
      rw [show sosBufferInit.max = sosDefaultBufferMax from List.length_replicate]
      decide
    obtain ⟨s, hheader, -, -, hending, hreceiving⟩ :=
      recvFirst_header onlyHeader (firstRead_onlyHeader hmax)
    obtain ⟨got, hgot⟩ := hreceiving (.inr (by decide))
    rw [Option.eq_none_iff_forall_ne_some]
    intro result hresult
    exact hgot.never_closed not_whole_onlyHeader hending result
      ((recvMsg_eq hheader result).mp ⟨turns, hresult⟩)
  · intro hall
    obtain ⟨turns, ret, received', hrecv, hwhole, -⟩ := hall sosBufferInit shortMessage tenFirst
    obtain ⟨rfl, -⟩ :=
      RecvResult.returned.inj (Option.some.inj ((hlost turns).symm.trans hrecv))
    have harrived : tenFirst.Whole := by
      rw [Delivery.Whole, tenFirst, List.flatten_cons, List.flatten_singleton,
        List.take_append_drop]
    have hsize := (hwhole harrived).1
    omega

end SosFlow
