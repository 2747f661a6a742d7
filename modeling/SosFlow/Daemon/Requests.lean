import SosFlow.Analytics.CacheQuery
import SosFlow.Socket.Listen

/-!
# What a client asks of a daemon

A client asks for the answer to a query, or for what the caches of a daemon
hold. It packs its own host and the port it receives on, so the daemon knows
where to send the results, and a guid by which it will know them again.

A request that fits its buffer is taken apart by the daemon as it was meant,
and goes to the handler of its kind (`requests_received`).
-/

namespace SosFlow

open Mem (Holds)

/-- `SOSD_query_handle`, as `SOSD_handle_query` fills it. -/
structure QueryHandle where
  replyToGuid : SosGuid
  queryGuid : SosGuid
  querySql : CString
  replyHost : CString
  replyPort : CInt
deriving DecidableEq

/-- `SOSD_cache_grab_handle`, as `SOSD_handle_cache_grab` fills it. -/
structure CacheGrabHandle where
  replyHost : CString
  replyPort : CInt
  pubFilterRegex : CString
  valFilterRegex : CString
  frameHead : CInt
  frameDepthLimit : CInt
  reqGuid : SosGuid
deriving DecidableEq

section

variable [DoubleCodec]

/-- What `SOSD_handle_query` takes from its message. -/
def queryHandleOf (buffer : SosBuffer) : Option QueryHandle := do
  let (header, offset) ← sosMsgUnzip buffer 0
  let (replyHost, b, offset) ← unpackString buffer offset
  let (replyPort, b, offset) ← unpackInt b offset
  let (querySql, b, offset) ← unpackString b offset
  let (queryGuid, _, _) ← unpackGuid b offset
  some ⟨header.msgFrom, queryGuid, querySql, replyHost, replyPort⟩

/-- What `SOSD_handle_cache_grab` takes from its message. -/
def cacheGrabHandleOf (msg : SosBuffer) : Option CacheGrabHandle := do
  let (_, offset) ← sosMsgUnzip msg 0
  let (replyHost, b, offset) ← unpackString msg offset
  let (replyPort, b, offset) ← unpackInt b offset
  let (pubFilterRegex, b, offset) ← unpackString b offset
  let (valFilterRegex, b, offset) ← unpackString b offset
  let (frameHead, b, offset) ← unpackInt b offset
  let (frameDepthLimit, b, offset) ← unpackInt b offset
  let (reqGuid, _, _) ← unpackGuid b offset
  some ⟨replyHost, replyPort, pubFilterRegex, valFilterRegex, frameHead, frameDepthLimit, reqGuid⟩

/-- **A request on its way**: built, sent, and received into the buffer of the listen
loop, which hands it to a handler. -/
def Layout.arrive (l : Layout) (inlet : Inlet) : Option (DaemonHandler × SosBuffer) := do
  let m ← l.build
  let sent ← submitted m.buffer
  let b ← inlet.recv sent
  let (header, _) ← sosMsgUnzip b 0
  some (daemonHandlerOf header.msgType, b)

/-! ## The way of a message -/

variable {l : Layout} {inlet : Inlet}

/-- **A message that fits arrives**, with its header and its body. -/
theorem Layout.arrive_of_fits (hfits : l.Fits)
    (hroom : inlet.Receives (headerSize + (encCalls l.calls).length)) :
    ∃ b msgSize, l.arrive inlet = some (daemonHandlerOf l.msgType, b) ∧
      Shows b ((SosMsgHeader.mk msgSize l.msgType l.msgFrom l.refGuid).enc ++
        encCalls l.calls) := by
  obtain ⟨m, hm, hframed⟩ := Layout.builds_framed_iff.mpr hfits
  have hlength (msgSize : CInt) : ((SosMsgHeader.mk msgSize l.msgType l.msgFrom l.refGuid).enc ++
      encCalls l.calls).length = headerSize + (encCalls l.calls).length := by
    rw [List.length_append, SosMsgHeader.length_enc]
  have hbound := hframed.bytes.bound (by simp [SosMsgHeader.enc, SosMsgHeader.fields,
    Field.enc_ne_nil])
  rw [Nat.zero_add] at hbound
  have hshows : Shows m.buffer ((SosMsgHeader.mk (BitVec.ofInt 32 m.buffer.len) l.msgType
      l.msgFrom l.refGuid).enc ++ encCalls l.calls) :=
    ⟨hframed.bytes, hbound, by rw [hlength, hframed.len]⟩
  have hsize : BitVec.ofInt 32 m.buffer.len =
      BitVec.ofNat 32 (headerSize + (encCalls l.calls).length) := by
    rw [hframed.len]
    rfl
  have hroom' : inlet.Receives ((SosMsgHeader.mk (BitVec.ofInt 32 m.buffer.len) l.msgType
      l.msgFrom l.refGuid).enc ++ encCalls l.calls).length := by
    rw [hlength]
    exact hroom
  obtain ⟨b, hb, hreceived⟩ := Inlet.recv_returns rfl (by rw [hlength]; exact hsize) hroom'
  have hread := sosMsgUnzip_of_holds
    (by
      have hle := hreceived.le_max
      rw [hlength] at hle
      omega)
    (Mem.holds_append.mp hreceived.holds).1
  refine ⟨b, BitVec.ofInt 32 m.buffer.len, ?_, hreceived⟩
  have hbuild : l.build = some m := hm
  simp only [Layout.arrive, hbuild, hshows.submitted, hb, hread, Option.bind_eq_bind,
    Option.bind_some]

/-! ## The two requests -/

variable {b : SosBuffer} {msgSize commRank receivesPort : CInt} {nodeId : CString}

/-- **A query is read as it was packed.** -/
theorem queryHandleOf_shown {query : CString} {queryGuid : SosGuid}
    (h : Shows b ((SosMsgHeader.mk msgSize MsgType.query.code (rankGuid commRank) 0).enc ++
      encCalls (sosaExecQuery commRank nodeId query receivesPort queryGuid).calls)) :
    queryHandleOf b = some ⟨rankGuid commRank, queryGuid, query, nodeId, receivesPort⟩ := by
  have hbody : encCalls (sosaExecQuery commRank nodeId query receivesPort queryGuid).calls =
      (Field.s nodeId).enc ++ ((Field.i receivesPort).enc ++ ((Field.s query).enc ++
        (Field.g queryGuid).enc)) := by
    simp [sosaExecQuery, encCalls, PackCall.enc, encAll]
  have hi : (Field.i receivesPort).size = 4 := rfl
  have hg : (Field.g queryGuid).size = 8 := rfl
  have hs (v : CString) : (Field.s v).size = 4 + v.length := rfl
  have hle := h.le_max
  have hmax := b.max_le_intMax
  have hheld := h.holds
  rw [hbody] at hheld hle
  simp only [List.length_append, SosMsgHeader.length_enc, Field.length_enc, hi, hg] at hle
  simp only [Mem.holds_append, SosMsgHeader.length_enc, Field.length_enc, Nat.zero_add, hi] at hheld
  obtain ⟨hheader, hhost, hport, hsql, hguid⟩ := hheld
  have hnode := hs nodeId
  have hquery := hs query
  have hread := sosMsgUnzip_of_holds (by omega) hheader
  have hhost' := unpackString_of_holds (by omega) hhost (by omega)
  have hport' := unpackInt_of_holds hport (by omega)
  have hsql' := unpackString_of_holds (by omega) hsql (by omega)
  have hguid' := unpackGuid_of_holds hguid (by omega)
  simp only [queryHandleOf, hread, hhost', hport', hsql', hguid', Option.bind_eq_bind,
    Option.bind_some]

/-- **So is a request of the caches.** -/
theorem cacheGrabHandleOf_shown {pubFilterRegex valFilterRegex : CString}
    {frameHead frameDepthLimit : CInt} {requestGuid : SosGuid}
    (h : Shows b ((SosMsgHeader.mk msgSize MsgType.cacheGrab.code (rankGuid commRank) 0).enc ++
      encCalls (sosaCacheGrab commRank nodeId pubFilterRegex valFilterRegex receivesPort frameHead
        frameDepthLimit requestGuid).calls)) :
    cacheGrabHandleOf b = some ⟨nodeId, receivesPort, pubFilterRegex, valFilterRegex, frameHead,
      frameDepthLimit, requestGuid⟩ := by
  have hbody : encCalls (sosaCacheGrab commRank nodeId pubFilterRegex valFilterRegex receivesPort
      frameHead frameDepthLimit requestGuid).calls =
      (Field.s nodeId).enc ++ ((Field.i receivesPort).enc ++ ((Field.s pubFilterRegex).enc ++
        ((Field.s valFilterRegex).enc ++ ((Field.i frameHead).enc ++
          ((Field.i frameDepthLimit).enc ++ (Field.g requestGuid).enc))))) := by
    simp [sosaCacheGrab, encCalls, PackCall.enc, encAll]
  have hi (i : CInt) : (Field.i i).size = 4 := rfl
  have hg : (Field.g requestGuid).size = 8 := rfl
  have hs (v : CString) : (Field.s v).size = 4 + v.length := rfl
  have hle := h.le_max
  have hmax := b.max_le_intMax
  have hheld := h.holds
  rw [hbody] at hheld hle
  simp only [List.length_append, SosMsgHeader.length_enc, Field.length_enc, hi, hg] at hle
  simp only [Mem.holds_append, SosMsgHeader.length_enc, Field.length_enc, Nat.zero_add, hi] at hheld
  obtain ⟨hheader, hhost, hport, hpub, hval, hhead, hlimit, hguid⟩ := hheld
  have hnode := hs nodeId
  have hpubs := hs pubFilterRegex
  have hvals := hs valFilterRegex
  have hread := sosMsgUnzip_of_holds (by omega) hheader
  have hhost' := unpackString_of_holds (by omega) hhost (by omega)
  have hport' := unpackInt_of_holds hport (by omega)
  have hpub' := unpackString_of_holds (by omega) hpub (by omega)
  have hval' := unpackString_of_holds (by omega) hval (by omega)
  have hhead' := unpackInt_of_holds hhead (by omega)
  have hlimit' := unpackInt_of_holds hlimit (by omega)
  have hguid' := unpackGuid_of_holds hguid (by omega)
  simp only [cacheGrabHandleOf, hread, hhost', hport', hpub', hval', hhead', hlimit', hguid',
    Option.bind_eq_bind, Option.bind_some]

/-- **What a client asks for is what the daemon reads**, and who reads it is the handler
of its kind. The bytes of a request are handed over whole, as a receive that is complete
does it. -/
theorem requests_received (commRank receivesPort : CInt) (nodeId : CString) (inlet : Inlet) :
    (∀ query queryGuid,
      (sosaExecQuery commRank nodeId query receivesPort queryGuid).Fits →
      inlet.Receives (headerSize +
        (encCalls (sosaExecQuery commRank nodeId query receivesPort queryGuid).calls).length) →
      ∃ b, (sosaExecQuery commRank nodeId query receivesPort queryGuid).arrive inlet =
          some (.query, b) ∧
        queryHandleOf b = some ⟨rankGuid commRank, queryGuid, query, nodeId, receivesPort⟩) ∧
    ∀ pubFilterRegex valFilterRegex frameHead frameDepthLimit requestGuid,
      (sosaCacheGrab commRank nodeId pubFilterRegex valFilterRegex receivesPort frameHead
        frameDepthLimit requestGuid).Fits →
      inlet.Receives (headerSize + (encCalls (sosaCacheGrab commRank nodeId pubFilterRegex
        valFilterRegex receivesPort frameHead frameDepthLimit requestGuid).calls).length) →
      ∃ b, (sosaCacheGrab commRank nodeId pubFilterRegex valFilterRegex receivesPort frameHead
          frameDepthLimit requestGuid).arrive inlet = some (.cacheGrab, b) ∧
        cacheGrabHandleOf b = some ⟨nodeId, receivesPort, pubFilterRegex, valFilterRegex, frameHead,
          frameDepthLimit, requestGuid⟩ := by
  constructor
  · intro query queryGuid hfits hroom
    obtain ⟨b, msgSize, hb, hshows⟩ := Layout.arrive_of_fits hfits hroom
    exact ⟨b, hb, queryHandleOf_shown hshows⟩
  · intro pubFilterRegex valFilterRegex frameHead frameDepthLimit requestGuid hfits hroom
    obtain ⟨b, msgSize, hb, hshows⟩ := Layout.arrive_of_fits hfits hroom
    exact ⟨b, hb, cacheGrabHandleOf_shown hshows⟩

end

/-- The buffer of a listen loop that has just started. -/
def freshInlet : Inlet where
  buffer := sosBufferInit
  le_max := sosBufferInit_max.ge

theorem requests_received_short :
    letI := DoubleCodec.bits
    ∃ b b', (sosaExecQuery 0 nameX nameX 22500 7).arrive freshInlet = some (.query, b) ∧
      queryHandleOf b = some ⟨0, 7, nameX, nameX, 22500⟩ ∧
      (sosaCacheGrab 0 nameX nameX nameX 22500 (-1) (-1) 8).arrive freshInlet =
        some (.cacheGrab, b') ∧
      cacheGrabHandleOf b' = some ⟨nameX, 22500, nameX, nameX, -1, -1, 8⟩ := by
  let _ := DoubleCodec.bits
  obtain ⟨hquery, hgrab⟩ := requests_received 0 22500 nameX freshInlet
  obtain ⟨b, hb, hread⟩ := hquery nameX 7 (by decide) (.inr (by decide))
  obtain ⟨b', hb', hread'⟩ := hgrab nameX nameX (-1) (-1) 8 (by decide) (.inr (by decide))
  exact ⟨b, b', hb, hread, hb', hread'⟩

end SosFlow
