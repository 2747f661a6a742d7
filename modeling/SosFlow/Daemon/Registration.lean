import SosFlow.Guid.Uid
import SosFlow.Msg.Framing

/-!
# A registration that is refused

The daemon writes its refusal into the reply, and goes on: a client that is
new is given a block from the pool and the normal reply is packed over the
refusal, and one that is coming back is sent an ACK whose length is still
that of the refusal. So every refusal gives something away or is no message.
-/

namespace SosFlow

/-- **What a REGISTER message says** of the client that sent it. -/
structure RegisterRequest where
  header : SosMsgHeader
  versionMajor : CInt
  versionMinor : CInt
  clientUid : CInt

/-- **What the daemon answers a registration from.** -/
structure RegisterDaemon where
  guid : SosUid
  serverUid : CInt
  commRank : CInt

/-- `SOS_VERSION_MAJOR`. -/
def sosVersionMajor : CInt := 1

/-- `SOS_VERSION_MINOR`. -/
def sosVersionMinor : CInt := 30

/-- **What a client reads** of the reply to its registration. -/
structure RegisterReply where
  guidPoolFrom : SosGuid
  guidPoolTo : SosGuid
  serverVersionMajor : CInt
  serverVersionMinor : CInt
  serverUid : CInt
deriving DecidableEq

/-- The check of `SOS_init_existing_runtime` that ends in a refused
connection. -/
def RegisterReply.refuses (r : RegisterReply) (clientUid : CInt) : Bool := r.serverUid ≠ clientUid

/-- **A claim never leaves the pool as it was with a block of zeros.** -/
theorem claim_ne_zero (id : SosUid) : sosdClaimGuidBlock id guidBlock ≠ ((0, 0), id) := by
  intro h
  unfold sosdClaimGuidBlock at h
  split at h
  · obtain ⟨hblock, hid⟩ := Prod.mk.inj h
    have hlast : id.last = 0 := (Prod.mk.inj hblock).2
    have hzero : id.next = 0 := (Prod.mk.inj hblock).1
    have hnext : id.last + 1 = id.next := congrArg SosUid.next hid
    rw [hlast, hzero] at hnext
    exact absurd hnext (by decide)
  · obtain ⟨hblock, -⟩ := Prod.mk.inj h
    have hzero : id.next = 0 := (Prod.mk.inj hblock).1
    have hto : id.next + guidBlock = 0 := (Prod.mk.inj hblock).2
    rw [hzero] at hto
    exact absurd hto (by decide)

section

variable [DoubleCodec]

/-- The reading half of `SOSD_handle_register`. -/
def unpackRegister (buffer : SosBuffer) : Option RegisterRequest := do
  let (header, offset) ← sosMsgUnzip buffer 0
  let version ← sosBufferUnpack buffer offset ['i', 'i']
  let uid ← sosBufferUnpack version.buffer version.offset ['i']
  match version.outs, uid.outs with
  | [some (.int versionMajor), some (.int versionMinor)], [some (.int clientUid)] =>
      some ⟨header, versionMajor, versionMinor, clientUid⟩
  | _, _ => none

/-- The reading half of `SOS_init_existing_runtime`. -/
def unpackReply (buffer : SosBuffer) : Option RegisterReply := do
  let (_, offset) ← sosMsgUnzip buffer 0
  let pool ← sosBufferUnpack buffer offset ['g', 'g']
  let version ← sosBufferUnpack pool.buffer pool.offset ['i', 'i']
  let uid ← sosBufferUnpack version.buffer version.offset ['i']
  match pool.outs, version.outs, uid.outs with
  | [some (.guid guidPoolFrom), some (.guid guidPoolTo)],
      [some (.int serverVersionMajor), some (.int serverVersionMinor)],
      [some (.int serverUid)] =>
      some ⟨guidPoolFrom, guidPoolTo, serverVersionMajor, serverVersionMinor, serverUid⟩
  | _, _, _ => none

/-- **`SOSD_handle_register`**: the pool behind it, and the reply. The refusal does not
return, and a new client is given a block. -/
def handleRegister (d : RegisterDaemon) (buffer : SosBuffer) : Option (SosUid × Built) := do
  let request ← unpackRegister buffer
  let claim :=
    if request.header.msgFrom = 0 then sosdClaimGuidBlock d.guid guidBlock else ((0, 0), d.guid)
  let reply ← sosdHandleRegister ⟨request.header, request.clientUid ≠ d.serverUid, claim.1.1,
    claim.1.2, sosVersionMajor, sosVersionMinor, d.serverUid, d.commRank⟩
  some (claim.2, reply)

/-- **A refusal that gives nothing away**: no guid leaves the pool, and the reply is
a message whose size is its length, with a range of zeros, the daemon's
version and uid, on which the client refuses in turn. -/
def RefusedCleanly (d : RegisterDaemon) (buffer : SosBuffer) : Prop :=
  ∃ request ∈ unpackRegister buffer, ∃ reply, handleRegister d buffer = some (d.guid, reply) ∧
    (∃ header, sosMsgUnzip reply.buffer 0 = some (header, headerSize) ∧
      header.msgSize.toInt = reply.buffer.len) ∧
    unpackReply reply.buffer = some ⟨0, 0, sosVersionMajor, sosVersionMinor, d.serverUid⟩ ∧
    RegisterReply.refuses ⟨0, 0, sosVersionMajor, sosVersionMinor, d.serverUid⟩ request.clientUid

/-! ## Reading what was packed -/

variable {buffer : SosBuffer}

/-- Two `int`s are read. -/
theorem unpack_ints (offset : ℕ) (v w : CInt)
    (hholds : Mem.Holds buffer.data offset (encAll [.i v, .i w])) (hin : offset + 8 ≤ buffer.max) :
    sosBufferUnpack buffer offset ['i', 'i'] =
      some ⟨buffer, offset + 8, 8, [some (.int v), some (.int w)]⟩ :=
  sosBufferUnpack_fields [.i v, .i w] (by simp) (by simp [Field.IsBlock])
    (by simp [Field.Short]) hholds hin

/-- An `int` is read. -/
theorem unpack_int (offset : ℕ) (v : CInt) (hholds : Mem.Holds buffer.data offset (encAll [.i v]))
    (hin : offset + 4 ≤ buffer.max) :
    sosBufferUnpack buffer offset ['i'] = some ⟨buffer, offset + 4, 4, [some (.int v)]⟩ :=
  sosBufferUnpack_one (f := .i v) rfl id trivial (by simpa using hholds) hin

/-- Two guids are read. -/
theorem unpack_guids (offset : ℕ) (v w : SosGuid)
    (hholds : Mem.Holds buffer.data offset (encAll [.g v, .g w]))
    (hin : offset + 16 ≤ buffer.max) :
    sosBufferUnpack buffer offset ['g', 'g'] =
      some ⟨buffer, offset + 16, 16, [some (.guid v), some (.guid w)]⟩ :=
  sosBufferUnpack_fields [.g v, .g w] (by simp) (by simp [Field.IsBlock])
    (by simp [Field.Short]) hholds hin

/-- **A request is read as it was packed.** -/
theorem unpackRegister_of_holds (q : RegisterRequest) (hmax : 36 ≤ buffer.max)
    (h : Mem.Holds buffer.data 0 (q.header.enc ++
      (encAll [.i q.versionMajor, .i q.versionMinor] ++ encAll [.i q.clientUid]))) :
    unpackRegister buffer = some q := by
  rw [Mem.holds_append, Mem.holds_append] at h
  obtain ⟨hheader, hversion, huid⟩ := h
  rw [unpackRegister, sosMsgUnzip_of_holds (by unfold headerSize; omega) hheader]
  simp only [Option.bind_eq_bind, Option.bind_some]
  rw [unpack_ints headerSize _ _ hversion (by change 24 + 8 ≤ buffer.max; omega)]
  simp only [Option.bind_some]
  rw [unpack_int (headerSize + 8) _ huid (by change 32 + 4 ≤ buffer.max; omega)]
  rfl

/-- **A reply with guids is read as it was packed.** -/
theorem unpackReply_of_holds (header : SosMsgHeader) (r : RegisterReply) (hmax : 52 ≤ buffer.max)
    (h : Mem.Holds buffer.data 0 (header.enc ++ (encAll [.g r.guidPoolFrom, .g r.guidPoolTo] ++
      (encAll [.i r.serverVersionMajor, .i r.serverVersionMinor] ++ encAll [.i r.serverUid])))) :
    unpackReply buffer = some r := by
  rw [Mem.holds_append, Mem.holds_append, Mem.holds_append] at h
  obtain ⟨hheader, hpool, hversion, huid⟩ := h
  rw [unpackReply, sosMsgUnzip_of_holds (by unfold headerSize; omega) hheader]
  simp only [Option.bind_eq_bind, Option.bind_some]
  rw [unpack_guids headerSize _ _ hpool (by change 24 + 16 ≤ buffer.max; omega)]
  simp only [Option.bind_some]
  rw [unpack_ints (headerSize + 16) _ _ hversion (by change 40 + 8 ≤ buffer.max; omega)]
  simp only [Option.bind_some]
  rw [unpack_int (headerSize + 16 + 8) _ huid (by change 48 + 4 ≤ buffer.max; omega)]
  rfl

/-! ## What the refusal becomes -/

/-- A message without a body has a header's size in its header. -/
theorem unzip_of_no_body {b : SosBuffer} {l : Layout} {m : Built} (hnil : l.calls = [])
    (h : zipPackZip b l = some m) :
    sosMsgUnzip m.buffer 0 = some (⟨24, l.msgType, l.msgFrom, l.refGuid⟩, headerSize) := by
  obtain ⟨r₁, hzip₁, h⟩ := Option.bind_eq_some_iff.mp h
  obtain ⟨body, hrun, h⟩ := Option.bind_eq_some_iff.mp h
  obtain ⟨r₃, hzip₃, h⟩ := Option.bind_eq_some_iff.mp h
  obtain rfl := Option.some.inj h
  rw [hnil] at hrun
  obtain rfl := Option.some.inj hrun
  have hroom := sosMsgZip_bound hzip₃
  obtain ⟨r, hr, h₁⟩ := sosMsgZip_start _ (sosMsgZip_bound hzip₁)
  obtain ⟨z, hz, h₃⟩ := sosMsgZip_start _ hroom
  obtain rfl := Option.some.inj (hr.symm.trans hzip₁)
  obtain rfl := Option.some.inj (hz.symm.trans hzip₃)
  have hoff : r.offset = headerSize := h₁.newOffset
  rw [sosMsgUnzip_of_holds (by rw [h₃.max]; exact hroom) h₃.holds, hoff]
  rfl

/-- **A refused client that is coming back** is sent more than the header says. -/
theorem length_of_refused_ack {g : Registration} {m : Built} (hrefused : g.refused = true)
    (hback : g.request.msgFrom ≠ 0) (h : sosdHandleRegister g = some m) :
    (∃ header, sosMsgUnzip m.buffer 0 = some (header, headerSize) ∧ header.msgSize = 24) ∧
      52 ≤ m.buffer.len := by
  obtain ⟨b, hb⟩ := bufferOfSize_eq sosDefaultBufferMax ⟨by decide, by decide⟩
  obtain ⟨hmax, hlen, -⟩ := bufferOfSize_some hb
  rw [sosdHandleRegister, hb] at h
  change ((packRefusal b g).bind fun b => zipPackZip b (registerLayout g)) = some m at h
  obtain ⟨b', hrefusal, hzip⟩ := Option.bind_eq_some_iff.mp h
  obtain ⟨b'', hrefusal', hlen', -⟩ :=
    packRefusal_of_refused hrefused (by exact_mod_cast hmax.symm) hlen
  obtain rfl := Option.some.inj (hrefusal'.symm.trans hrefusal)
  have hnil : (registerLayout g).calls = [] := by
    rw [registerLayout, if_neg hback]
    rfl
  have hlong := len_of_no_body hnil hzip
  rw [hlen'] at hlong
  exact ⟨⟨_, unzip_of_no_body hnil hzip, rfl⟩, hlong⟩

/-- **A refused client that is new** reads the block that was claimed for it. -/
theorem unpackReply_of_refused_new {g : Registration} {m : Built} (hnew : g.request.msgFrom = 0)
    (h : sosdHandleRegister g = some m) :
    unpackReply m.buffer =
      some ⟨g.blockFrom, g.blockTo, g.versionMajor, g.versionMinor, g.serverUid⟩ := by
  obtain ⟨m', hm', hframed⟩ := sosdHandleRegister_framed_iff.mpr fun _ => hnew
  obtain rfl := Option.some.inj (h.symm.trans hm')
  have hlayout : registerLayout g = ⟨sosDefaultBufferMax, MsgType.register.code,
      rankGuid g.commRank, 0, [.fields [.g g.blockFrom, .g g.blockTo],
        .fields [.i g.versionMajor, .i g.versionMinor], .fields [.i g.serverUid]]⟩ :=
    if_pos hnew
  have hbytes := hframed.bytes
  rw [hlayout] at hbytes
  have hbound := hbytes.bound
    (by simp [SosMsgHeader.enc, SosMsgHeader.fields, encAll, Field.enc_ne_nil])
  rw [List.length_append, SosMsgHeader.length_enc] at hbound
  refine unpackReply_of_holds _ ⟨g.blockFrom, g.blockTo, g.versionMajor, g.versionMinor,
    g.serverUid⟩ hbound hbytes

/-- What the daemon does with a request it can read. -/
theorem handleRegister_eq {d : RegisterDaemon} {q : RegisterRequest} {reply : Built} {guid : SosUid}
    (hrequest : unpackRegister buffer = some q) (h : handleRegister d buffer = some (guid, reply)) :
    ∃ claim, claim = (if q.header.msgFrom = 0 then sosdClaimGuidBlock d.guid guidBlock
        else ((0, 0), d.guid)) ∧ claim.2 = guid ∧
      sosdHandleRegister ⟨q.header, q.clientUid ≠ d.serverUid, claim.1.1, claim.1.2,
        sosVersionMajor, sosVersionMinor, d.serverUid, d.commRank⟩ = some reply := by
  rw [handleRegister, hrequest] at h
  simp only [Option.bind_eq_bind, Option.bind_some] at h
  obtain ⟨reply', hreply, h⟩ := Option.bind_eq_some_iff.mp h
  obtain ⟨hguid, rfl⟩ := Prod.mk.inj (Option.some.inj h)
  exact ⟨_, rfl, hguid, hreply⟩

/-- **A new client is given the block that is claimed for it**, refused or not. -/
theorem not_refusedCleanly_new {d : RegisterDaemon} {q : RegisterRequest}
    (hrequest : unpackRegister buffer = some q) (hnew : q.header.msgFrom = 0) :
    ¬ RefusedCleanly d buffer := by
  rintro ⟨q', -, m, hhandle, -, hreply, -⟩
  obtain ⟨claim, hclaim, hguid, hm⟩ := handleRegister_eq hrequest hhandle
  rw [if_pos hnew] at hclaim
  have hread := (unpackReply_of_refused_new hnew hm).symm.trans hreply
  simp only [Option.some_inj, RegisterReply.mk.injEq] at hread
  obtain ⟨hfrom, hto, -⟩ := hread
  exact claim_ne_zero d.guid (hclaim.symm.trans (Prod.ext (Prod.ext hfrom hto) hguid))

/-- **A client that is coming back is sent an ACK** with the rest of its refusal
behind. -/
theorem not_refusedCleanly_back {d : RegisterDaemon} {q : RegisterRequest}
    (hrequest : unpackRegister buffer = some q) (hrefused : q.clientUid ≠ d.serverUid)
    (hback : q.header.msgFrom ≠ 0) : ¬ RefusedCleanly d buffer := by
  rintro ⟨q', -, m, hhandle, ⟨header, hheader, hsize⟩, -⟩
  obtain ⟨claim, -, -, hm⟩ := handleRegister_eq hrequest hhandle
  obtain ⟨⟨header', hheader', hsize'⟩, hlong⟩ :=
    length_of_refused_ack (decide_eq_true hrefused) hback hm
  obtain ⟨rfl, -⟩ := Prod.mk.inj (Option.some.inj (hheader.symm.trans hheader'))
  rw [hsize'] at hsize
  have h24 : (24 : CInt).toInt = 24 := by decide
  omega

/-- **No refusal gives nothing away**: whatever state the daemon is in, and
whatever else the request says. -/
theorem not_refusedCleanly {d : RegisterDaemon} {q : RegisterRequest}
    (hrequest : unpackRegister buffer = some q) (hrefused : q.clientUid ≠ d.serverUid) :
    ¬ RefusedCleanly d buffer := by
  by_cases hnew : q.header.msgFrom = 0
  · exact not_refusedCleanly_new hrequest hnew
  · exact not_refusedCleanly_back hrequest hrefused hnew

end

/-- The bytes a client sends, as `SOS_init_existing_runtime` packs them. -/
def registerBytes [DoubleCodec] (q : RegisterRequest) : List Byte :=
  q.header.enc ++ (encAll [.i q.versionMajor, .i q.versionMinor] ++ encAll [.i q.clientUid])

theorem unpackRegister_registerBytes [DoubleCodec] (q : RegisterRequest)
    (h : (registerBytes q).length ≤ intMax) :
    unpackRegister ⟨registerBytes q, 36, h⟩ = some q := by
  refine unpackRegister_of_holds q ?_ ⟨[], List.append_nil _⟩
  change 36 ≤ (registerBytes q).length
  simp only [registerBytes, List.length_append, SosMsgHeader.length_enc, length_encAll]
  exact le_rfl

/-- A client of another user that is coming back. -/
theorem not_refusedCleanly_coming_back :
    letI := DoubleCodec.bits
    ∃ d buffer q, unpackRegister buffer = some q ∧ q.header.msgFrom = 9 ∧
      ¬ RefusedCleanly d buffer := by
  let _ := DoubleCodec.bits
  let q : RegisterRequest := ⟨⟨36, MsgType.register.code, 9, 0⟩, 1, 30, 1001⟩
  have hrequest := unpackRegister_registerBytes q (by decide)
  exact ⟨⟨⟨1, 100⟩, 1000, 0⟩, _, q, hrequest, rfl, not_refusedCleanly hrequest (by decide)⟩

/-- A new client of another user is given all the guids there are. -/
theorem not_refusedCleanly_new_client :
    letI := DoubleCodec.bits
    ∃ d buffer q, unpackRegister buffer = some q ∧ q.clientUid ≠ d.serverUid ∧
      ¬ RefusedCleanly d buffer := by
  let _ := DoubleCodec.bits
  let q : RegisterRequest := ⟨⟨36, MsgType.register.code, 0, 0⟩, 1, 30, 1001⟩
  have hrequest := unpackRegister_registerBytes q (by decide)
  exact ⟨⟨⟨1, 100⟩, 1000, 0⟩, _, q, hrequest, by decide, not_refusedCleanly_new hrequest rfl⟩

end SosFlow
