import SosFlow.Msg.OverWire

/-!
# Which messages are framed

Every receiver trusts a message's size for how much to read and copy. Here
the builders are gathered into one type, `Message`, with the layout each
means to send, and `Message.framed_iff` says which of them send it.

A new cache depth never does: it goes out with the size `-1` it was first
zipped with. Neither does a probe reply, whose header is all zeros, nor the
ACK of a refused client that is coming back, in a buffer whose `len` is
that of the refusal. Every other message does when the packing calls of its
body fit and no double in it is an infinity, which is never packed, and only
then.
-/

namespace SosFlow

open Binary
open Mem (Holds)

/-- **The messages**, by their builders and what those build from. -/
inductive Message where
  | register (versionMajor versionMinor clientUid : CInt)
  | announce (myGuid : SosGuid) (m : AnnounceMsg)
  | publish (myGuid : SosGuid) (m : PublishMsg)
  | valSnaps (myGuid : SosGuid) (maxSize : ℕ) (m : ValSnapsMsg)
  | cacheSize (myGuid pubGuid : SosGuid) (cacheDepth : CInt)
  | sensitivity (myGuid : SosGuid) (handle nodeId : CString) (receivesPort : CInt)
  | trigger (myGuid : SosGuid) (handle data : CString) (dataLength : CInt)
  | guidBlockRequest (myGuid : SosGuid)
  | finalizeFlush (myGuid : SosGuid)
  | query (commRank : CInt) (nodeId sql : CString) (receivesPort : CInt) (queryGuid : SosGuid)
  | cacheGrab (commRank : CInt) (nodeId pubFilterRegex valFilterRegex : CString)
      (receivesPort frameHead frameDepthLimit : CInt) (requestGuid : SosGuid)
  | manifestRequest (commRank : CInt) (nodeId pubTitleFilter : CString) (receivesPort : CInt)
      (requestGuid : SosGuid)
  | analyticsGuidRequest (commRank : CInt)
  | queryResults (commRank : CInt) (maxSize : ℕ) (results : SosaResults)
  | manifestReply (commRank : CInt) (requestGuid : SosGuid) (filter : CString) (elapsed : Double)
      (pubs : List SosPub)
  | registerReply (g : Registration)
  | guidBlockReply (commRank : CInt) (blockFrom blockTo : SosGuid)
  | checkInReply
  | payload (commRank : CInt) (maxSize : ℕ) (bytes : List Byte)
  | probeReply (commRank : CInt) (depths : Vector SosGuid 4) (counters : Vector SosGuid 21)
      (memory : Vector SosGuid 2)
  | ack (maxSize : ℕ)

namespace Message

/-- **What the builder means to send.** -/
def layout : Message → Layout
  | register versionMajor versionMinor clientUid =>
      sosInitRegister versionMajor versionMinor clientUid
  | announce myGuid m => sosAnnounceToBuffer myGuid m
  | publish myGuid m => sosPublishToBuffer myGuid m
  | valSnaps myGuid maxSize m => sosValSnapQueueToBuffer myGuid maxSize m
  | cacheSize myGuid pubGuid cacheDepth => pubConfigLayout myGuid pubGuid cacheDepth
  | sensitivity myGuid handle nodeId receivesPort =>
      sosSenseRegister myGuid handle nodeId receivesPort
  | trigger myGuid handle data dataLength => sosSenseTrigger myGuid handle data dataLength
  | guidBlockRequest myGuid => sosUidNextRequest myGuid
  | finalizeFlush myGuid => sosFinalizeFlush myGuid
  | query commRank nodeId sql receivesPort queryGuid =>
      sosaExecQuery commRank nodeId sql receivesPort queryGuid
  | cacheGrab commRank nodeId pubFilterRegex valFilterRegex receivesPort frameHead
      frameDepthLimit requestGuid =>
      sosaCacheGrab commRank nodeId pubFilterRegex valFilterRegex receivesPort frameHead
        frameDepthLimit requestGuid
  | manifestRequest commRank nodeId pubTitleFilter receivesPort requestGuid =>
      sosaRefreshPubManifest commRank nodeId pubTitleFilter receivesPort requestGuid
  | analyticsGuidRequest commRank => sosaGuidRequest commRank
  | queryResults commRank maxSize results => sosaResultsToBuffer commRank maxSize results
  | manifestReply commRank requestGuid filter elapsed pubs =>
      manifestLayout commRank requestGuid filter elapsed pubs
  | registerReply g => registerLayout g
  | guidBlockReply commRank blockFrom blockTo => sosdHandleGuidBlock commRank blockFrom blockTo
  | checkInReply => sosdHandleCheckIn
  | payload commRank maxSize bytes => sosdFeedbackPayload commRank maxSize bytes
  | probeReply commRank depths counters memory => probeLayout commRank depths counters memory
  | ack maxSize => sosdPackAck maxSize

/-- What the builder packs, if that ends. -/
def packed [DoubleCodec] : Message → Option Built
  | cacheSize myGuid pubGuid cacheDepth => sosPubConfig myGuid pubGuid cacheDepth
  | probeReply _ depths counters memory => sosdHandleProbe depths counters memory
  | registerReply g => sosdHandleRegister g
  | manifestReply commRank requestGuid filter elapsed pubs =>
      sosaPubManifestToBuffer commRank requestGuid filter elapsed pubs
  | m => m.layout.build

/-- **What the builder sends**, which is nothing if it never has done with a double. -/
def build [DoubleCodec] (m : Message) : Option Built :=
  if Converted m.layout.calls then m.packed else none

/-- **The builder finishes the header**: it is not one that leaves the size
out, or the header, or builds over a longer message. -/
def Finished : Message → Prop
  | cacheSize .. => False
  | probeReply .. => False
  | registerReply g => g.refused = true → g.request.msgFrom = 0
  | _ => True

end Message

theorem short_guidFields {n : ℕ} {words : Vector SosGuid n} :
    ∀ f ∈ guidFields words, f.Short := by
  intro f hf
  obtain ⟨w, _, rfl⟩ := List.mem_map.mp hf
  trivial

theorem sizeOf_guidFields {n : ℕ} (words : Vector SosGuid n) : sizeOf' (guidFields words) = 8 * n := by
  have hconst : (words.toList.map Field.g).map Field.size = List.replicate n 8 := by
    simp [List.eq_replicate_iff, Field.size]
  rw [sizeOf', guidFields, hconst, List.sum_replicate_nat, Nat.mul_comm]

/-- A reply to a registration always fits. -/
theorem registerLayout_fits (g : Registration) : (registerLayout g).Fits := by
  unfold registerLayout
  split
  case isTrue =>
    refine ⟨by change (24 : ℤ) ≤ 4096; decide, by change (4096 : ℤ) ≤ 2147483647; decide, ?_⟩
    apply callsFit_of_half
    · change 4096 ≤ 2147483647
      decide
    · change 24 + (16 + (8 + (4 + 0))) ≤ 4096 / 2
      decide
  case isFalse => decide

section

variable [DoubleCodec]

/-! ## The builders that are no layout -/

/-- **A new cache depth is never framed**: its size is `-1`. -/
theorem sosPubConfig_not_framed {myGuid pubGuid : SosGuid} {cacheDepth : CInt} {m : Built}
    (h : sosPubConfig myGuid pubGuid cacheDepth = some m) :
    ¬ Framed m (pubConfigLayout myGuid pubGuid cacheDepth) := by
  intro hframed
  simp only [sosPubConfig, Option.bind_eq_bind, Option.bind_eq_some_iff] at h
  obtain ⟨b, _, r₁, _, r₂, _, z, hzip, h⟩ := h
  obtain rfl := Option.some.inj h
  obtain ⟨z', hz', hat⟩ := sosMsgZip_start _ (sosMsgZip_bound hzip)
  obtain rfl := Option.some.inj (hz'.symm.trans hzip)
  have hsent := holds_size_of_header hat.holds
  have hsize : (encCalls (pubConfigLayout myGuid pubGuid cacheDepth).calls).length = 12 := by
    simp only [pubConfigLayout, encCalls_cons, encCalls_nil, List.append_nil, PackCall.length_enc,
      PackCall.size, sizeOf'_cons, sizeOf'_nil, Field.size]
  have hwant := holds_size_of_header (Mem.holds_append.mp hframed.bytes).1
  rw [hframed.len, hsize] at hwant
  have hne : (-1 : CInt) ≠ BitVec.ofInt 32 ((headerSize + 12 : ℕ) : ℤ) := by decide
  refine hne (packi32_inj (hsent.unique hwant ?_))
  rw [length_packi32, length_packi32]

/-- **A probe reply is never framed**: nothing is packed in front of its
body, and its buffer was zeroed. -/
theorem sosdHandleProbe_not_framed {commRank : CInt} {depths : Vector SosGuid 4}
    {counters : Vector SosGuid 21} {memory : Vector SosGuid 2} {m : Built}
    (h : sosdHandleProbe depths counters memory = some m) :
    ¬ Framed m (probeLayout commRank depths counters memory) := by
  intro hframed
  simp only [sosdHandleProbe, Option.bind_eq_bind, Option.bind_eq_some_iff] at h
  obtain ⟨b, hb, r₁, h₁, r₂, h₂, r₃, h₃, h⟩ := h
  obtain rfl := Option.some.inj h
  have hoff₁ := sosBufferPack_offset (fun _ => not_isBlock_of_mem_guidFields) short_guidFields h₁
  have hoff₂ := sosBufferPack_offset (fun _ => not_isBlock_of_mem_guidFields) short_guidFields h₂
  have hkeep₁ := sosBufferPack_keeps (fun _ => not_isBlock_of_mem_guidFields) short_guidFields h₁
  have hkeep₂ := sosBufferPack_keeps (fun _ => not_isBlock_of_mem_guidFields) short_guidFields h₂
  have hkeep₃ := sosBufferPack_keeps (fun _ => not_isBlock_of_mem_guidFields) short_guidFields h₃
  have hkeep : Mem.Keeps 0 headerSize b.data r₃.buffer.data :=
    hkeep₁.trans ((hkeep₂.mono (by omega)).trans (hkeep₃.mono (by omega)))
  have hwant := holds_size_of_header (Mem.holds_append.mp hframed.bytes).1
  have hsize : (encCalls (probeLayout commRank depths counters memory).calls).length = 216 := by
    simp only [probeLayout, encCalls_cons, encCalls_nil, List.append_nil, List.length_append,
      PackCall.length_enc, PackCall.size, sizeOf_guidFields]
  rw [hframed.len, hsize] at hwant
  have hheld := hwant.of_keeps (k := headerSize) hkeep (by rw [length_packi32]; decide)
  obtain ⟨_, _, hfresh⟩ := bufferOfSize_some hb
  have hzero : ∀ x ∈ b.data ++ List.replicate headerSize 0, x = 0 := by
    intro x hx
    rcases List.mem_append.mp hx with hx | hx
    · exact hfresh x hx
    · exact List.eq_of_mem_replicate hx
  have hlast : (240 : Byte) ∈ packi32 (BitVec.ofInt 32 ((headerSize + 216 : ℕ) : ℤ)) := by decide
  have hmem := List.mem_of_mem_drop (hheld.subset hlast)
  exact absurd (hzero _ hmem) (by decide)

/-! ## The reply to a registration -/

/-- The refusal leaves a buffer of the same size, with its own length in
`len`. -/
theorem packRefusal_of_refused {b : SosBuffer} {g : Registration} (hrefused : g.refused = true)
    (hmax : b.max = sosDefaultBufferMax) (hlen : b.len = 0) :
    ∃ b', packRefusal b g = some b' ∧ b'.len = 52 ∧ b'.max = sosDefaultBufferMax := by
  have hroom : headerSize ≤ b.max := by rw [hmax]; decide
  obtain ⟨r₁, hzip₁, h₁⟩ := sosMsgZip_start g.request hroom
  have hmax₁ : r₁.buffer.max = sosDefaultBufferMax := h₁.max.trans hmax
  have hoff₁ : r₁.offset = 24 := h₁.newOffset
  have hlen₁ : r₁.buffer.len = 24 := by rw [h₁.len, hlen]; rfl
  have hfits : Fits r₁.buffer.max r₁.offset
      [.g 0, .g 0, .i g.versionMajor, .i g.versionMinor, .i g.serverUid] := by
    rw [hmax₁, hoff₁]
    exact ⟨Nat.le_of_ble_eq_true rfl, Nat.le_of_ble_eq_true rfl⟩
  obtain ⟨r₂, hpack, h₂⟩ := sosBufferPack_of_fits (by simp [Field.IsBlock]) hfits
  have hmax₂ : r₂.buffer.max = sosDefaultBufferMax := by
    rw [h₂.max, hmax₁, hoff₁]
    rfl
  have hlen₂ : r₂.buffer.len = 52 := by
    rw [h₂.len, hlen₁, hoff₁, length_encAll]
    rfl
  obtain ⟨r₃, hzip₃, h₃⟩ := sosMsgZip_start
    { g.request with msgSize := BitVec.ofNat 32 r₂.offset } (b := r₂.buffer) (by rw [hmax₂]; decide)
  refine ⟨r₃.buffer, ?_, by rw [h₃.len, hlen₂]; rfl, h₃.max.trans hmax₂⟩
  rw [packRefusal, if_pos hrefused, hzip₁]
  simp only [Option.bind_eq_bind, Option.bind_some, packFields, hpack, hzip₃]

/-- A message without a body leaves a longer `len` alone. -/
theorem len_of_no_body {b : SosBuffer} {l : Layout} {m : Built} (hnil : l.calls = [])
    (h : zipPackZip b l = some m) : b.len ≤ m.buffer.len := by
  obtain ⟨r₁, hzip₁, h⟩ := Option.bind_eq_some_iff.mp h
  obtain ⟨body, hrun, h⟩ := Option.bind_eq_some_iff.mp h
  obtain ⟨r₃, hzip₃, h⟩ := Option.bind_eq_some_iff.mp h
  obtain rfl := Option.some.inj h
  rw [hnil] at hrun
  obtain rfl := Option.some.inj hrun
  obtain ⟨r, hr, h₁⟩ := sosMsgZip_start _ (sosMsgZip_bound hzip₁)
  obtain ⟨z, hz, h₃⟩ := sosMsgZip_start _ (sosMsgZip_bound hzip₃)
  obtain rfl := Option.some.inj (hr.symm.trans hzip₁)
  obtain rfl := Option.some.inj (hz.symm.trans hzip₃)
  rw [h₃.len, h₁.len]
  omega

/-- **A reply to a registration is framed** unless the client is refused and
coming back: the refusal leaves more in `len` than an ACK takes. -/
theorem sosdHandleRegister_framed_iff {g : Registration} :
    (∃ m ∈ sosdHandleRegister g, Framed m (registerLayout g)) ↔
      (g.refused = true → g.request.msgFrom = 0) := by
  obtain ⟨b, hb⟩ := bufferOfSize_eq sosDefaultBufferMax ⟨by decide, by decide⟩
  obtain ⟨hmax, hlen, _⟩ := bufferOfSize_some hb
  have hmax : b.max = sosDefaultBufferMax := by exact_mod_cast hmax.symm
  have hfits := registerLayout_fits g
  have hbuild : sosdHandleRegister g =
      (packRefusal b g).bind fun b => zipPackZip b (registerLayout g) := by
    rw [sosdHandleRegister, hb]
    rfl
  have hbodySize : (encCalls (registerLayout g).calls).length =
      if g.request.msgFrom = 0 then 28 else 0 := by
    unfold registerLayout
    split <;> rfl
  have hmaxSize : (registerLayout g).maxSize = sosDefaultBufferMax := by
    unfold registerLayout
    split <;> rfl
  have hcalls : CallsFit sosDefaultBufferMax headerSize (registerLayout g).calls := by
    have h := hfits.2.2
    rwa [hmaxSize] at h
  rw [hbuild]
  cases hrefused : g.refused with
  | false =>
      have hkept : packRefusal b g = some b := if_neg (by simp [hrefused])
      obtain ⟨m, hm, hframed, _⟩ := zipPackZip_of_fits (b := b) (l := registerLayout g)
        (by rw [hlen]; exact Int.natCast_nonneg _) (by rw [hmax]; decide) (by rwa [hmax])
      rw [hkept, Option.bind_some]
      exact ⟨fun _ h => absurd h Bool.false_ne_true, fun _ => ⟨m, hm, hframed⟩⟩
  | true =>
      obtain ⟨b', hb', hlen', hmax'⟩ := packRefusal_of_refused hrefused hmax hlen
      rw [hb', Option.bind_some]
      constructor
      · rintro ⟨m, hm, hframed⟩ _
        by_contra hback
        have hnil : (registerLayout g).calls = [] := by
          rw [registerLayout, if_neg hback]
          rfl
        have hlong := len_of_no_body hnil hm
        rw [hframed.len, hbodySize, if_neg hback, hlen'] at hlong
        exact absurd hlong (by decide)
      · intro hnew
        obtain ⟨m, hm, hframed, _⟩ := zipPackZip_of_fits (b := b') (l := registerLayout g)
          (by rw [hlen', hbodySize, if_pos (hnew rfl)]; decide) (by rw [hmax']; decide)
          (by rwa [hmax'])
        exact ⟨m, hm, hframed⟩

/-! ## The reply to a manifest request -/

/-- The layout `SOSA_pub_manifest_to_buffer` zips, with placeholders for the
totals. -/
def manifestDraft (commRank : CInt) (requestGuid : SosGuid) (found : List SosPub) : Layout :=
  ⟨4096, MsgType.manifest.code, rankGuid commRank, requestGuid,
    manifestTotals (-1) 0 (-1) ++ manifestEntries found⟩

omit [DoubleCodec] in
/-- Totals take sixteen bytes, whatever they are. -/
theorem size_manifestTotals (matching : CInt) (elapsed : Double) (maxFrame : CInt) :
    ((manifestTotals matching elapsed maxFrame).map PackCall.size).sum = 16 := rfl

theorem length_manifestTotals (matching : CInt) (elapsed : Double) (maxFrame : CInt) :
    (encCalls (manifestTotals matching elapsed maxFrame)).length = 16 := rfl

/-- **The totals over the placeholders**: sixteen bytes behind the header are
replaced, and no others. -/
theorem runCalls_manifestTotals (matching : CInt) (elapsed : Double) (maxFrame : CInt)
    {b : SosBuffer} (hmax : 4096 ≤ b.max) (hlen : headerSize ≤ b.len) :
    ∃ r, runCalls b headerSize (manifestTotals matching elapsed maxFrame) = some r ∧
      r.1.len = max b.len (headerSize + 16 : ℕ) ∧
      Mem.store b.data headerSize (encCalls (manifestTotals matching elapsed maxFrame)) =
        some r.1.data := by
  have hhalf : headerSize + ((manifestTotals matching elapsed maxFrame).map PackCall.size).sum ≤
      b.max / 2 := by
    rw [size_manifestTotals, headerSize]
    omega
  have hle := b.max_le_intMax
  obtain ⟨r, hrun, hr⟩ := runCalls_of_fits (by unfold headerSize; omega) hlen
    (callsFit_of_half hle hhalf)
  rw [callsCapacity_of_half hhalf] at hr
  exact ⟨r, hrun, hr.len, hr.store⟩

omit [DoubleCodec] in
/-- What follows the totals fits behind any of them. -/
theorem callsFit_manifestTotals {max offset : ℕ} {matching matching' maxFrame maxFrame' : CInt}
    {elapsed elapsed' : Double} {calls : List PackCall} :
    CallsFit max offset (manifestTotals matching elapsed maxFrame ++ calls) ↔
      CallsFit max offset (manifestTotals matching' elapsed' maxFrame' ++ calls) :=
  Iff.rfl

omit [DoubleCodec] in
/-- The draft and the reply fit together: totals have one size. -/
theorem manifestDraft_fits_iff {commRank : CInt} {requestGuid : SosGuid} {filter : CString}
    {elapsed : Double} {pubs : List SosPub} :
    (manifestDraft commRank requestGuid (matchingPubs filter pubs)).Fits ↔
      (manifestLayout commRank requestGuid filter elapsed pubs).Fits :=
  and_congr_right fun _ => and_congr_right fun _ => callsFit_manifestTotals

/-- The parts of a manifest's build. -/
theorem sosaPubManifestToBuffer_eq_some {commRank : CInt} {requestGuid : SosGuid}
    {filter : CString} {elapsed : Double} {pubs : List SosPub} {m' : Built} :
    sosaPubManifestToBuffer commRank requestGuid filter elapsed pubs = some m' ↔
      ∃ m r, (manifestDraft commRank requestGuid (matchingPubs filter pubs)).build = some m ∧
        runCalls m.buffer headerSize (manifestTotals (intOf (matchingPubs filter pubs).length)
          elapsed (maxFrameOverall (matchingPubs filter pubs))) = some r ∧
        { m with buffer := r.1 } = m' := by
  simp only [sosaPubManifestToBuffer, manifestDraft, Option.bind_eq_bind,
    Option.bind_eq_some_iff, Option.some_inj, exists_and_left]

/-- What `Framed` asks of the draft, and of the reply, in the two parts of the
body. -/
theorem framed_totals_iff {m : Built} {l : Layout} {matching maxFrame : CInt} {elapsed : Double}
    {entries : List PackCall}
    (hcalls : l.calls = manifestTotals matching elapsed maxFrame ++ entries) :
    Framed m l ↔
      m.buffer.len = (headerSize + (16 + (encCalls entries).length) : ℕ) ∧
      Holds m.buffer.data 0
        (SosMsgHeader.mk (BitVec.ofInt 32 m.buffer.len) l.msgType l.msgFrom l.refGuid).enc ∧
      Holds m.buffer.data headerSize (encCalls (manifestTotals matching elapsed maxFrame)) ∧
      Holds m.buffer.data (headerSize + 16) (encCalls entries) ∧
      m.after.data.drop headerSize = m.before.data.drop headerSize := by
  have hsplit : encCalls l.calls =
      encCalls (manifestTotals matching elapsed maxFrame) ++ encCalls entries := by
    rw [hcalls, encCalls, encCalls, encCalls, List.flatMap_append]
  constructor
  · intro h
    obtain ⟨hheader, hbody⟩ := Mem.holds_append.mp h.bytes
    rw [hsplit, SosMsgHeader.length_enc, Nat.zero_add, Mem.holds_append,
      length_manifestTotals] at hbody
    have hlen := h.len
    rw [hsplit, List.length_append, length_manifestTotals] at hlen
    exact ⟨hlen, hheader, hbody.1, hbody.2, h.rezip⟩
  · rintro ⟨hlen, hheader, htotals, hentries, hrezip⟩
    refine ⟨?_, Mem.holds_append.mpr ⟨hheader, ?_⟩, hrezip⟩
    · rw [hsplit, List.length_append, length_manifestTotals]
      exact hlen
    · rw [hsplit, SosMsgHeader.length_enc, Nat.zero_add, Mem.holds_append, length_manifestTotals]
      exact ⟨htotals, hentries⟩

/-- **A manifest that fits is framed**: the totals go over the placeholders,
between the header and the entries. -/
theorem sosaPubManifestToBuffer_of_fits {commRank : CInt} {requestGuid : SosGuid}
    {filter : CString} {elapsed : Double} {pubs : List SosPub}
    (h : (manifestLayout commRank requestGuid filter elapsed pubs).Fits) :
    ∃ m ∈ sosaPubManifestToBuffer commRank requestGuid filter elapsed pubs,
      Framed m (manifestLayout commRank requestGuid filter elapsed pubs) := by
  obtain ⟨hsize, hle, hcalls⟩ := manifestDraft_fits_iff.mpr h
  obtain ⟨b, hb⟩ := bufferOfSize_eq 4096 ⟨by decide, by decide⟩
  obtain ⟨hmax, hlen, _⟩ := bufferOfSize_some hb
  have hmax : b.max = 4096 := by exact_mod_cast hmax.symm
  obtain ⟨m, hm, hframed, hgrown⟩ := zipPackZip_of_fits (b := b)
    (l := manifestDraft commRank requestGuid (matchingPubs filter pubs))
    (by rw [hlen]; exact Int.natCast_nonneg _) (by rw [hmax]; decide) (by rw [hmax]; exact hcalls)
  obtain ⟨hdraftLen, hheader, _, hentries, hrezip⟩ := (framed_totals_iff rfl).mp hframed
  obtain ⟨r, hrun, hlen', hstore⟩ := runCalls_manifestTotals
    (intOf (matchingPubs filter pubs).length) elapsed
    (maxFrameOverall (matchingPubs filter pubs)) (hmax ▸ hgrown)
    (by rw [hdraftLen]; unfold headerSize; omega)
  have hlen' : r.1.len = m.buffer.len := by
    rw [hlen', hdraftLen]
    omega
  refine ⟨{ m with buffer := r.1 }, ?_, (framed_totals_iff rfl).mpr
    ⟨hlen'.trans hdraftLen, ?_, Mem.holds_of_store hstore, ?_, hrezip⟩⟩
  · have hbuild : Layout.build (manifestDraft commRank requestGuid (matchingPubs filter pubs)) =
        some m := Layout.build_eq_some.mpr ⟨b, hb, hm⟩
    exact sosaPubManifestToBuffer_eq_some.mpr ⟨m, r, hbuild, hrun, rfl⟩
  · rw [hlen']
    exact hheader.store_above hstore (by simp)
  · exact hentries.store_below hstore (by rw [length_manifestTotals])

/-- **A framed manifest fits.** -/
theorem sosaPubManifestToBuffer_fits {commRank : CInt} {requestGuid : SosGuid}
    {filter : CString} {elapsed : Double} {pubs : List SosPub} {m : Built}
    (hbuild : sosaPubManifestToBuffer commRank requestGuid filter elapsed pubs = some m)
    (hframed : Framed m (manifestLayout commRank requestGuid filter elapsed pubs)) :
    (manifestLayout commRank requestGuid filter elapsed pubs).Fits := by
  obtain ⟨m₀, r, hdraft, htotals, rfl⟩ := sosaPubManifestToBuffer_eq_some.mp hbuild
  obtain ⟨b, hb, hzip⟩ := Layout.build_eq_some.mp hdraft
  obtain ⟨hmax, hlen, _⟩ := bufferOfSize_some hb
  have hmax : (b.max : ℤ) = 4096 := hmax.symm
  obtain ⟨r₁, hzip₁, hzip⟩ := Option.bind_eq_some_iff.mp hzip
  obtain ⟨body, hrun, hzip⟩ := Option.bind_eq_some_iff.mp hzip
  obtain ⟨r₃, hzip₃, hzip⟩ := Option.bind_eq_some_iff.mp hzip
  obtain rfl := Option.some.inj hzip
  obtain ⟨r₁', hr₁', h₁⟩ := sosMsgZip_start _ (sosMsgZip_bound hzip₁)
  obtain ⟨r₃', hr₃', h₃⟩ := sosMsgZip_start _ (sosMsgZip_bound hzip₃)
  obtain rfl := Option.some.inj (hr₁'.symm.trans hzip₁)
  obtain rfl := Option.some.inj (hr₃'.symm.trans hzip₃)
  have hoff₁ : r₁'.offset = headerSize := h₁.newOffset
  have hmax₁ : r₁'.buffer.max = 4096 := by
    rw [h₁.max]
    exact_mod_cast hmax
  have hlen₁ : (headerSize : ℤ) ≤ r₁'.buffer.len := by
    rw [h₁.len, SosMsgHeader.length_enc]
    omega
  -- the placeholders fit, whatever follows them
  obtain ⟨p, hplace, hrest⟩ := Option.bind_eq_some_iff.mp
    ((runCalls_append _ _ (manifestTotals (-1) 0 (-1)) _).symm.trans hrun)
  have hhalf : r₁'.offset + ((manifestTotals (-1) 0 (-1)).map PackCall.size).sum ≤
      r₁'.buffer.max / 2 := by
    rw [size_manifestTotals, hoff₁, hmax₁]
    decide
  have hfirst := callsFit_of_half r₁'.buffer.max_le_intMax hhalf
  obtain ⟨p', hp', hp⟩ := runCalls_of_fits (by rw [hmax₁, hoff₁]; decide)
    (by rw [hoff₁]; exact hlen₁) hfirst
  obtain rfl := Option.some.inj (hp'.symm.trans hplace)
  have hoffp : p'.2 = headerSize + 16 := by rw [hp.newOffset, length_manifestTotals, hoff₁]
  have hmaxp : p'.1.max = 4096 := by rw [hp.max, callsCapacity_of_half hhalf, hmax₁]
  -- the entries were there before the totals, and before the last zip
  obtain ⟨_, _, _, hentries, _⟩ := (framed_totals_iff rfl).mp hframed
  have hshort := short_of_holds hentries
  have hgrown := runCalls_max_le hshort hrest
  have hmax₃ : r₃'.buffer.max = body.1.max := h₃.max
  obtain ⟨r', hr', _, hstore⟩ := runCalls_manifestTotals
    (intOf (matchingPubs filter pubs).length) elapsed
    (maxFrameOverall (matchingPubs filter pubs)) (b := r₃'.buffer) (by omega)
    (by rw [h₃.len, SosMsgHeader.length_enc]; omega)
  obtain rfl := Option.some.inj (hr'.symm.trans htotals)
  have hsame : r'.1.data.drop (headerSize + 16) = body.1.data.drop (headerSize + 16) := by
    rw [Mem.drop_of_store hstore (by rw [length_manifestTotals]), ← List.drop_drop,
      sosMsgZip_drop hzip₃, List.drop_drop]
  unfold Holds at hentries
  rw [hsame, ← hoffp] at hentries
  have hfit := callsFit_of_holds hshort hrest hentries
  refine manifestDraft_fits_iff.mp ⟨by change (24 : ℤ) ≤ 4096; decide,
    by change (4096 : ℤ) ≤ 2147483647; decide, callsFit_append.mpr ⟨?_, ?_⟩⟩
  · rw [hmax₁, hoff₁] at hfirst
    exact hfirst
  · have hcap : callsCapacity 4096 headerSize (manifestTotals (-1) 0 (-1)) = 4096 :=
      callsCapacity_of_half (by rw [size_manifestTotals]; decide)
    rw [hmaxp, hoffp] at hfit
    change CallsFit (callsCapacity 4096 headerSize (manifestTotals (-1) 0 (-1))) _ _
    rw [hcap]
    exact hfit

/-! ## All of them -/

/-- What is packed is framed if the builder finishes the header and the body fits. -/
theorem Message.packed_framed_iff (m : Message) :
    (∃ b ∈ m.packed, Framed b m.layout) ↔ m.Finished ∧ m.layout.Fits := by
  cases m with
  | cacheSize myGuid pubGuid cacheDepth =>
      exact ⟨fun ⟨b, hb, hframed⟩ => absurd hframed (sosPubConfig_not_framed hb),
        fun h => absurd h.1 id⟩
  | probeReply commRank depths counters memory =>
      exact ⟨fun ⟨b, hb, hframed⟩ => absurd hframed (sosdHandleProbe_not_framed hb),
        fun h => absurd h.1 id⟩
  | registerReply g =>
      exact sosdHandleRegister_framed_iff.trans (and_iff_left (registerLayout_fits g)).symm
  | manifestReply commRank requestGuid filter elapsed pubs =>
      exact ⟨fun ⟨b, hb, hframed⟩ => ⟨trivial, sosaPubManifestToBuffer_fits hb hframed⟩,
        fun h => sosaPubManifestToBuffer_of_fits h.2⟩
  | _ =>
      exact ⟨fun h => ⟨trivial, Layout.builds_framed_iff.mp h⟩,
        fun h => Layout.builds_framed_iff.mpr h.2⟩

/-- **Which messages are framed**: those whose builder finishes the header, whose doubles
are no infinities, and whose body fits. -/
theorem Message.framed_iff (m : Message) :
    (∃ b ∈ m.build, Framed b m.layout) ↔
      m.Finished ∧ (∀ d ∈ m.layout.calls.flatMap PackCall.doubles, ¬ IsInf d) ∧ m.layout.Fits := by
  rw [and_left_comm, ← m.packed_framed_iff, ← converted_iff, Message.build]
  split
  case isTrue hends => exact (and_iff_right hends).symm
  case isFalse hends => exact iff_of_false (fun ⟨b, hb, _⟩ => nomatch hb) fun h => hends h.1

end

/-- **Three messages that are not framed**: a new cache depth, a probe reply, and a PUBLISH
of an infinity, which is never built. -/
theorem not_framed :
    letI := DoubleCodec.bits
    (¬ ∃ b ∈ (Message.cacheSize 7 9 3).build, Framed b (Message.cacheSize 7 9 3).layout) ∧
      (¬ ∃ b ∈ (Message.probeReply 0 (.replicate 4 0) (.replicate 21 0) (.replicate 2 0)).build,
        Framed b (Message.probeReply 0 (.replicate 4 0) (.replicate 21 0) (.replicate 2 0)).layout) ∧
      (Message.publish 7 ⟨9, 0, [⟨0, 0, 0, 8, 0, 0, .double 0x7ff0000000000000⟩]⟩).build = none := by
  let _ := DoubleCodec.bits
  refine ⟨?_, ?_, ?_⟩
  · rintro ⟨b, hb, hframed⟩
    exact sosPubConfig_not_framed (Option.ite_none_right_eq_some.mp hb).2 hframed
  · rintro ⟨b, hb, hframed⟩
    exact sosdHandleProbe_not_framed (Option.ite_none_right_eq_some.mp hb).2 hframed
  · exact if_neg (by decide +kernel)

end SosFlow
