import SosFlow.Daemon.Elements
import SosFlow.Daemon.Wire

/-!
# An ANNOUNCE, from pub to pub

The daemon reads an ANNOUNCE out of the bytes that arrived: the metadata of
the pub, the count of its elements, and a definition for each of them. A
client's message can always be read, because none of its calls is one that
a growth could restart.

What is read of a string is copied over the array without a terminator, so
the metadata of the two pubs agree exactly when no string of the daemon's
pub was longer than the client's (`announce_metadata_iff`).
-/

namespace SosFlow

open Mem (Holds)

/-- The string that is copied into an array of `SOS_DEFAULT_STRING_LEN`
characters. -/
def stringField (bytes : List Byte) : Option CString :=
  if h : bytes.length < sosDefaultStringLen ∧ bytes.all (· ≠ 0) then
    some ⟨bytes, fun x hx => of_decide_eq_true (List.all_eq_true.mp h.2 x hx)⟩
  else none

theorem stringField_bytes {c : CString} (h : c.length < sosDefaultStringLen) :
    stringField c.bytes = some c :=
  dif_pos ⟨h, List.all_eq_true.mpr fun x hx => decide_eq_true (c.nonzero x hx)⟩

section

variable [DoubleCodec]

/-! ## Reading the message -/

/-- The format of a definition. -/
def defFormat : List Char := ['g', 's', 'i', 'i', 'i', 'i', 'i', 'i', 'g']

/-- One definition. -/
def unpackDef (b : SosBuffer) (offset : ℕ) : Option (AnnounceElem × SosBuffer × ℕ) :=
  (sosBufferUnpack b offset defFormat).bind fun u => match u.outs with
    | [some (.guid guid), some (.str name), some (.int type), some (.int freq),
        some (.int semantic), some (.int classifier), some (.int pattern), some (.int compare),
        some (.guid relationId)] => do
      let name ← stringField name
      let type ← ValType.ofCode type
      some (⟨guid, name, type, ⟨freq, semantic, classifier, pattern, compare, relationId⟩⟩,
        u.buffer, u.offset)
    | _ => none

/-- The loop over the definitions. -/
def unpackDefs : ℕ → SosBuffer → ℕ → Option (List AnnounceElem)
  | 0, _, _ => some []
  | count + 1, b, offset => do
    let e ← unpackDef b offset
    let others ← unpackDefs count e.2.1 e.2.2
    some (e.1 :: others)

/-- The format of the metadata. -/
def announceFormat : List Char :=
  ['s', 'i', 'i', 'i', 's', 's', 'i', 's', 's', 'i', 'i', 'i', 'i', 'i', 'i', 'i', 'i']

/-- **What `SOS_announce_from_buffer` reads.** -/
def unpackAnnounce (b : SosBuffer) : Option AnnounceMsg := do
  let header ← sosMsgUnzip b 0
  let u ← sosBufferUnpack b header.2 announceFormat
  match u.outs with
  | [some (.str nodeId), some (.int processId), some (.int threadId), some (.int commRank),
      some (.str progName), some (.str progVer), some (.int pragmaLen), some (.str pragmaMsg),
      some (.str title), some (.int count), some (.int channel), some (.int layer),
      some (.int nature), some (.int priHint), some (.int scopeHint), some (.int retainHint),
      some (.int cacheDepth)] =>
    if count.toInt < 0 then none
    else do
      let nodeId ← stringField nodeId
      let progName ← stringField progName
      let progVer ← stringField progVer
      let pragmaMsg ← stringField pragmaMsg
      let title ← stringField title
      let elems ← unpackDefs count.toNat u.buffer u.offset
      some { refGuid := header.1.refGuid, nodeId, processId, threadId, commRank, progName, progVer,
             pragmaLen, pragmaMsg, title, cacheDepth, elems
             pubMeta := ⟨channel, nature, layer, priHint, scopeHint, retainHint⟩ }
  | _ => none

/-- `SOSD_handle_announce`, on the bytes of the message. -/
def Daemon.handleAnnounceBuffer (d : Daemon) (b : SosBuffer) : Option Daemon :=
  (unpackAnnounce b).map d.handleAnnounce

/-! ## Reading what was packed -/

variable {b : SosBuffer} {offset : ℕ}

/-- The fields of a definition. -/
def defFields (e : AnnounceElem) : List Field :=
  [.g e.guid, .s e.name, .i e.type.code, .i e.valMeta.freq, .i e.valMeta.semantic,
    .i e.valMeta.classifier, .i e.valMeta.pattern, .i e.valMeta.compare, .g e.valMeta.relationId]

omit [DoubleCodec] in
theorem defFields_notBlock (e : AnnounceElem) : ∀ f ∈ defFields e, ¬ f.IsBlock := by
  simp [defFields, Field.IsBlock]

/-- The packing call of a definition. -/
def defCall (e : AnnounceElem) : PackCall := .fields (defFields e) (defFields_notBlock e)

/-- The fields of the metadata. -/
def metaFields (m : AnnounceMsg) : List Field :=
  [.s m.nodeId, .i m.processId, .i m.threadId, .i m.commRank, .s m.progName, .s m.progVer,
    .i m.pragmaLen, .s m.pragmaMsg, .s m.title, .i (intOf m.elems.length), .i m.pubMeta.channel,
    .i m.pubMeta.layer, .i m.pubMeta.nature, .i m.pubMeta.priHint, .i m.pubMeta.scopeHint,
    .i m.pubMeta.retainHint, .i m.cacheDepth]

omit [DoubleCodec] in
theorem metaFields_notBlock (m : AnnounceMsg) : ∀ f ∈ metaFields m, ¬ f.IsBlock := by
  simp [metaFields, Field.IsBlock]

omit [DoubleCodec] in
/-- The body of an ANNOUNCE is the metadata and the definitions. -/
theorem AnnounceMsg.calls_eq (m : AnnounceMsg) :
    m.calls = .fields (metaFields m) (metaFields_notBlock m) :: m.elems.map defCall := rfl

/-- **An ANNOUNCE whose strings fit the arrays** they are read into. -/
structure AnnounceMsg.Storable (m : AnnounceMsg) : Prop where
  nodeId : m.nodeId.length < sosDefaultStringLen
  progName : m.progName.length < sosDefaultStringLen
  progVer : m.progVer.length < sosDefaultStringLen
  pragmaMsg : m.pragmaMsg.length < sosDefaultStringLen
  title : m.title.length < sosDefaultStringLen
  name : ∀ e ∈ m.elems, e.name.length < sosDefaultStringLen

omit [DoubleCodec] in
theorem short_of_lt {c : CString} (h : c.length < sosDefaultStringLen) : (Field.s c).Short :=
  le_trans (Nat.le_of_lt h) (by decide)

/-- **A definition is read as it was packed.** -/
theorem unpackDef_reads {e : AnnounceElem} (hname : e.name.length < sosDefaultStringLen)
    (hholds : Holds b.data offset (defCall e).enc) (hin : offset + (defCall e).size ≤ b.max) :
    unpackDef b offset = some (e, b, offset + (defCall e).size) := by
  have hshort : ∀ f ∈ defFields e, f.Short := by
    have hs := short_of_lt hname
    simp only [defFields, List.forall_mem_cons]
    exact ⟨trivial, hs, trivial, trivial, trivial, trivial, trivial, trivial, trivial, by simp⟩
  have hpos : 0 < sizeOf' (defFields e) := by
    rw [defFields, sizeOf'_cons, Field.size]
    omega
  have hread : sosBufferUnpack b offset defFormat = some ⟨b, offset + (defCall e).size,
      (defCall e).size, (defFields e).map fun f => some f.read⟩ := by
    change offset + sizeOf' (defFields e) ≤ b.max at hin
    exact sosBufferUnpack_reads (defFields_notBlock e) hshort (by omega) hholds hin
  rw [unpackDef, hread]
  simp only [Option.bind_some, defFields, List.map_cons, List.map_nil, Field.read, Field.arg,
    stringField_bytes hname, ValType.ofCode_code, Option.bind_eq_bind]

/-- **The definitions are read one after the other.** -/
theorem unpackDefs_reads {elems : List AnnounceElem}
    (hname : ∀ e ∈ elems, e.name.length < sosDefaultStringLen)
    (hholds : Holds b.data offset (encCalls (elems.map defCall)))
    (hin : offset + ((elems.map defCall).map PackCall.size).sum ≤ b.max) :
    unpackDefs elems.length b offset = some elems := by
  induction elems generalizing offset with
  | nil => rfl
  | cons e rest ih =>
      rw [List.forall_mem_cons] at hname
      rw [List.map_cons, List.map_cons, List.sum_cons] at hin
      rw [List.map_cons, encCalls_cons] at hholds
      obtain ⟨hfirst, hrest⟩ := Mem.holds_append.mp hholds
      rw [PackCall.length_enc] at hrest
      have hone := unpackDef_reads hname.1 hfirst (by omega)
      have hothers := ih hname.2 hrest (by omega)
      simp only [List.length_cons, unpackDefs, hone, Option.bind_eq_bind, Option.bind_some, hothers]

/-- **An ANNOUNCE is read as it was packed.** -/
theorem unpackAnnounce_reads {m : AnnounceMsg} {header : SosMsgHeader} (h : m.Storable)
    (hguid : header.refGuid = m.refGuid) (hholds : Holds b.data 0 (header.enc ++ encCalls m.calls)) :
    unpackAnnounce b = some m := by
  have hbound : headerSize + (m.calls.map PackCall.size).sum ≤ b.max := by
    have hlen := hholds.bound (by
      rw [SosMsgHeader.enc, SosMsgHeader.fields]
      simp [Field.enc_ne_nil])
    rw [List.length_append, length_encCalls, SosMsgHeader.length_enc] at hlen
    change _ ≤ b.data.length
    omega
  have hcount : m.elems.length ≤ intMax := by
    have hsizes : ((m.elems.map defCall).map PackCall.size).length ≤
        ((m.elems.map defCall).map PackCall.size).sum := by
      refine List.length_le_sum_of_one_le _ fun n hn => ?_
      obtain ⟨c, hc, rfl⟩ := List.mem_map.mp hn
      obtain ⟨e, -, rfl⟩ := List.mem_map.mp hc
      change 1 ≤ sizeOf' (defFields e)
      rw [defFields, sizeOf'_cons, Field.size]
      omega
    have hmax := b.max_le_intMax
    rw [m.calls_eq, List.map_cons, List.sum_cons] at hbound
    rw [List.length_map, List.length_map] at hsizes
    omega
  have hshort : ∀ f ∈ metaFields m, f.Short := by
    simp only [metaFields, List.forall_mem_cons]
    exact ⟨short_of_lt h.nodeId, trivial, trivial, trivial, short_of_lt h.progName,
      short_of_lt h.progVer, trivial, short_of_lt h.pragmaMsg, short_of_lt h.title, trivial,
      trivial, trivial, trivial, trivial, trivial, trivial, trivial, by simp⟩
  obtain ⟨hheader, hbody⟩ := Mem.holds_append.mp hholds
  rw [SosMsgHeader.length_enc, Nat.zero_add, m.calls_eq, encCalls_cons] at hbody
  obtain ⟨hmeta, hdefs⟩ := Mem.holds_append.mp hbody
  rw [PackCall.length_enc] at hdefs
  rw [m.calls_eq, List.map_cons, List.sum_cons] at hbound
  have hsize : 0 < sizeOf' (metaFields m) := by
    rw [metaFields, sizeOf'_cons, Field.size]
    omega
  have hread : sosBufferUnpack b headerSize announceFormat =
      some ⟨b, headerSize + sizeOf' (metaFields m), sizeOf' (metaFields m),
        (metaFields m).map fun f => some f.read⟩ := by
    change headerSize + (sizeOf' (metaFields m) + _) ≤ b.max at hbound
    exact sosBufferUnpack_reads (metaFields_notBlock m) hshort (by omega) hmeta (by omega)
  have hall := unpackDefs_reads h.name hdefs (by omega)
  change unpackDefs m.elems.length b (headerSize + sizeOf' (metaFields m)) = _ at hall
  refine Option.bind_eq_some_iff.mpr ⟨_, sosMsgUnzip_of_holds (by omega) hheader, ?_⟩
  refine Option.bind_eq_some_iff.mpr ⟨_, hread, ?_⟩
  -- the fields that were read are those of the pattern
  show (if (intOf m.elems.length).toInt < 0 then none else _) = _
  rw [toInt_intOf hcount, if_neg (by omega), toNat_intOf hcount]
  simp only [Option.bind_eq_bind, stringField_bytes h.nodeId, stringField_bytes h.progName,
    stringField_bytes h.progVer, stringField_bytes h.pragmaMsg, stringField_bytes h.title,
    Option.bind_some, hall, hguid]

/-! ## Reading what a client built -/

omit [DoubleCodec] in
/-- No call of an ANNOUNCE of short strings can be restarted. -/
theorem AnnounceMsg.Storable.steady {m : AnnounceMsg} (h : m.Storable) :
    ∀ c ∈ m.calls, c.Steady := by
  obtain ⟨hnodeId, hprogName, hprogVer, hpragmaMsg, htitle, hname⟩ := h
  rw [m.calls_eq, List.forall_mem_cons]
  unfold sosDefaultStringLen at *
  constructor
  · refine .inr ?_
    simp only [metaFields, sizeOf'_cons, sizeOf'_nil, Field.size, sosDefaultBufferMax]
    omega
  · intro c hc
    obtain ⟨e, he, rfl⟩ := List.mem_map.mp hc
    have hlen := hname e he
    refine .inr ?_
    simp only [defFields, sizeOf'_cons, sizeOf'_nil, Field.size, sosDefaultBufferMax]
    omega

omit [DoubleCodec] in
theorem AnnounceMsg.Storable.short {m : AnnounceMsg} (h : m.Storable) : ∀ c ∈ m.calls, c.Short := by
  intro c hc
  have hsteady := h.steady c hc
  cases c with
  | bytes source => trivial
  | fields fs hblock =>
      rcases hsteady with hone | hsize
      · rw [m.calls_eq] at hc
        rcases List.mem_cons.mp hc with heq | hmem
        · cases heq
          exact absurd hone (by simp [metaFields])
        · obtain ⟨e, -, heq⟩ := List.mem_map.mp hmem
          cases heq
          exact absurd hone (by simp [defFields])
      · exact short_of_size (hsize.trans (by decide))

/-- **Every ANNOUNCE of short strings that was built is read** as what it was
built from. -/
theorem unpackAnnounce_built {m : AnnounceMsg} {myGuid : SosGuid} {built : Built} (h : m.Storable)
    (hbuild : (sosAnnounceToBuffer myGuid m).build = some built) :
    unpackAnnounce built.buffer = some m := by
  have hframed := Layout.framed_of_steady le_rfl h.steady h.short hbuild
  exact unpackAnnounce_reads h rfl hframed.bytes

/-! ## The metadata of the two pubs -/

omit [DoubleCodec] in
/-- **The daemon's pub has the client's metadata.** -/
structure SosPub.SameMetadata (pub client : SosPub) : Prop where
  guid : pub.guid = client.guid
  nodeId : pub.nodeId = client.nodeId
  progName : pub.progName = client.progName
  progVer : pub.progVer = client.progVer
  pragmaMsg : pub.pragmaMsg = client.pragmaMsg
  title : pub.title = client.title
  processId : pub.processId = client.processId
  threadId : pub.threadId = client.threadId
  commRank : pub.commRank = client.commRank
  pragmaLen : pub.pragmaLen = client.pragmaLen
  pubMeta : pub.pubMeta = client.pubMeta
  cacheDepth : pub.cacheDepth = client.cacheDepth
  elemCount : pub.elemCount = client.elemCount

omit [DoubleCodec] in
/-- **No string of the pub is longer** than the one that is read over it. -/
structure SosPub.Covered (pub client : SosPub) : Prop where
  nodeId : pub.nodeId.length ≤ client.nodeId.length
  progName : pub.progName.length ≤ client.progName.length
  progVer : pub.progVer.length ≤ client.progVer.length
  pragmaMsg : pub.pragmaMsg.length ≤ client.pragmaMsg.length
  title : pub.title.length ≤ client.title.length

omit [DoubleCodec] in
/-- **A pub within the types of its fields**: arrays of
`SOS_DEFAULT_STRING_LEN` characters, and an `int`. -/
structure SosPub.InFields (pub : SosPub) : Prop where
  nodeId : pub.nodeId.length < sosDefaultStringLen
  progName : pub.progName.length < sosDefaultStringLen
  progVer : pub.progVer.length < sosDefaultStringLen
  pragmaMsg : pub.pragmaMsg.length < sosDefaultStringLen
  title : pub.title.length < sosDefaultStringLen
  name : ∀ data ∈ pub.data, data.name.length < sosDefaultStringLen
  cacheDepth : (BitVec.ofInt 32 pub.cacheDepth).toInt = pub.cacheDepth

omit [DoubleCodec] in
theorem SosPub.InFields.storable {pub : SosPub} (h : pub.InFields) : pub.announceMsg.Storable where
  nodeId := h.nodeId
  progName := h.progName
  progVer := h.progVer
  pragmaMsg := h.pragmaMsg
  title := h.title
  name e he := by
    obtain ⟨data, hdata, rfl⟩ := List.mem_map.mp he
    exact h.name data hdata

omit [DoubleCodec] in
/-- Applying the ANNOUNCE of a client gives its metadata to a pub it covers, and
to no other. -/
theorem sameMetadata_iff {client : SosPub} (hdepth : (BitVec.ofInt 32 client.cacheDepth).toInt =
    client.cacheDepth) (pub : SosPub) :
    ({ sosAnnounceFromBuffer pub client.announceMsg with announced := true }).SameMetadata client ↔
      pub.Covered client := by
  constructor
  · intro h
    exact ⟨CString.copiedOver_eq_left_iff.mp h.nodeId, CString.copiedOver_eq_left_iff.mp h.progName,
      CString.copiedOver_eq_left_iff.mp h.progVer, CString.copiedOver_eq_left_iff.mp h.pragmaMsg,
      CString.copiedOver_eq_left_iff.mp h.title⟩
  · intro h
    have hcount : (sosAnnounceFromBuffer pub client.announceMsg).elemCount = client.elemCount := by
      rw [SosPub.elemCount, length_data_announce]
      exact List.length_map ..
    have hcache : (sosAnnounceFromBuffer pub client.announceMsg).cacheDepth = client.cacheDepth :=
      hdepth
    exact ⟨rfl, CString.copiedOver_eq_left_iff.mpr h.nodeId,
      CString.copiedOver_eq_left_iff.mpr h.progName, CString.copiedOver_eq_left_iff.mpr h.progVer, CString.copiedOver_eq_left_iff.mpr h.pragmaMsg,
      CString.copiedOver_eq_left_iff.mpr h.title, rfl, rfl, rfl, rfl, rfl, hcache, hcount⟩

/-- **The metadata of an announced pub**: the daemon has the client's, whether
it knew the pub or not, if and only if no string its pub had was longer. -/
theorem announce_metadata_iff {client : SosPub} {myGuid : SosGuid} {built : Built}
    (hfields : client.InFields)
    (hbuild : (sosAnnounceToBuffer myGuid client.announceMsg).build = some built) (d : Daemon) :
    ∃ d' pub', d.handleAnnounceBuffer built.buffer = some d' ∧
      d'.pubTable client.guid = some pub' ∧
      (pub'.SameMetadata client ↔ (d.pubFor client.guid).Covered client) := by
  have hread := unpackAnnounce_built hfields.storable hbuild
  refine ⟨d.handleAnnounce client.announceMsg, _, ?_, if_pos rfl,
    sameMetadata_iff hfields.cacheDepth _⟩
  rw [Daemon.handleAnnounceBuffer, hread, Option.map_some]

end

/-- A client's pub of guid 10. -/
def titledPub (title : CString) : SosPub := sosPubInit plainConfig 10 title 0

/-- A title that is longer than the guid in decimal, and one that is not. -/
def longTitle : CString := ⟨[97, 98, 99], by decide⟩

def shortTitle : CString := ⟨[97], by decide⟩

theorem longTitle_inFields : (titledPub longTitle).InFields :=
  ⟨by decide, by decide, by decide, by decide, by decide, by decide, by decide⟩

theorem shortTitle_inFields : (titledPub shortTitle).InFields :=
  ⟨by decide, by decide, by decide, by decide, by decide, by decide, by decide⟩

theorem announce_metadata_longTitle :
    letI := DoubleCodec.bits
    ∃ built d' pub', (sosAnnounceToBuffer 7 (titledPub longTitle).announceMsg).build = some built ∧
      (Daemon.start plainConfig none).handleAnnounceBuffer built.buffer = some d' ∧
      d'.pubTable 10 = some pub' ∧ pub'.SameMetadata (titledPub longTitle) := by
  let _ := DoubleCodec.bits
  have hfits : (sosAnnounceToBuffer 7 (titledPub longTitle).announceMsg).Fits := by decide
  obtain ⟨built, hbuild, -⟩ := Layout.builds_framed_iff.mpr hfits
  obtain ⟨d', pub', hd', hpub', hiff⟩ :=
    announce_metadata_iff longTitle_inFields hbuild (Daemon.start plainConfig none)
  have hcovered : ((Daemon.start plainConfig none).pubFor 10).Covered (titledPub longTitle) :=
    ⟨by decide, by decide, by decide, by decide, by decide⟩
  exact ⟨built, d', pub', hbuild, hd', hpub', hiff.mpr hcovered⟩

/-- **A first ANNOUNCE that leaves another title**: behind the client's are the
last digits of the guid. -/
theorem not_announce_metadata :
    letI := DoubleCodec.bits
    ∃ built d' pub', (sosAnnounceToBuffer 7 (titledPub shortTitle).announceMsg).build = some built ∧
      (Daemon.start plainConfig none).handleAnnounceBuffer built.buffer = some d' ∧
      d'.pubTable 10 = some pub' ∧ ¬ pub'.SameMetadata (titledPub shortTitle) := by
  let _ := DoubleCodec.bits
  have hfits : (sosAnnounceToBuffer 7 (titledPub shortTitle).announceMsg).Fits := by decide
  obtain ⟨built, hbuild, -⟩ := Layout.builds_framed_iff.mpr hfits
  have hread := unpackAnnounce_built shortTitle_inFields.storable hbuild
  refine ⟨built, (Daemon.start plainConfig none).handleAnnounce (titledPub shortTitle).announceMsg,
    _, hbuild, ?_, rfl, fun hsame => ?_⟩
  · rw [Daemon.handleAnnounceBuffer, hread, Option.map_some]
  · have htitle := hsame.title
    revert htitle
    decide

end SosFlow
