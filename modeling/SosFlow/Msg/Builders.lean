import SosFlow.Msg.Zip
import SosFlow.Pub.Types

/-!
# The message builders

The builders of the client library, the analytics library and the daemon,
each as the layout it chooses: the size of its buffer, its header and its
body, call by call. `SOS_announce`, `SOS_publish` and the snapshot queue
build from records that say what the message is to carry; the others build
from their arguments.

Three builders are no layout. `SOS_pub_config` does not put the size into
the header it zips again, `SOSD_handle_probe` zips no header at all, and a
refused registration is built into the buffer its reply is then built over.
-/

namespace SosFlow

/-! ## The client library -/

/-- What an ANNOUNCE says about one element. -/
structure AnnounceElem where
  guid : SosGuid
  name : CString
  type : ValType
  valMeta : SosValMeta
deriving DecidableEq

/-- **What an ANNOUNCE carries.** -/
structure AnnounceMsg where
  refGuid : SosGuid
  nodeId : CString
  processId : CInt
  threadId : CInt
  commRank : CInt
  progName : CString
  progVer : CString
  pragmaLen : CInt
  pragmaMsg : CString
  title : CString
  pubMeta : SosPubMeta
  cacheDepth : CInt
  elems : List AnnounceElem
deriving DecidableEq

/-- What a PUBLISH says about one element. -/
structure PublishElem where
  elem : ℕ
  pack : Double
  send : Double
  valLen : CInt
  semantic : CInt
  relationId : SosGuid
  val : SosVal
deriving DecidableEq

/-- **What a PUBLISH carries.** -/
structure PublishMsg where
  refGuid : SosGuid
  frame : CLong
  elems : List PublishElem
deriving DecidableEq

/-- **What a VAL_SNAPS carries**: snapshots, each with its value as it was
read for the wire. -/
structure ValSnapsMsg where
  refGuid : SosGuid
  snaps : List (SosValSnap × SosVal)
deriving DecidableEq

/-- The value of an element or a snapshot, packed by its type. -/
def packVal : SosVal → PackCall
  | .int i => .fields [.i i]
  | .long l => .fields [.l l]
  | .double d => .fields [.d d]
  | .string c => .fields [.s c]
  | .bytes b => .bytes b

/-- The body of an ANNOUNCE: `"siiississiiiiiiii"`, then `"gsiiiiiig"` for
each element. -/
def AnnounceMsg.calls (m : AnnounceMsg) : List PackCall :=
  .fields [.s m.nodeId, .i m.processId, .i m.threadId, .i m.commRank, .s m.progName,
      .s m.progVer, .i m.pragmaLen, .s m.pragmaMsg, .s m.title, .i (intOf m.elems.length),
      .i m.pubMeta.channel, .i m.pubMeta.layer, .i m.pubMeta.nature, .i m.pubMeta.priHint,
      .i m.pubMeta.scopeHint, .i m.pubMeta.retainHint, .i m.cacheDepth] ::
    m.elems.map fun e =>
      .fields [.g e.guid, .s e.name, .i e.type.code, .i e.valMeta.freq, .i e.valMeta.semantic,
        .i e.valMeta.classifier, .i e.valMeta.pattern, .i e.valMeta.compare,
        .g e.valMeta.relationId]

/-- The body of a PUBLISH: `"l"`, then `"iddilg"` and the value for each
element. The semantic is an `int` where the format reads a `long`. -/
def PublishMsg.calls (m : PublishMsg) : List PackCall :=
  .fields [.l m.frame] :: m.elems.flatMap fun e =>
    [.fields [.i (intOf e.elem), .d e.pack, .d e.send, .i e.valLen,
      .l (e.semantic.signExtend 64), .g e.relationId], packVal e.val]

/-- The body of a VAL_SNAPS: `"i"`, then `"iggiiidddl"` and the value for
each snapshot. -/
def ValSnapsMsg.calls (m : ValSnapsMsg) : List PackCall :=
  .fields [.i (intOf m.snaps.length)] :: m.snaps.flatMap fun s =>
    [.fields [.i (intOf s.1.elem), .g s.1.guid, .g s.1.relationId, .i s.1.semantic,
      .i s.1.type.code, .i s.1.valLen, .d s.1.time.pack, .d s.1.time.send, .d s.1.time.recv,
      .l s.1.frame], packVal s.2]

/-- `SOS_announce_to_buffer`, in the buffer `SOS_announce` makes. -/
def sosAnnounceToBuffer (myGuid : SosGuid) (m : AnnounceMsg) : Layout :=
  ⟨sosDefaultBufferMax, MsgType.announce.code, myGuid, m.refGuid, m.calls⟩

/-- `SOS_publish_to_buffer`, in the buffer `SOS_publish` makes. -/
def sosPublishToBuffer (myGuid : SosGuid) (m : PublishMsg) : Layout :=
  ⟨sosDefaultBufferMax, MsgType.publish.code, myGuid, m.refGuid, m.calls⟩

/-- `SOS_val_snap_queue_to_buffer`, in that buffer, wiped, with the capacity
the PUBLISH left it. -/
def sosValSnapQueueToBuffer (myGuid : SosGuid) (maxSize : ℕ) (m : ValSnapsMsg) : Layout :=
  ⟨maxSize, MsgType.valSnaps.code, myGuid, m.refGuid, m.calls⟩

/-- The registration request of `SOS_init`. -/
def sosInitRegister (versionMajor versionMinor clientUid : CInt) : Layout :=
  ⟨1024, MsgType.register.code, 0, 0,
    [.fields [.i versionMajor, .i versionMinor], .fields [.i clientUid]]⟩

/-- The empty message `SOS_finalize` sends to itself. -/
def sosFinalizeFlush (myGuid : SosGuid) : Layout :=
  ⟨1024, MsgType.feedback.code, myGuid, -1, []⟩

/-- `SOS_sense_register`. -/
def sosSenseRegister (myGuid : SosGuid) (handle nodeId : CString) (receivesPort : CInt) : Layout :=
  ⟨1024, MsgType.sensitivity.code, myGuid, 0,
    [.fields [.s handle, .s nodeId, .i receivesPort]]⟩

/-- `SOS_sense_trigger`, whose buffer is sized from its argument. -/
def sosSenseTrigger (myGuid : SosGuid) (handle data : CString) (dataLength : CInt) : Layout :=
  ⟨dataLength.toInt + 256, MsgType.triggerpull.code, myGuid, 0,
    [.fields [.s handle, .i dataLength, .s data]]⟩

/-- The GUID_BLOCK request of `SOS_uid_next`. -/
def sosUidNextRequest (myGuid : SosGuid) : Layout :=
  ⟨headerSize, MsgType.guidBlock.code, myGuid, 0, []⟩

/-! ## The analytics library -/

/-- `SOS->config.comm_rank` as the guid a header has for its sender. -/
def rankGuid (commRank : CInt) : SosGuid := commRank.signExtend 64

/-- The GUID_BLOCK request of `SOSA_guid_request`. -/
def sosaGuidRequest (commRank : CInt) : Layout :=
  ⟨256, MsgType.guidBlock.code, rankGuid commRank, 0, []⟩

/-- `SOSA_exec_query`. -/
def sosaExecQuery (commRank : CInt) (nodeId query : CString) (receivesPort : CInt)
    (queryGuid : SosGuid) : Layout :=
  ⟨4096, MsgType.query.code, rankGuid commRank, 0,
    [.fields [.s nodeId], .fields [.i receivesPort], .fields [.s query],
      .fields [.g queryGuid]]⟩

/-- `SOSA_cache_grab`. -/
def sosaCacheGrab (commRank : CInt) (nodeId pubFilterRegex valFilterRegex : CString)
    (receivesPort frameHead frameDepthLimit : CInt) (requestGuid : SosGuid) : Layout :=
  ⟨4096, MsgType.cacheGrab.code, rankGuid commRank, 0,
    [.fields [.s nodeId], .fields [.i receivesPort], .fields [.s pubFilterRegex],
      .fields [.s valFilterRegex], .fields [.i frameHead], .fields [.i frameDepthLimit],
      .fields [.g requestGuid]]⟩

/-- `SOSA_refresh_pub_manifest`, the request for a manifest. -/
def sosaRefreshPubManifest (commRank : CInt) (nodeId pubTitleFilter : CString)
    (receivesPort : CInt) (requestGuid : SosGuid) : Layout :=
  ⟨4096, MsgType.manifest.code, rankGuid commRank, 0,
    [.fields [.s nodeId], .fields [.i receivesPort], .fields [.s pubTitleFilter],
      .fields [.g requestGuid]]⟩

/-- **`SOSA_results`**: the names of the columns, and rows of that many
cells. -/
structure SosaResults where
  querySql : CString
  queryGuid : SosGuid
  execDuration : Double
  colNames : List CString
  rows : List (List CString)
  rows_length : ∀ row ∈ rows, row.length = colNames.length

/-- `"<none>"`. -/
def unlabelledQuery : CString := ⟨[60, 110, 111, 110, 101, 62], by decide⟩

/-- `SOSA_results_to_buffer`, into a wiped buffer of the feedback thread. -/
def sosaResultsToBuffer (commRank : CInt) (maxSize : ℕ) (results : SosaResults) : Layout :=
  let querySql := if results.querySql.length < 1 then unlabelledQuery else results.querySql
  ⟨maxSize, feedbackTypeQuery, rankGuid commRank, 0,
    .fields [.s querySql, .g results.queryGuid, .d results.execDuration] ::
    .fields [.i (intOf results.colNames.length), .i (intOf results.rows.length)] ::
    (results.colNames.map (fun name => .fields [.s name]) ++
      results.rows.flatMap fun row => row.map fun cell => .fields [.s cell])⟩

/-- The pubs whose title contains the filter (`strstr`). -/
def matchingPubs (filter : CString) (pubs : List SosPub) : List SosPub :=
  pubs.filter fun pub => decide (filter.bytes <:+: pub.title.bytes)

/-- The largest frame seen, kept in an `int` that starts at `-1`. -/
def maxFrameOverall (pubs : List SosPub) : CInt :=
  pubs.foldl (fun m pub => if m.toInt < pub.frame.toInt then pub.frame.setWidth 32 else m) (-1)

/-- The entries of a manifest, `"gsisiii"` for each pub. The frame is a
`long` where the format reads an `int`. -/
def manifestEntries (pubs : List SosPub) : List PackCall :=
  pubs.map fun pub =>
    .fields [.g pub.guid, .s pub.title, .i pub.commRank, .s pub.nodeId, .i pub.processId,
      .i (intOf pub.elemCount), .i (pub.frame.setWidth 32)]

/-- The three values in front of the entries. -/
def manifestTotals (matching : CInt) (elapsed : Double) (maxFrame : CInt) : List PackCall :=
  [.fields [.i matching], .fields [.d elapsed], .fields [.i maxFrame]]

/-- What `SOSA_pub_manifest_to_buffer` means to send. -/
def manifestLayout (commRank : CInt) (requestGuid : SosGuid) (filter : CString) (elapsed : Double)
    (pubs : List SosPub) : Layout :=
  ⟨4096, MsgType.manifest.code, rankGuid commRank, requestGuid,
    manifestTotals (intOf (matchingPubs filter pubs).length) elapsed
      (maxFrameOverall (matchingPubs filter pubs)) ++
    manifestEntries (matchingPubs filter pubs)⟩

/-! ## The daemon -/

/-- The reply of `SOSD_handle_guid_block`. -/
def sosdHandleGuidBlock (commRank : CInt) (blockFrom blockTo : SosGuid) : Layout :=
  ⟨sosDefaultBufferMax, MsgType.guidBlock.code, rankGuid commRank, 0,
    [.fields [.g blockFrom, .g blockTo]]⟩

/-- `"demo_function"`. -/
def demoFunction : CString :=
  ⟨[100, 101, 109, 111, 95, 102, 117, 110, 99, 116, 105, 111, 110], by decide⟩

/-- The reply of `SOSD_handle_check_in`. -/
def sosdHandleCheckIn : Layout :=
  ⟨sosDefaultBufferMax, MsgType.feedback.code, 0, 0,
    [.fields [.i feedbackTypePayload, .s demoFunction]]⟩

/-- The payload delivery of the feedback thread, in its wiped buffer. -/
def sosdFeedbackPayload (commRank : CInt) (maxSize : ℕ) (payload : List Byte) : Layout :=
  ⟨maxSize, feedbackTypePayload, rankGuid commRank, 0, [.bytes payload]⟩

/-- `SOSD_PACK_ACK`, in a buffer of the handler. -/
def sosdPackAck (maxSize : ℕ) : Layout :=
  ⟨maxSize, MsgType.ack.code, 0, 0, []⟩

/-- What `SOS_pub_config` means to send about a new cache depth. -/
def pubConfigLayout (myGuid pubGuid : SosGuid) (cacheDepth : CInt) : Layout :=
  ⟨1024, MsgType.cacheSize.code, myGuid, pubGuid, [.fields [.g pubGuid, .i cacheDepth]]⟩

/-- A format of `g`s, one for each word. -/
def guidFields {n : ℕ} (words : Vector SosGuid n) : List Field := words.toList.map .g

theorem not_isBlock_of_mem_guidFields {n : ℕ} {words : Vector SosGuid n} {f : Field}
    (h : f ∈ guidFields words) : ¬ f.IsBlock := by
  obtain ⟨w, _, rfl⟩ := List.mem_map.mp h
  exact id

/-- What `SOSD_handle_probe` means to reply: four queue depths, the counters
and the memory sizes. -/
def probeLayout (commRank : CInt) (depths : Vector SosGuid 4) (counters : Vector SosGuid 21)
    (memory : Vector SosGuid 2) : Layout :=
  ⟨sosDefaultBufferMax, MsgType.probe.code, rankGuid commRank, -1,
    [.fields (guidFields depths) fun _ => not_isBlock_of_mem_guidFields,
      .fields (guidFields counters) fun _ => not_isBlock_of_mem_guidFields,
      .fields (guidFields memory) fun _ => not_isBlock_of_mem_guidFields]⟩

/-- **A registration as the daemon receives it**, with what it answers from:
whether it refuses the client's uid, and the block of guids it claimed. -/
structure Registration where
  request : SosMsgHeader
  refused : Bool
  blockFrom : SosGuid
  blockTo : SosGuid
  versionMajor : CInt
  versionMinor : CInt
  serverUid : CInt
  commRank : CInt

/-- The reply to a registration: guids for a new client, an ACK for one that
is coming back. -/
def registerLayout (g : Registration) : Layout :=
  if g.request.msgFrom = 0 then
    ⟨sosDefaultBufferMax, MsgType.register.code, rankGuid g.commRank, 0,
      [.fields [.g g.blockFrom, .g g.blockTo], .fields [.i g.versionMajor, .i g.versionMinor],
        .fields [.i g.serverUid]]⟩
  else sosdPackAck sosDefaultBufferMax

section

variable [DoubleCodec]

/-- `SOS_pub_config` of `SOS_PUB_OPTION_CACHE`, on an announced pub: the
header is zipped again as it was. -/
def sosPubConfig (myGuid pubGuid : SosGuid) (cacheDepth : CInt) : Option Built := do
  let header : SosMsgHeader := ⟨-1, MsgType.cacheSize.code, myGuid, pubGuid⟩
  let b ← bufferOfSize 1024
  let r ← sosMsgZip b header 0
  let r ← packFields r.buffer r.offset [.g pubGuid, .i cacheDepth]
  let z ← sosMsgZip r.buffer header 0
  some ⟨r.buffer, z.buffer, z.buffer⟩

/-- `SOSD_handle_probe`: the reply is packed behind the offset that reading
the request left, and no header is zipped. -/
def sosdHandleProbe (depths : Vector SosGuid 4) (counters : Vector SosGuid 21)
    (memory : Vector SosGuid 2) : Option Built := do
  let b ← bufferOfSize sosDefaultBufferMax
  let r ← packFields b headerSize (guidFields depths)
  let r ← packFields r.buffer r.offset (guidFields counters)
  let r ← packFields r.buffer r.offset (guidFields memory)
  some ⟨r.buffer, r.buffer, r.buffer⟩

/-- `SOSA_pub_manifest_to_buffer`: zipped with placeholders for the totals,
which are packed over them after the last zip. -/
def sosaPubManifestToBuffer (commRank : CInt) (requestGuid : SosGuid) (filter : CString)
    (elapsed : Double) (pubs : List SosPub) : Option Built := do
  let found := matchingPubs filter pubs
  let m ← Layout.build ⟨4096, MsgType.manifest.code, rankGuid commRank, requestGuid,
    manifestTotals (-1) 0 (-1) ++ manifestEntries found⟩
  let r ← runCalls m.buffer headerSize
    (manifestTotals (intOf found.length) elapsed (maxFrameOverall found))
  some { m with buffer := r.1 }

/-- The refusal `SOSD_handle_register` writes when the client has another
uid, under the header of the request. -/
def packRefusal (b : SosBuffer) (g : Registration) : Option SosBuffer :=
  if g.refused then do
    let r ← sosMsgZip b g.request 0
    let r ← packFields r.buffer r.offset
      [.g 0, .g 0, .i g.versionMajor, .i g.versionMinor, .i g.serverUid]
    let z ← sosMsgZip r.buffer { g.request with msgSize := BitVec.ofNat 32 r.offset } 0
    some z.buffer
  else some b

/-- `SOSD_handle_register`, up to the reply it sends. -/
def sosdHandleRegister (g : Registration) : Option Built := do
  let b ← bufferOfSize sosDefaultBufferMax
  let b ← packRefusal b g
  zipPackZip b (registerLayout g)

end

end SosFlow
