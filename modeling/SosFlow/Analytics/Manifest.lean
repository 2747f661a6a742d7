import SosFlow.Analytics.TableRuns
import SosFlow.Daemon.Receive
import SosFlow.Lib.Sized
import SosFlow.Msg.Framing

/-!
# The manifest of a daemon

A client asks a daemon for the pubs whose title contains a filter, and makes
a results table of the reply. The daemon counts while it packs, so the three
totals in front of the entries are placeholders until the header is zipped
for the second time; they are then packed over, behind the header.

A buffer is the fields that were packed into it, each with the size it has
on the wire. `manifest_bytes` says that these are the bytes of
`sosaPubManifestToBuffer`, as long as the message fits its buffer.
-/

namespace SosFlow

/-- **A field**, as it was packed. -/
inductive PlainField where
  | int (i : ℤ)
  | guid (g : SosGuid)
  | double (d : Double)
  | str (c : CString)

/-- It as a field of a format. -/
def PlainField.field : PlainField → Field
  | .int i => .i (BitVec.ofInt 32 i)
  | .guid g => .g g
  | .double d => .d d
  | .str c => .s c

/-- Its size on the wire. -/
def PlainField.size : PlainField → ℕ
  | .int _ => 4
  | .guid _ => 8
  | .double _ => 8
  | .str c => 4 + c.length

theorem PlainField.size_pos (f : PlainField) : 0 < f.size := by
  cases f <;> simp [PlainField.size]

/-- `SOS_buffer_pack`: the buffer, and the offset behind what was packed. -/
def packPlain (b : List PlainField) (offset : ℕ) (fields : List PlainField) :
    List PlainField × ℕ :=
  (Sized.overwrite PlainField.size b offset fields, offset + Sized.total PlainField.size fields)

/-- `SOS_buffer_unpack` of one `"i"`. -/
def plainInt (b : List PlainField) (offset : ℕ) : Option (ℤ × ℕ) :=
  match Sized.behind PlainField.size offset b with
  | .int i :: _ => some (i, offset + 4)
  | _ => none

/-- Of one `"g"`. -/
def plainGuid (b : List PlainField) (offset : ℕ) : Option (SosGuid × ℕ) :=
  match Sized.behind PlainField.size offset b with
  | .guid g :: _ => some (g, offset + 8)
  | _ => none

/-- Of one `"d"`. -/
def plainDouble (b : List PlainField) (offset : ℕ) : Option (Double × ℕ) :=
  match Sized.behind PlainField.size offset b with
  | .double d :: _ => some (d, offset + 8)
  | _ => none

/-- `SOS_buffer_unpack_safestr`. -/
def plainSafestr (b : List PlainField) (offset : ℕ) : Option (CString × ℕ) :=
  match Sized.behind PlainField.size offset b with
  | .str c :: _ => some (c, offset + (4 + c.length))
  | _ => none

/-- The four fields of a header. -/
def headerPlain (msgSize : ℤ) (msgType : CInt) (msgFrom refGuid : SosGuid) : List PlainField :=
  [.int msgSize, .int msgType.toInt, .guid msgFrom, .guid refGuid]

/-- `SOS_msg_unzip`, of which the offset is used. -/
def unzipPlain (b : List PlainField) : Option ℕ := do
  let (_, offset) ← plainInt b 0
  let (_, offset) ← plainInt b offset
  let (_, offset) ← plainGuid b offset
  let (_, offset) ← plainGuid b offset
  some offset

/-! ## The request -/

/-- What a client asks for, and who it is. -/
structure ManifestRequest where
  commRank : CInt
  nodeId : CString
  receivesPort : CInt
  pubTitleFilter : CString
  requestGuid : SosGuid

/-- The request that `SOSA_refresh_pub_manifest` packs. -/
def ManifestRequest.pack (r : ManifestRequest) : List PlainField :=
  let header := fun size => headerPlain size MsgType.manifest.code (rankGuid r.commRank) 0
  let (msg, offset) := packPlain [] 0 (header (-1))
  let (msg, offset) := packPlain msg offset [.str r.nodeId]
  let (msg, offset) := packPlain msg offset [.int r.receivesPort.toInt]
  let (msg, offset) := packPlain msg offset [.str r.pubTitleFilter]
  let (msg, offset) := packPlain msg offset [.guid r.requestGuid]
  (packPlain msg 0 (header offset)).1

/-! ## The reply -/

/-- Where the loop over the pubs is. -/
@[ext] structure ManifestLoop where
  reply : List PlainField
  offset : ℕ
  matchingPubs : ℤ
  maxFrameOverall : ℤ

/-- One pub. The frame is a `long` where the format reads an `int`. -/
def ManifestLoop.turn (filter : CString) (s : ManifestLoop) (pub : SosPub) : ManifestLoop :=
  if filter.bytes <:+: pub.title.bytes then
    let (reply, offset) := packPlain s.reply s.offset [.guid pub.guid, .str pub.title,
      .int pub.commRank.toInt, .str pub.nodeId, .int pub.processId.toInt, .int pub.elemCount,
      .int (pub.frame.setWidth 32 : CInt).toInt]
    { reply := reply
      offset := offset
      matchingPubs := s.matchingPubs + 1
      maxFrameOverall := if pub.frame.toInt > s.maxFrameOverall
        then (pub.frame.setWidth 32 : CInt).toInt else s.maxFrameOverall }
  else s

/-- What `SOSA_pub_manifest_to_buffer` reads of a request: the filter and the guid. -/
def unpackRequest (request : List PlainField) : Option (CString × SosGuid) := do
  let offset ← unzipPlain request
  let (_, offset) ← plainSafestr request offset
  let (_, offset) ← plainInt request offset
  let (pubTitleFilter, offset) ← plainSafestr request offset
  let (requestGuid, _) ← plainGuid request offset
  some (pubTitleFilter, requestGuid)

/-- **`SOSA_pub_manifest_to_buffer`.** -/
def pubManifestToBuffer (commRank : CInt) (request : List PlainField) (pubs : List SosPub)
    (timeElapsed : Double) : Option (List PlainField) := do
  let (pubTitleFilter, requestGuid) ← unpackRequest request
  let header := fun size => headerPlain size MsgType.manifest.code (rankGuid commRank) requestGuid
  let (reply, offset) := packPlain [] 0 (header (-1))
  let (reply, offset) := packPlain reply offset [.int (-1)]
  let (reply, offset) := packPlain reply offset [.double 0]
  let (reply, offset) := packPlain reply offset [.int (-1)]
  let s := pubs.foldl (ManifestLoop.turn pubTitleFilter) ⟨reply, offset, 0, -1⟩
  let (reply, offset) := packPlain s.reply 0 (header s.offset)
  let (reply, offset) := packPlain reply offset [.int s.matchingPubs]
  let (reply, offset) := packPlain reply offset [.double timeElapsed]
  some (packPlain reply offset [.int s.maxFrameOverall]).1

/-! ## The table of the client -/

/-- `"%d"`. -/
def intStr (i : ℤ) : CString where
  bytes := (if i < 0 then [45] else []) ++
    if i = 0 then [48] else (Nat.digits 10 i.natAbs).reverse.map fun d => BitVec.ofNat 8 (48 + d)
  nonzero := by
    intro x hx
    rcases List.mem_append.mp hx with hsign | hdigits
    · split at hsign
      case isTrue =>
        rw [List.mem_singleton.mp hsign]
        decide
      case isFalse => exact absurd hsign List.not_mem_nil
    · split at hdigits
      case isTrue =>
        rw [List.mem_singleton.mp hdigits]
        decide
      case isFalse => exact digit_ne_zero x hdigits

/-- The seven columns. -/
def manifestNames : List CString :=
  [literal "pub_guid", literal "pub_title", literal "pub_comm_rank", literal "pub_node_id",
    literal "pub_process_id", literal "pub_elem_count", literal "pub_frame"]

/-- The texts of a row, and the offset behind it. -/
def unpackManifestRow (reply : List PlainField) (offset : ℕ) : Option (List CString × ℕ) := do
  let (pubGuid, offset) ← plainGuid reply offset
  let (pubTitle, offset) ← plainSafestr reply offset
  let (pubCommRank, offset) ← plainInt reply offset
  let (pubNodeId, offset) ← plainSafestr reply offset
  let (pubProcessId, offset) ← plainInt reply offset
  let (pubElemCount, offset) ← plainInt reply offset
  let (pubFrame, offset) ← plainInt reply offset
  some ([guidStr pubGuid, pubTitle, intStr pubCommRank, pubNodeId, intStr pubProcessId,
    intStr pubElemCount, intStr pubFrame], offset)

/-- The loop over the rows, of which some are left. -/
def putManifestRows (reply : List PlainField) :
    ℕ → ℕ → ℕ → ResultsTable → Option ResultsTable
  | 0, _, _, manifest => some manifest
  | left + 1, row, offset, manifest => do
    let (texts, offset) ← unpackManifestRow reply offset
    let manifest ← ResultsTable.putRow row 0 (texts.map some) manifest
    putManifestRows reply left (row + 1) offset { manifest with rowCount := row + 1 }

/-- **What `SOSA_refresh_pub_manifest` makes of a reply**: the table, and the frame it
reports. -/
def refreshPubManifest (reply : List PlainField) (manifest : ResultsTable) :
    Option (ResultsTable × ℤ) := do
  let manifest ← manifest.wipe
  let offset ← unzipPlain reply
  let (matchingPubs, offset) ← plainInt reply offset
  let (timeToExecute, offset) ← plainDouble reply offset
  let (maxFrameOverall, offset) ← plainInt reply offset
  let manifest ← ResultsTable.putNames 0 manifestNames
    { manifest with execDuration := timeToExecute }
  let manifest ← putManifestRows reply matchingPubs.toNat 0 offset manifest
  some (manifest, maxFrameOverall)

/-! ## Packing and reading -/

section

variable {b rest : List PlainField} {offset : ℕ}

/-- Fields packed behind the others. -/
theorem packPlain_end (b fields : List PlainField) :
    packPlain b (Sized.total PlainField.size b) fields =
      (b ++ fields, Sized.total PlainField.size (b ++ fields)) := by
  rw [packPlain, Sized.overwrite_end PlainField.size_pos, Sized.total_append]

/-- **Fields packed over placeholders** of their size. -/
theorem packPlain_over (before after : List PlainField) {old new : List PlainField}
    (hsize : Sized.total PlainField.size old = Sized.total PlainField.size new) :
    packPlain (before ++ old ++ after) (Sized.total PlainField.size before) new =
      (before ++ new ++ after, Sized.total PlainField.size (before ++ new)) := by
  rw [packPlain, Sized.overwrite_middle PlainField.size_pos before after hsize, Sized.total_append]

/-- **A field is read where it begins**, and the next ones begin behind it. -/
theorem plainInt_at {i : ℤ} (h : Sized.At PlainField.size b offset (.int i :: rest)) :
    plainInt b offset = some (i, offset + 4) ∧ Sized.At PlainField.size b (offset + 4) rest := by
  refine ⟨?_, h.next⟩
  rw [plainInt, h.behind PlainField.size_pos]

theorem plainGuid_at {g : SosGuid} (h : Sized.At PlainField.size b offset (.guid g :: rest)) :
    plainGuid b offset = some (g, offset + 8) ∧ Sized.At PlainField.size b (offset + 8) rest := by
  refine ⟨?_, h.next⟩
  rw [plainGuid, h.behind PlainField.size_pos]

theorem plainDouble_at {d : Double} (h : Sized.At PlainField.size b offset (.double d :: rest)) :
    plainDouble b offset = some (d, offset + 8) ∧
      Sized.At PlainField.size b (offset + 8) rest := by
  refine ⟨?_, h.next⟩
  rw [plainDouble, h.behind PlainField.size_pos]

theorem plainSafestr_at {c : CString} (h : Sized.At PlainField.size b offset (.str c :: rest)) :
    plainSafestr b offset = some (c, offset + (4 + c.length)) ∧
      Sized.At PlainField.size b (offset + (4 + c.length)) rest := by
  refine ⟨?_, h.next⟩
  rw [plainSafestr, h.behind PlainField.size_pos]

/-- **A header is read**, and what it is in front of begins behind it. -/
theorem unzipPlain_header (msgSize : ℤ) (msgType : CInt) (msgFrom refGuid : SosGuid)
    (rest : List PlainField) :
    unzipPlain (headerPlain msgSize msgType msgFrom refGuid ++ rest) = some 24 ∧
      Sized.At PlainField.size (headerPlain msgSize msgType msgFrom refGuid ++ rest) 24 rest := by
  have hstart : Sized.At PlainField.size
      (headerPlain msgSize msgType msgFrom refGuid ++ rest) 0 _ := Sized.At.start _
  obtain ⟨hsize, hat⟩ := plainInt_at hstart
  obtain ⟨htype, hat⟩ := plainInt_at hat
  obtain ⟨hfrom, hat⟩ := plainGuid_at hat
  obtain ⟨href, hat⟩ := plainGuid_at hat
  refine ⟨?_, hat⟩
  simp only [unzipPlain, Option.bind_eq_bind, Option.bind_some, hsize, htype, hfrom, href]

end

/-! ## The request is read -/

/-- **A request** is its header and four fields. -/
theorem ManifestRequest.pack_eq (r : ManifestRequest) : ∃ size,
    r.pack = headerPlain size MsgType.manifest.code (rankGuid r.commRank) 0 ++
      [.str r.nodeId, .int r.receivesPort.toInt, .str r.pubTitleFilter, .guid r.requestGuid] := by
  have hstart := packPlain_end [] (headerPlain (-1) MsgType.manifest.code (rankGuid r.commRank) 0)
  rw [Sized.total_nil, List.nil_append] at hstart
  have hover (size : ℤ) (fields : List PlainField) := packPlain_over [] fields
    (show Sized.total PlainField.size
        (headerPlain (-1) MsgType.manifest.code (rankGuid r.commRank) 0) =
      Sized.total PlainField.size (headerPlain size MsgType.manifest.code (rankGuid r.commRank) 0)
      from rfl)
  simp only [Sized.total_nil, List.nil_append] at hover
  unfold ManifestRequest.pack
  simp only [hstart, packPlain_end, List.append_assoc, List.cons_append, List.nil_append, hover]
  exact ⟨_, rfl⟩

/-- **The filter and the guid of a request** arrive. -/
theorem unpackRequest_pack (r : ManifestRequest) :
    unpackRequest r.pack = some (r.pubTitleFilter, r.requestGuid) := by
  obtain ⟨size, hpack⟩ := r.pack_eq
  rw [hpack]
  obtain ⟨hunzip, hat⟩ := unzipPlain_header size MsgType.manifest.code (rankGuid r.commRank) 0
    [.str r.nodeId, .int r.receivesPort.toInt, .str r.pubTitleFilter, .guid r.requestGuid]
  obtain ⟨hnode, hat⟩ := plainSafestr_at hat
  obtain ⟨hport, hat⟩ := plainInt_at hat
  obtain ⟨hfilter, hat⟩ := plainSafestr_at hat
  obtain ⟨hguid, -⟩ := plainGuid_at hat
  simp only [unpackRequest, Option.bind_eq_bind, Option.bind_some, hunzip, hnode, hport, hfilter,
    hguid]

/-! ## The loop over the pubs -/

/-- The seven fields of a pub. -/
def manifestPlain (pub : SosPub) : List PlainField :=
  [.guid pub.guid, .str pub.title, .int pub.commRank.toInt, .str pub.nodeId,
    .int pub.processId.toInt, .int pub.elemCount, .int (pub.frame.setWidth 32 : CInt).toInt]

/-- **Where the loop is** behind some matching pubs. -/
structure PackedPubs (front : List PlainField) (found : List SosPub) (s : ManifestLoop) :
    Prop where
  reply : s.reply = front ++ found.flatMap manifestPlain
  offset : s.offset = Sized.total PlainField.size s.reply
  matching : s.matchingPubs = found.length
  maxFrame : s.maxFrameOverall = (maxFrameOverall found).toInt

section

variable {front : List PlainField} {found pubs : List SosPub} {s : ManifestLoop} {filter : CString}
  {pub : SosPub}

/-- One pub more in the greatest frame. -/
theorem maxFrameOverall_concat (pubs : List SosPub) (pub : SosPub) :
    maxFrameOverall (pubs ++ [pub]) = if (maxFrameOverall pubs).toInt < pub.frame.toInt
      then pub.frame.setWidth 32 else maxFrameOverall pubs := by
  rw [maxFrameOverall, List.foldl_append]
  rfl

theorem PackedPubs.step (h : PackedPubs front found s) (filter : CString) (pub : SosPub) :
    PackedPubs front (found ++ matchingPubs filter [pub]) (s.turn filter pub) := by
  unfold ManifestLoop.turn
  by_cases hmatch : filter.bytes <:+: pub.title.bytes
  · have hfilter : matchingPubs filter [pub] = [pub] :=
      List.filter_eq_self.mpr fun q hq => by
        rw [List.mem_singleton.mp hq]
        exact decide_eq_true hmatch
    rw [if_pos hmatch, hfilter, h.offset, packPlain_end]
    refine ⟨?_, rfl, ?_, ?_⟩
    · rw [List.flatMap_append, List.flatMap_singleton, ← List.append_assoc, ← h.reply]
      rfl
    · rw [List.length_append, List.length_singleton, Nat.cast_succ, h.matching]
    · rw [maxFrameOverall_concat, h.maxFrame]
      show (if pub.frame.toInt > _ then _ else _) = _
      rw [apply_ite BitVec.toInt]
  · have hfilter : matchingPubs filter [pub] = [] :=
      List.filter_eq_nil_iff.mpr fun q hq => by
        rw [List.mem_singleton.mp hq]
        exact fun htrue => hmatch (of_decide_eq_true htrue)
    rw [if_neg hmatch, hfilter, List.append_nil]
    exact h

/-- **The whole loop** packs the pubs that match. -/
theorem PackedPubs.run (h : PackedPubs front found s) (filter : CString) (pubs : List SosPub) :
    PackedPubs front (found ++ matchingPubs filter pubs)
      (pubs.foldl (ManifestLoop.turn filter) s) := by
  induction pubs generalizing s found with
  | nil => rwa [matchingPubs, List.filter_nil, List.append_nil]
  | cons pub pubs ih =>
      have hsplit : matchingPubs filter (pub :: pubs) =
          matchingPubs filter [pub] ++ matchingPubs filter pubs :=
        List.filter_append [pub] pubs
      rw [hsplit, ← List.append_assoc]
      exact ih (h.step filter pub)

end

/-- What it leaves, from its start on. -/
theorem foldl_turn (front : List PlainField) (filter : CString) (pubs : List SosPub) :
    pubs.foldl (ManifestLoop.turn filter) ⟨front, Sized.total PlainField.size front, 0, -1⟩ =
      ⟨front ++ (matchingPubs filter pubs).flatMap manifestPlain,
        Sized.total PlainField.size (front ++ (matchingPubs filter pubs).flatMap manifestPlain),
        (matchingPubs filter pubs).length, (maxFrameOverall (matchingPubs filter pubs)).toInt⟩ := by
  have hstart : PackedPubs front [] ⟨front, Sized.total PlainField.size front, 0, -1⟩ :=
    ⟨(List.append_nil _).symm, rfl, rfl, rfl⟩
  have hloop := hstart.run filter pubs
  rw [List.nil_append] at hloop
  have hoffset := hloop.offset
  rw [hloop.reply] at hoffset
  exact ManifestLoop.ext hloop.reply hoffset hloop.matching hloop.maxFrame

/-- The fields of a reply. -/
def replyPlain (commRank : CInt) (requestGuid : SosGuid) (found : List SosPub)
    (timeElapsed : Double) : List PlainField :=
  headerPlain (40 + Sized.total PlainField.size (found.flatMap manifestPlain) : ℕ)
      MsgType.manifest.code (rankGuid commRank) requestGuid ++
    ([.int found.length, .double timeElapsed, .int (maxFrameOverall found).toInt] ++
      found.flatMap manifestPlain)

/-- **The header again, and the totals behind it**, over what was packed in their
place. -/
theorem pack_totals (size matching maxFrame : ℤ) (msgFrom refGuid : SosGuid)
    (timeElapsed : Double) (entries : List PlainField) :
    let header := fun size => headerPlain size MsgType.manifest.code msgFrom refGuid
    let (reply, offset) := packPlain
      (header (-1) ++ ([.int (-1), .double 0, .int (-1)] ++ entries)) 0 (header size)
    let (reply, offset) := packPlain reply offset [.int matching]
    let (reply, offset) := packPlain reply offset [.double timeElapsed]
    (packPlain reply offset [.int maxFrame]).1 =
      header size ++ ([.int matching, .double timeElapsed, .int maxFrame] ++ entries) := by
  dsimp only
  generalize hheader : headerPlain size MsgType.manifest.code msgFrom refGuid = header
  have hsize : Sized.total PlainField.size
      (headerPlain (-1) MsgType.manifest.code msgFrom refGuid) =
        Sized.total PlainField.size header := by
    rw [← hheader]
    rfl
  have hint (a b : ℤ) : Sized.total PlainField.size [.int a] =
      Sized.total PlainField.size [.int b] := rfl
  have hdouble (a b : Double) : Sized.total PlainField.size [.double a] =
      Sized.total PlainField.size [.double b] := rfl
  have hzip := packPlain_over [] ([.int (-1), .double 0, .int (-1)] ++ entries) hsize
  have hmatching := packPlain_over header ([.double 0, .int (-1)] ++ entries) (hint (-1) matching)
  have htime := packPlain_over (header ++ [.int matching]) (.int (-1) :: entries)
    (hdouble 0 timeElapsed)
  have hframe := packPlain_over (header ++ [.int matching, .double timeElapsed]) entries
    (hint (-1) maxFrame)
  simp only [Sized.total_nil, List.append_assoc, List.cons_append, List.nil_append]
    at hzip hmatching htime hframe
  simp only [List.cons_append, List.nil_append, hzip, hmatching, htime, hframe]

/-- **A reply** holds the pubs that match, behind their totals. -/
theorem pubManifestToBuffer_eq (commRank : CInt) (request : ManifestRequest) (pubs : List SosPub)
    (timeElapsed : Double) :
    pubManifestToBuffer commRank request.pack pubs timeElapsed = some (replyPlain commRank
      request.requestGuid (matchingPubs request.pubTitleFilter pubs) timeElapsed) := by
  have hstart := packPlain_end []
    (headerPlain (-1) MsgType.manifest.code (rankGuid commRank) request.requestGuid)
  rw [Sized.total_nil, List.nil_append] at hstart
  simp only [pubManifestToBuffer, unpackRequest_pack, Option.bind_eq_bind, Option.bind_some, hstart,
    packPlain_end, foldl_turn]
  -- the loop is behind the placeholders
  have hbuffer (header entries : List PlainField) :
      header ++ [PlainField.int (-1)] ++ [PlainField.double 0] ++ [PlainField.int (-1)] ++ entries =
        header ++ ([PlainField.int (-1), PlainField.double 0, PlainField.int (-1)] ++ entries) := by
    simp only [List.append_assoc, List.cons_append, List.nil_append]
  have hsize (size : ℤ) (msgFrom refGuid : SosGuid) (entries : List PlainField) :
      Sized.total PlainField.size (headerPlain size MsgType.manifest.code msgFrom refGuid ++
        ([PlainField.int (-1), PlainField.double 0, PlainField.int (-1)] ++ entries)) =
      40 + Sized.total PlainField.size entries := by
    rw [← List.append_assoc, Sized.total_append]
    rfl
  rw [hbuffer, hsize]
  have htotals (entries : List PlainField) (size matching maxFrame : ℤ) := pack_totals size matching
    maxFrame (rankGuid commRank) request.requestGuid timeElapsed entries
  dsimp only at htotals
  rw [htotals]
  rfl

/-! ## The bytes of a reply -/

/-- A field has one size. -/
theorem PlainField.size_field (f : PlainField) : f.field.size = f.size := by
  cases f <;> rfl

theorem sizeOf_map_field (fields : List PlainField) :
    sizeOf' (fields.map PlainField.field) = Sized.total PlainField.size fields := by
  induction fields with
  | nil => rfl
  | cons f fields ih => rw [List.map_cons, sizeOf'_cons, Sized.total_cons, f.size_field, ih]

section

variable [DoubleCodec]

/-- The entries of some pubs are encoded as the calls encode them. -/
theorem encAll_manifestPlain (found : List SosPub) :
    encAll ((found.flatMap manifestPlain).map PlainField.field) =
      encCalls (manifestEntries found) := by
  induction found with
  | nil => rfl
  | cons pub found ih =>
      have hentry : (manifestPlain pub).map PlainField.field = [.g pub.guid, .s pub.title,
          .i pub.commRank, .s pub.nodeId, .i pub.processId, .i (intOf pub.elemCount),
          .i (pub.frame.setWidth 32)] := by
        simp only [manifestPlain, List.map_cons, List.map_nil, PlainField.field,
          BitVec.ofInt_toInt, BitVec.ofInt_natCast, intOf]
      rw [List.flatMap_cons, List.map_append, hentry, manifestEntries, List.map_cons, encCalls_cons,
        ← manifestEntries, ← ih]
      exact List.flatMap_append

/-- So is the whole reply. -/
theorem encAll_replyPlain (commRank : CInt) (requestGuid : SosGuid) (found : List SosPub)
    (timeElapsed : Double) :
    encAll ((replyPlain commRank requestGuid found timeElapsed).map PlainField.field) =
      (SosMsgHeader.mk (BitVec.ofInt 32 (40 + Sized.total PlainField.size
        (found.flatMap manifestPlain) : ℕ)) MsgType.manifest.code (rankGuid commRank)
        requestGuid).enc ++ (encCalls (manifestTotals (intOf found.length) timeElapsed
          (maxFrameOverall found)) ++ encCalls (manifestEntries found)) := by
  have hsplit (fs gs : List Field) : encAll (fs ++ gs) = encAll fs ++ encAll gs :=
    List.flatMap_append
  have htotals : [PlainField.int found.length, .double timeElapsed,
      .int (maxFrameOverall found).toInt].map PlainField.field =
        [.i (intOf found.length), .d timeElapsed, .i (maxFrameOverall found)] := by
    simp only [List.map_cons, List.map_nil, PlainField.field, BitVec.ofInt_toInt,
      BitVec.ofInt_natCast, intOf]
  have hheader (size : ℤ) : (headerPlain size MsgType.manifest.code (rankGuid commRank)
      requestGuid).map PlainField.field = SosMsgHeader.fields ⟨BitVec.ofInt 32 size,
        MsgType.manifest.code, rankGuid commRank, requestGuid⟩ := by
    simp only [headerPlain, List.map_cons, List.map_nil, PlainField.field, BitVec.ofInt_toInt,
      SosMsgHeader.fields]
  rw [← encAll_manifestPlain, replyPlain, List.map_append, List.map_append, hsplit, hsplit,
    hheader, htotals]
  rfl

/-- **The bytes of a reply** that fits its buffer are those of its fields. -/
theorem manifest_bytes (commRank : CInt) (requestGuid : SosGuid) (filter : CString)
    (timeElapsed : Double) (pubs : List SosPub)
    (h : (manifestLayout commRank requestGuid filter timeElapsed pubs).Fits) :
    ∃ m ∈ sosaPubManifestToBuffer commRank requestGuid filter timeElapsed pubs,
      Mem.Holds m.buffer.data 0 (encAll ((replyPlain commRank requestGuid
        (matchingPubs filter pubs) timeElapsed).map PlainField.field)) := by
  obtain ⟨m, hm, hframed⟩ := sosaPubManifestToBuffer_of_fits h
  refine ⟨m, hm, ?_⟩
  have hbytes := hframed.bytes
  rw [hframed.len] at hbytes
  unfold manifestLayout at hbytes
  generalize matchingPubs filter pubs = found at hbytes ⊢
  have hcalls (totals : List PackCall) : encCalls (totals ++ manifestEntries found) =
      encCalls totals ++ encCalls (manifestEntries found) := List.flatMap_append
  have hlength : (encCalls (manifestEntries found)).length =
      Sized.total PlainField.size (found.flatMap manifestPlain) := by
    rw [← encAll_manifestPlain, length_encAll, sizeOf_map_field]
  have hsize : 40 + Sized.total PlainField.size (found.flatMap manifestPlain) =
      headerSize + (16 + Sized.total PlainField.size (found.flatMap manifestPlain)) := by
    rw [headerSize]
    omega
  simp only [hcalls, List.length_append, length_manifestTotals, hlength] at hbytes
  rw [encAll_replyPlain, hsize]
  exact hbytes

end

/-! ## The greatest frame -/

/-- An `int` holds a frame in its range. -/
theorem toInt_setWidth_of_le {frame : CLong} (hpos : 0 ≤ frame.toInt) (hle : frame.toInt ≤ intMax) :
    (frame.setWidth 32 : CInt).toInt = frame.toInt := by
  have hnat : (frame.toNat : ℤ) = frame.toInt := by
    have hlt := frame.isLt
    rw [BitVec.toInt_eq_toNat_cond] at hpos ⊢
    split_ifs at hpos ⊢
    · rfl
    · omega
  have hmax : (intMax : ℤ) = 2147483647 := rfl
  rw [BitVec.toInt_setWidth, hnat, Int.bmod_eq_of_le (by omega) (by omega)]

/-- **What is reported** as the greatest frame of some pubs. -/
def ReportsMax (pubs : List SosPub) (frame : ℤ) : Prop :=
  if pubs = [] then frame = -1 else IsGreatest {f | ∃ pub ∈ pubs, pub.frame.toInt = f} frame

section

variable {pubs : List SosPub}

/-- The loop keeps the greatest of the frames and of what it started with. -/
theorem isGreatest_maxFrameOverall
    (hframes : ∀ pub ∈ pubs, 0 ≤ pub.frame.toInt ∧ pub.frame.toInt ≤ intMax) :
    IsGreatest {f | f = -1 ∨ ∃ pub ∈ pubs, pub.frame.toInt = f} (maxFrameOverall pubs).toInt := by
  induction pubs using List.reverseRecOn with
  | nil => exact ⟨.inl rfl, fun f hf => hf.elim (fun hstart => hstart.le) (by simp)⟩
  | append_singleton pubs pub ih =>
      have hpub := hframes pub (List.mem_append_right pubs (List.mem_singleton_self pub))
      have hold := ih fun q hq => hframes q (List.mem_append_left [pub] hq)
      have hset : {f | f = -1 ∨ ∃ q ∈ pubs ++ [pub], q.frame.toInt = f} =
          insert pub.frame.toInt {f | f = -1 ∨ ∃ q ∈ pubs, q.frame.toInt = f} := by
        ext f
        simp only [List.mem_append, List.mem_singleton, Set.mem_ofPred_eq, Set.mem_insert_iff]
        grind
      have hmax : (maxFrameOverall (pubs ++ [pub])).toInt =
          max pub.frame.toInt (maxFrameOverall pubs).toInt := by
        rw [maxFrameOverall_concat]
        split_ifs with hlt
        · rw [toInt_setWidth_of_le hpub.1 hpub.2, max_eq_left hlt.le]
        · rw [max_eq_right (not_lt.mp hlt)]
      rw [hset, hmax]
      exact hold.insert pub.frame.toInt

/-- **The greatest frame is reported** as long as they are frames of an `int`. -/
theorem reportsMax_maxFrameOverall
    (hframes : ∀ pub ∈ pubs, 0 ≤ pub.frame.toInt ∧ pub.frame.toInt ≤ intMax) :
    ReportsMax pubs (maxFrameOverall pubs).toInt := by
  have hgreatest := isGreatest_maxFrameOverall hframes
  unfold ReportsMax
  split_ifs with hnil
  · rw [hnil]
    rfl
  · obtain ⟨pub, hmem⟩ := List.exists_mem_of_ne_nil pubs hnil
    have hle := hgreatest.2 (.inr ⟨pub, hmem, rfl⟩)
    have hpos := (hframes pub hmem).1
    refine ⟨hgreatest.1.resolve_left fun hstart => ?_, fun f hf => hgreatest.2 (.inr hf)⟩
    omega

end

/-! ## The rows -/

/-- The texts of a pub. -/
def manifestTexts (pub : SosPub) : List CString :=
  [guidStr pub.guid, pub.title, intStr pub.commRank.toInt, pub.nodeId, intStr pub.processId.toInt,
    intStr pub.elemCount, intStr pub.frame.toInt]

/-- **A table that is the manifest** of some pubs: named columns, and a row for each. -/
structure ResultsTable.IsManifest (t : ResultsTable) (found : List SosPub) : Prop where
  sound : t.Sound
  rowCount : t.rowCount = found.length
  name : ∀ col < manifestNames.length, t.name col = manifestNames[col]?
  entry : ∀ row col, t.entry row col = found[row]?.bind fun pub => (manifestTexts pub)[col]?

section

variable {t : ResultsTable} {reply after : List PlainField} {pubs : List SosPub} {pub : SosPub}
  {rows : List (List (Option CString))} {offset : ℕ}

/-- **A row is read** from the fields of its pub. -/
theorem unpackManifestRow_at (hframe : 0 ≤ pub.frame.toInt ∧ pub.frame.toInt ≤ intMax)
    (hat : Sized.At PlainField.size reply offset (manifestPlain pub ++ after)) :
    ∃ offset', unpackManifestRow reply offset = some (manifestTexts pub, offset') ∧
      Sized.At PlainField.size reply offset' after := by
  obtain ⟨hguid, hat⟩ := plainGuid_at hat
  obtain ⟨htitle, hat⟩ := plainSafestr_at hat
  obtain ⟨hrank, hat⟩ := plainInt_at hat
  obtain ⟨hnode, hat⟩ := plainSafestr_at hat
  obtain ⟨hprocess, hat⟩ := plainInt_at hat
  obtain ⟨helems, hat⟩ := plainInt_at hat
  obtain ⟨hframe', hat⟩ := plainInt_at hat
  refine ⟨_, ?_, hat⟩
  simp only [unpackManifestRow, Option.bind_eq_bind, Option.bind_some, hguid, htitle, hrank, hnode,
    hprocess, helems, hframe', toInt_setWidth_of_le hframe.1 hframe.2, manifestTexts]

/-- **The rows behind the first ones.** -/
theorem putManifestRows_spec (h : t.HoldsRows rows)
    (hframes : ∀ pub ∈ pubs, 0 ≤ pub.frame.toInt ∧ pub.frame.toInt ≤ intMax)
    (hat : Sized.At PlainField.size reply offset (pubs.flatMap manifestPlain)) :
    ∃ t', putManifestRows reply pubs.length rows.length offset t = some t' ∧
      t'.HoldsRows (rows ++ pubs.map fun pub => (manifestTexts pub).map some) ∧
      t'.name = t.name := by
  induction pubs generalizing t rows offset with
  | nil => exact ⟨t, rfl, by rwa [List.map_nil, List.append_nil], rfl⟩
  | cons pub pubs ih =>
      obtain ⟨offset', hread, hat'⟩ := unpackManifestRow_at (hframes pub List.mem_cons_self) hat
      have hwidth : ((manifestTexts pub).map some).length = 7 := rfl
      have hdefault : sosaDefaultResultColMax = 14 := rfl
      obtain ⟨put, hput, hrow, hrows⟩ := h.putRow ((manifestTexts pub).map some) (by omega)
        (fun hnil => absurd (congrArg List.length hnil) (by rw [hwidth]; decide))
      obtain ⟨t', ht', hrows', hname⟩ := ih hrows
        (fun q hq => hframes q (List.mem_cons_of_mem pub hq)) hat'
      refine ⟨t', ?_, ?_, hname.trans hrow.name⟩
      · rw [List.length_append, List.length_singleton] at ht'
        simp only [List.length_cons, putManifestRows, Option.bind_eq_bind, Option.bind_some, hread,
          hput]
        exact ht'
      · rwa [List.append_assoc, List.singleton_append] at hrows'

end

/-- **The results table of a client**, whatever it holds. The calls that write to one
leave one (`TableRun.Inv.sound`). -/
structure ClientTable where
  table : ResultsTable
  sound : table.Sound

/-- **The round trip of a manifest.** -/
theorem manifest_roundTrip (commRank : CInt) (request : ManifestRequest) (pubs : List SosPub)
    (timeElapsed : Double) (prior : ClientTable)
    (hframes : ∀ pub ∈ pubs, 0 ≤ pub.frame.toInt ∧ pub.frame.toInt ≤ intMax) :
    ∃ reply manifest frame,
      pubManifestToBuffer commRank request.pack pubs timeElapsed = some reply ∧
      refreshPubManifest reply prior.table = some (manifest, frame) ∧
      manifest.IsManifest (matchingPubs request.pubTitleFilter pubs) ∧
      ReportsMax (matchingPubs request.pubTitleFilter pubs) frame := by
  have hreply := pubManifestToBuffer_eq commRank request pubs timeElapsed
  have hfound : ∀ pub ∈ matchingPubs request.pubTitleFilter pubs,
      0 ≤ pub.frame.toInt ∧ pub.frame.toInt ≤ intMax :=
    fun pub hmem => hframes pub (List.mem_of_mem_filter hmem)
  generalize matchingPubs request.pubTitleFilter pubs = found at hreply hfound ⊢
  obtain ⟨wiped, hwipe, hwiped⟩ := prior.sound.shape.wipe prior.sound.rowCount_le
    prior.sound.colCount_le
  have hempty := prior.sound.holdsRows_wiped hwiped
  -- the totals
  obtain ⟨hunzip, hat⟩ := unzipPlain_header
    (40 + Sized.total PlainField.size (found.flatMap manifestPlain) : ℕ)
    MsgType.manifest.code (rankGuid commRank) request.requestGuid
    ([.int found.length, .double timeElapsed, .int (maxFrameOverall found).toInt] ++
      found.flatMap manifestPlain)
  obtain ⟨hmatching, hat⟩ := plainInt_at hat
  obtain ⟨htime, hat⟩ := plainDouble_at hat
  obtain ⟨hframe, hat⟩ := plainInt_at hat
  -- the names, and the rows
  have htimed : ({ wiped with execDuration := timeElapsed } : ResultsTable).HoldsRows [] :=
    hempty.same ⟨hempty.shape.names, hempty.shape.data⟩ rfl rfl rfl le_rfl le_rfl
  have hroom : 0 + manifestNames.length ≤ wiped.colMax + sosaDefaultResultColMax :=
    le_add_left (show 7 ≤ 14 by omega)
  obtain ⟨named, hnamed, hnames⟩ := htimed.shape.putNames hroom
  obtain ⟨manifest, hput, hrows, hname⟩ := putManifestRows_spec (htimed.putNames hnames) hfound hat
  have hcount : manifest.rowCount = found.length :=
    hrows.rowCount.trans (List.length_map _)
  refine ⟨_, manifest, _, hreply, ?_, ⟨hrows.sound, hcount, fun col hcol => ?_,
    fun row col => ?_⟩, reportsMax_maxFrameOverall hfound⟩
  · simp only [refreshPubManifest, replyPlain, Option.bind_eq_bind, Option.bind_some, hwipe, hunzip,
      hmatching, htime, hframe, hnamed, Int.toNat_natCast]
    exact Option.bind_eq_some_iff.mpr ⟨manifest, hput, rfl⟩
  · rw [hname, hnames.name, if_pos (by omega), Nat.sub_zero]
  · rw [hrows.entry, List.nil_append, List.getElem?_map]
    cases hpub : found[row]? with
    | none => rfl
    | some pub =>
        rw [Option.map_some, Option.bind_some, Option.bind_some, List.getElem?_map, Option.map_map]
        exact Option.map_id'

/-- A pub that the filter finds, and one that it does not. -/
def twoPubs : List SosPub :=
  [{ (default : SosPub) with title := nameX, frame := 3 }, { (default : SosPub) with frame := 8 }]

/-- **Their manifest**, in a table that holds one without a filter, of both. -/
theorem twoPubs_roundTrip : ∃ prior reply manifest frame,
    prior.IsManifest twoPubs ∧ prior.rowCount = 2 ∧
    pubManifestToBuffer 0 (ManifestRequest.mk 1 nameX 22500 nameX 7).pack twoPubs 0 = some reply ∧
    refreshPubManifest reply prior = some (manifest, frame) ∧
    manifest.IsManifest (matchingPubs nameX twoPubs) ∧ manifest.rowCount = 1 ∧
    ReportsMax (matchingPubs nameX twoPubs) frame := by
  have hframes : ∀ pub ∈ twoPubs, 0 ≤ pub.frame.toInt ∧ pub.frame.toInt ≤ intMax := by
    intro pub hmem
    rcases List.mem_pair.mp hmem with rfl | rfl
    · exact ⟨by decide, by decide⟩
    · exact ⟨by decide, by decide⟩
  obtain ⟨-, prior, -, -, -, hprior, -⟩ := manifest_roundTrip 0 ⟨1, nameX, 22500, literal "", 6⟩
    twoPubs 0 ⟨ResultsTable.initSized 512 7, (TableRun.inv_start 512 7).sound⟩ hframes
  have hall : matchingPubs (literal "") twoPubs = twoPubs := rfl
  obtain ⟨reply, manifest, frame, hreply, hmanifest, hof, hmax⟩ :=
    manifest_roundTrip 0 ⟨1, nameX, 22500, nameX, 7⟩ twoPubs 0 ⟨prior, hprior.sound⟩ hframes
  rw [hall] at hprior
  exact ⟨prior, reply, manifest, frame, hprior, hprior.rowCount, hreply, hmanifest, hof,
    hof.rowCount, hmax⟩

end SosFlow
