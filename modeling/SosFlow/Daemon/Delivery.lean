import SosFlow.Daemon.PublishBuffer

/-!
# What a PUBLISH delivers

`Delivered` says what a PUBLISH is for: the daemon's elements have the
values, times, semantics and relations of the client's DIRTY elements, and
nothing else of them or of the pub has changed. A PUBLISH that was built
can always be read back from its buffer, so whether it delivers only
depends on the DIRTY elements (`publish_delivered_iff`): none of them may be
a block, a string has to go with its length, and the classifier has to be
what is written over it.
-/

namespace SosFlow

/-- **A value that goes with its length.** -/
def SosVal.Measured (v : SosVal) (valLen : CInt) : Prop :=
  match v with
  | .string c => valLen.toInt = c.length
  | .bytes b => valLen.toInt = b.length
  | _ => True

/-- The daemon's element `old` with what a client's element is to deliver. -/
def SosData.delivered (data old : SosData) (send : Double) (val : SosVal) : SosData :=
  { old with
    val
    valLen := data.valLen
    time := { old.time with pack := data.time.pack, send }
    valMeta := { old.valMeta with
      semantic := data.valMeta.semantic
      relationId := data.valMeta.relationId }
    state := .clean }

/-- **What a PUBLISH is for.** -/
structure Delivered (client : SosPub) (send : Double) (pub pub' : SosPub) : Prop where
  frame : pub'.frame = client.frame
  dirty : ∀ pos data, client.data[pos]? = some data → data.state = .dirty →
    ∃ val, data.val.readAs data.type = some val ∧ val.Measured data.valLen ∧
      pub'.elemOr pos = data.delivered (pub.elemOr pos) send val
  other : ∀ pos, (∀ data, client.data[pos]? = some data → data.state ≠ .dirty) →
    pub'.elemOr pos = pub.elemOr pos
  length : pub'.data.length = pub.data.length
  elemMax : pub'.elemMax = pub.elemMax
  rest : { pub' with data := pub.data, spare := pub.spare, frame := pub.frame } = pub

/-- **The same definition of an element**, apart from what a PUBLISH may change. -/
structure SosData.SameDef (old data : SosData) : Prop where
  guid : old.guid = data.guid
  name : old.name = data.name
  type : old.type = data.type
  freq : old.valMeta.freq = data.valMeta.freq
  classifier : old.valMeta.classifier = data.valMeta.classifier
  pattern : old.valMeta.pattern = data.valMeta.pattern
  compare : old.valMeta.compare = data.valMeta.compare

/-- **A pub with the client's definitions.** -/
def SosPub.Defines (pub client : SosPub) : Prop :=
  ∀ (pos : ℕ) (data : SosData), client.data[pos]? = some data →
    ∃ old, pub.data[pos]? = some old ∧ old.SameDef data

/-- **An element that is delivered whole**: no block, a string with its length,
and a classifier that is the upper half of its semantic as a `long`. -/
structure SosData.Deliverable (data : SosData) : Prop where
  room : ∀ val, data.val.readAs data.type = some val → val.RoomIn data.valLen
  classifier : data.valMeta.classifier = (data.valMeta.semantic.signExtend 64).extractLsb' 32 32

section

variable [DoubleCodec]

/-- A double that the conversions keep. -/
def Kept (d : Double) : Prop := DoubleCodec.unpack754 (DoubleCodec.pack754 d) = d

/-- **An element whose doubles are kept** by the conversions. -/
structure SosData.Kept (data : SosData) : Prop where
  pack : SosFlow.Kept data.time.pack
  val : ∀ val, data.val.readAs data.type = some val → val.overWire = val

/-- **The message in a buffer is delivered**: it is read up to the size in its
header. -/
def PublishDelivered (b : SosBuffer) (client : SosPub) (send : Double) (pub : SosPub) : Prop :=
  ∃ pub' n header, sosMsgUnzip b 0 = some (header, headerSize) ∧
    publishFromBuffer b pub = some (pub', n) ∧ header.msgSize.toInt = n ∧
    Delivered client send pub pub'

variable {client pub : SosPub} {m : PublishMsg} {send : Double}

omit [DoubleCodec] in
/-- The elements of a PUBLISH are the DIRTY ones. -/
theorem elems_publishMsg (hm : client.publishMsg send = some m) :
    m.frame = client.frame ∧ m.elems = (client.data.zipIdx 0).filterMap (publishAt send) := by
  obtain ⟨elems, helems, hout⟩ := Option.bind_eq_some_iff.mp hm
  cases hout
  exact ⟨rfl, (publishElems_eq_some.mp helems).2⟩

omit [DoubleCodec] in
/-- Each of them can be read where the client's definitions are. -/
theorem readable_of_room (hm : client.publishMsg send = some m) (hcount : client.data.length ≤ intMax)
    (hdefs : pub.Defines client)
    (hroom : ∀ data ∈ client.data, data.state = .dirty →
      ∀ val, data.val.readAs data.type = some val → val.RoomIn data.valLen) :
    ∀ e ∈ m.elems, e.Readable pub := by
  intro e he
  rw [(elems_publishMsg hm).2] at he
  obtain ⟨data, hdata, hat⟩ := mem_published.mp he
  obtain ⟨hdirty, val, hval, heq⟩ := publishAt_eq_some.mp hat
  obtain ⟨old, hold, hdef⟩ := hdefs e.elem data hdata
  have hlt := (List.getElem?_eq_some_iff.mp hold).1
  have hlt' := (List.getElem?_eq_some_iff.mp hdata).1
  have hvalue : e.val = val := by rw [heq]; rfl
  have hlen : e.valLen = data.valLen := by rw [heq]; rfl
  refine ⟨lt_of_lt_of_le hlt (Nat.le_add_right _ _), hlt'.le.trans hcount, ?_, ?_⟩
  · rw [SosPub.elemOr_of_data hold, hdef.type, hvalue, SosVal.type_readAs hval]
  · rw [hvalue, hlen]
    exact hroom data (List.mem_of_getElem? hdata) hdirty val hval

omit [DoubleCodec] in
/-- A string that goes with its length has one that is an `int`. -/
theorem short_packVal {v : SosVal} {valLen : CInt} (h : v.RoomIn valLen) : (packVal v).Short := by
  cases v with
  | string c =>
      have hlen : c.length ≤ intMax := le_intMax_of_toInt h
      intro f hf
      rw [List.mem_singleton.mp hf]
      exact hlen
  | bytes b => exact absurd h id
  | _ =>
      intro f hf
      rw [List.mem_singleton.mp hf]
      trivial

omit [DoubleCodec] in
theorem steady_packVal (v : SosVal) : (packVal v).Steady := by
  cases v with
  | bytes b => trivial
  | _ => exact .inl le_rfl

/-- **A PUBLISH that was built is framed**, when its strings go with their
lengths. -/
theorem framed_publish {myGuid : SosGuid} {built : Built} (h : ∀ e ∈ m.elems, e.Readable pub)
    (hbuild : (sosPublishToBuffer myGuid m).build = some built) :
    Framed built (sosPublishToBuffer myGuid m) := by
  have hcalls : ∀ c ∈ m.calls, c.Steady ∧ c.Short := by
    rw [m.calls_eq, List.forall_mem_cons]
    refine ⟨⟨.inl le_rfl, by simp [PackCall.Short, Field.Short]⟩, fun c hc => ?_⟩
    obtain ⟨e, he, hc⟩ := List.mem_flatMap.mp hc
    rcases List.mem_cons.mp hc with rfl | hc
    · have hsize : sizeOf' (.i (intOf e.elem) :: elemFields e) = 40 := rfl
      refine ⟨.inr (hsize.le.trans (by decide)), ?_⟩
      simp [PackCall.Short, elemFields, Field.Short]
    · rw [List.mem_singleton.mp hc]
      exact ⟨steady_packVal e.val, short_packVal (h e he).room⟩
  exact Layout.framed_of_steady le_rfl (fun c hc => (hcalls c hc).1) (fun c hc => (hcalls c hc).2)
    hbuild

/-- **What the daemon reads of a PUBLISH that was built.** -/
theorem publish_read {myGuid : SosGuid} {built : Built} (h : ∀ e ∈ m.elems, e.Readable pub)
    (hnodup : (m.elems.map (·.elem)).Nodup)
    (hbuild : (sosPublishToBuffer myGuid m).build = some built) :
    ∃ pub' header, sosMsgUnzip built.buffer 0 = some (header, headerSize) ∧
      publishFromBuffer built.buffer pub = some (pub', headerSize + (encCalls m.calls).length) ∧
      header.msgSize.toInt = (headerSize + (encCalls m.calls).length : ℕ) ∧
      ReceivedElems { pub with frame := m.frame } (m.elems.map PublishElem.overWire) pub' := by
  have hframed := framed_publish h hbuild
  have hlen : built.buffer.len = (headerSize + (encCalls m.calls).length : ℕ) := hframed.len
  have hsize : BitVec.ofInt 32 built.buffer.len =
      BitVec.ofNat 32 (headerSize + (encCalls m.calls).length) := by
    rw [hlen, BitVec.ofInt_natCast]
  have hholds := hframed.bytes
  have hbound := hholds.bound (by
    rw [SosMsgHeader.enc, SosMsgHeader.fields]
    simp [Field.enc_ne_nil])
  rw [List.length_append, SosMsgHeader.length_enc, Nat.zero_add] at hbound
  have hmax := built.buffer.max_le
  have hheader := sosMsgUnzip_of_holds (le_trans (Nat.le_add_right _ _) hbound)
    (Mem.holds_append.mp hholds).1
  have hread := publishFromBuffer_reads h hsize hholds
  have hfits : ∀ e ∈ m.elems.map PublishElem.overWire, e.Fits { pub with frame := m.frame } := by
    intro e' he'
    obtain ⟨e, he, rfl⟩ := List.mem_map.mp he'
    exact ⟨(h e he).fits.allocated, (h e he).fits.type, (h e he).fits.notBytes⟩
  have hwire : ((m.elems.map PublishElem.overWire).map (·.elem)).Nodup := by
    rw [List.map_map]
    exact hnodup
  obtain ⟨pub', hpub', hall⟩ := receiveElems_eq_some hwire hfits
  refine ⟨pub', _, hheader, ?_, ?_, hall⟩
  · have hrecord : sosPublishFromBuffer pub m.overWire = some pub' := hpub'
    rw [hread, hrecord, Option.map_some]
  · change (BitVec.ofInt 32 built.buffer.len).toInt = _
    rw [hsize]
    exact toInt_intOf (hbound.trans hmax)

/-- What is stored of an element, when its doubles are kept and its classifier
is what goes over it. -/
theorem receive_overWire {data old : SosData} {pos : ℕ} {val : SosVal}
    (hval : data.val.readAs data.type = some val) (hkept : data.Kept) (hsend : Kept send)
    (hclass : old.valMeta.classifier =
      (data.valMeta.semantic.signExtend 64).extractLsb' 32 32) :
    old.receive (data.publish pos send val).overWire (data.publish pos send val).overWire.val =
      data.delivered old send val := by
  have hv : (data.publish pos send val).overWire.val = val := hkept.val val hval
  have hp : (data.publish pos send val).overWire.pack = data.time.pack := hkept.pack
  have hs : (data.publish pos send val).overWire.send = send := hsend
  rw [SosData.receive, SosData.delivered, hv, hp, hs]
  simp only [hclass]
  rfl

/-- **A PUBLISH is delivered** if and only if no DIRTY element is a block, the
strings go with their lengths, and the classifiers are what is written over
them. -/
theorem publish_delivered_iff {myGuid : SosGuid} {built : Built}
    (hm : client.publishMsg send = some m)
    (hbuild : (sosPublishToBuffer myGuid m).build = some built)
    (hcount : client.data.length ≤ intMax) (hdefs : pub.Defines client) (hblocks : pub.NoBlocks)
    (hsend : Kept send) (hkept : ∀ data ∈ client.data, data.state = .dirty → data.Kept) :
    PublishDelivered built.buffer client send pub ↔
      ∀ data ∈ client.data, data.state = .dirty → data.Deliverable := by
  obtain ⟨hframe, helems⟩ := elems_publishMsg hm
  have hnodup : (m.elems.map (·.elem)).Nodup := by
    rw [helems]
    exact nodup_published send client.data
  have hread : ∀ {pos : ℕ} {data : SosData} {val : SosVal}, client.data[pos]? = some data →
      data.state = .dirty → data.val.readAs data.type = some val →
      data.publish pos send val ∈ m.elems := by
    intro pos data val hdata hdirty hval
    rw [helems]
    exact mem_published.mpr ⟨data, hdata, publishAt_eq_some.mpr ⟨hdirty, val, hval, rfl⟩⟩
  constructor
  · rintro ⟨pub', n, header, -, hpub', -, hdelivered⟩
    have hnone := publishFromBuffer_noBlocks hblocks hpub'
    -- what was delivered is no block, and goes with its length
    have hroom : ∀ data ∈ client.data, data.state = .dirty →
        ∀ val, data.val.readAs data.type = some val → val.RoomIn data.valLen := by
      intro data hmem hdirty val hval
      obtain ⟨pos, hdata⟩ := List.mem_iff_getElem?.mp hmem
      obtain ⟨val', hval', hmeasured, helem⟩ := hdelivered.dirty pos data hdata hdirty
      cases hval.symm.trans hval'
      cases val with
      | bytes b =>
          have hnot := hnone pos
          rw [helem] at hnot
          exact absurd rfl hnot
      | string c => exact hmeasured
      | _ => trivial
    have hreadable := readable_of_room hm hcount hdefs hroom
    obtain ⟨pub'', header', -, hpub'', -, hall⟩ := publish_read hreadable hnodup hbuild
    cases hpub'.symm.trans hpub''
    intro data hmem hdirty
    obtain ⟨pos, hdata⟩ := List.mem_iff_getElem?.mp hmem
    obtain ⟨val, hval, -, helem⟩ := hdelivered.dirty pos data hdata hdirty
    have hmem := List.mem_map_of_mem (f := PublishElem.overWire) (hread hdata hdirty hval)
    have hstored := hall.elem _ hmem
    have hclass := congrArg (fun d : SosData => d.valMeta.classifier) (helem.symm.trans hstored)
    obtain ⟨old, hold, hdef⟩ := hdefs pos data hdata
    have hsame : (pub.elemOr pos).valMeta.classifier = data.valMeta.classifier := by
      rw [SosPub.elemOr_of_data hold, hdef.classifier]
    exact ⟨hroom data (List.mem_of_getElem? hdata) hdirty, hsame.symm.trans hclass⟩
  · intro hgood
    have hroom : ∀ data ∈ client.data, data.state = .dirty →
        ∀ val, data.val.readAs data.type = some val → val.RoomIn data.valLen :=
      fun data hmem hdirty => (hgood data hmem hdirty).room
    have hreadable := readable_of_room hm hcount hdefs hroom
    obtain ⟨pub', header, hheader, hpub', hsize, hall⟩ := publish_read hreadable hnodup hbuild
    refine ⟨pub', _, header, hheader, hpub', hsize, ?_, ?_, ?_, hall.republished.length,
      hall.republished.elemMax, ?_⟩
    · have hkeptFrame := congrArg (fun p : SosPub => p.frame) hall.republished.rest
      exact hkeptFrame.trans hframe
    · intro pos data hdata hdirty
      obtain ⟨old, hold, hdef⟩ := hdefs pos data hdata
      have hmem := List.mem_of_getElem? hdata
      have hsome := (publishElems_eq_some.mp (Option.bind_eq_some_iff.mp hm).choose_spec.1).1
      obtain ⟨val, hval⟩ := Option.isSome_iff_exists.mp (hsome data hmem hdirty)
      refine ⟨val, hval, ?_, ?_⟩
      · have hfits := hroom data hmem hdirty val hval
        cases val with
        | bytes b => exact absurd hfits id
        | string c => exact hfits
        | _ => trivial
      · have hstored := hall.elem _ (List.mem_map_of_mem (f := PublishElem.overWire)
          (hread hdata hdirty hval))
        have hclass : (pub.elemOr pos).valMeta.classifier =
            (data.valMeta.semantic.signExtend 64).extractLsb' 32 32 := by
          rw [SosPub.elemOr_of_data hold, hdef.classifier]
          exact (hgood data hmem hdirty).classifier
        exact hstored.trans (receive_overWire hval (hkept data hmem hdirty) hsend hclass)
    · intro pos hclean
      refine hall.other pos fun e' he' heq => ?_
      obtain ⟨e, he, rfl⟩ := List.mem_map.mp he'
      rw [helems] at he
      obtain ⟨data, hdata, hat⟩ := mem_published.mp he
      have hpos : e.elem = pos := heq
      rw [hpos] at hdata
      exact hclean data hdata (publishAt_eq_some.mp hat).1
    · have hrest := congrArg (fun p : SosPub => { p with frame := pub.frame }) hall.republished.rest
      exact hrest

end

/-- A client's pub with one DIRTY element. -/
def dirtyPub (type : ValType) (valLen : CInt) (val : SosVal) : SosPub :=
  { sosPubInitSized plainConfig 7 .empty 0 0 with
    data := [{ SosData.blank with type, valLen, val, state := .dirty }] }

/-- The daemon's pub for it, before any value. -/
def definedPub (type : ValType) : SosPub :=
  { sosPubInitSized plainConfig 7 .empty 0 0 with data := [{ SosData.blank with type }] }

theorem definedPub_defines (type : ValType) (valLen : CInt) (val : SosVal) :
    (definedPub type).Defines (dirtyPub type valLen val) := by
  intro pos data hdata
  cases pos with
  | zero =>
      cases hdata
      exact ⟨_, rfl, rfl, rfl, rfl, rfl, rfl, rfl, rfl⟩
  | succ pos => cases hdata

theorem definedPub_noBlocks (type : ValType) : (definedPub type).NoBlocks := by
  intro pos
  cases pos <;> exact fun hval => by cases hval

theorem publish_delivered_string :
    letI := DoubleCodec.bits
    ∃ m built, (dirtyPub .string 2 (.string ⟨[104, 105], by decide⟩)).publishMsg 0 = some m ∧
      (sosPublishToBuffer 9 m).build = some built ∧
      PublishDelivered built.buffer (dirtyPub .string 2 (.string ⟨[104, 105], by decide⟩)) 0
        (definedPub .string) := by
  let _ := DoubleCodec.bits
  have hm : ((dirtyPub .string 2 (.string ⟨[104, 105], by decide⟩)).publishMsg 0).any fun m =>
      decide (sosPublishToBuffer 9 m).Fits := by decide
  obtain ⟨m, hm, hfits⟩ := (Option.any_eq_true _ _).mp hm
  obtain ⟨built, hbuild, -⟩ := Layout.builds_framed_iff.mpr (of_decide_eq_true hfits)
  refine ⟨m, built, hm, hbuild, (publish_delivered_iff hm hbuild (by decide)
    (definedPub_defines _ _ _) (definedPub_noBlocks _) rfl ?_).mpr ?_⟩
  · intro data hdata _
    rw [List.mem_singleton.mp hdata]
    exact ⟨rfl, fun val hval => by cases hval; rfl⟩
  · intro data hdata _
    rw [List.mem_singleton.mp hdata]
    exact ⟨fun val hval => by cases hval; rfl, rfl⟩

/-- What `SOS_pack` keeps of a string of 257 characters, whose length it keeps. -/
def cutString : CString where
  bytes := List.replicate 256 97
  nonzero x hx := by
    rw [List.eq_of_mem_replicate hx]
    decide

/-- The PUBLISH of such a string. -/
def cutMsg : PublishMsg := ⟨7, 0, [⟨0, 0, 0, 257, 0, 0, .string cutString⟩]⟩

theorem cutMsg_fits : (sosPublishToBuffer 9 cutMsg).Fits := by
  refine ⟨by change (24 : ℤ) ≤ 4096; decide, by change (4096 : ℤ) ≤ 2147483647; decide, ?_⟩
  refine callsFit_of_half (by change 4096 ≤ 2147483647; decide) ?_
  have hcut : cutString.length = 256 := List.length_replicate
  have hsize : ((sosPublishToBuffer 9 cutMsg).calls.map PackCall.size).sum = 308 := by
    simp only [sosPublishToBuffer, PublishMsg.calls, cutMsg, List.flatMap_cons, List.flatMap_nil,
      List.append_nil, List.map_cons, List.map_nil, List.sum_cons, List.sum_nil, PackCall.size,
      packVal, sizeOf'_cons, sizeOf'_nil, Field.size, hcut, Nat.reduceAdd]
  rw [hsize]
  change 24 + 308 ≤ 4096 / 2
  decide

/-- **A block is not delivered**, and neither is a string that was cut with the
length it had. -/
theorem not_publish_delivered :
    letI := DoubleCodec.bits
    (∃ m built, (dirtyPub .bytes 1 (.bytes [1])).publishMsg 0 = some m ∧
      (sosPublishToBuffer 9 m).build = some built ∧
      ¬ PublishDelivered built.buffer (dirtyPub .bytes 1 (.bytes [1])) 0 (definedPub .bytes)) ∧
    ∃ m built, (dirtyPub .string 257 (.string cutString)).publishMsg 0 = some m ∧
      (sosPublishToBuffer 9 m).build = some built ∧
      ¬ PublishDelivered built.buffer (dirtyPub .string 257 (.string cutString)) 0
        (definedPub .string) := by
  let _ := DoubleCodec.bits
  constructor
  · have hm : ((dirtyPub .bytes 1 (.bytes [1])).publishMsg 0).any fun m =>
        decide (sosPublishToBuffer 9 m).Fits := by decide
    obtain ⟨m, hm, hfits⟩ := (Option.any_eq_true _ _).mp hm
    obtain ⟨built, hbuild, -⟩ := Layout.builds_framed_iff.mpr (of_decide_eq_true hfits)
    refine ⟨m, built, hm, hbuild, ?_⟩
    rintro ⟨pub', n, header, -, hpub', -, hdelivered⟩
    obtain ⟨val, hval, -, helem⟩ := hdelivered.dirty 0 _ rfl rfl
    cases hval
    have hnot := publishFromBuffer_noBlocks (definedPub_noBlocks _) hpub' 0
    rw [helem] at hnot
    exact hnot rfl
  · obtain ⟨built, hbuild, -⟩ := Layout.builds_framed_iff.mpr cutMsg_fits
    refine ⟨cutMsg, built, rfl, hbuild, ?_⟩
    rintro ⟨pub', n, header, -, -, -, hdelivered⟩
    obtain ⟨val, hval, hmeasured, -⟩ := hdelivered.dirty 0 _ rfl rfl
    cases hval
    have hlen : (257 : CInt).toInt = cutString.length := hmeasured
    have hcut : cutString.length = 256 := List.length_replicate
    rw [hcut] at hlen
    exact absurd hlen (by decide)

end SosFlow
