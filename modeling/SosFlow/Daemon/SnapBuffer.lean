import SosFlow.Daemon.Elements
import SosFlow.Daemon.Wire
import SosFlow.Lib.Lockstep

/-!
# A VAL_SNAPS, from queue to queue

`SOS_val_snap_queue_to_buffer` packs the snapshots of a queue one by one,
each with its value as the type of its element says, and
`SOS_val_snap_queue_from_buffer` unpacks as many as the count in front of
them says, each with its value as its own type says. What a buffer that
holds the message gives back is the queue that was sent.
-/

namespace SosFlow

open Outcome
open Mem (Holds)

section

variable [DoubleCodec]

/-! ## Reading a message -/

/-- The format of a snapshot, in front of its value. -/
def snapFormat : List Char := ['i', 'g', 'g', 'i', 'i', 'i', 'd', 'd', 'd', 'l']

/-- **One snapshot of a VAL_SNAPS.** -/
def unpackSnap (b : SosBuffer) (offset : ℕ) : Option (SosValSnap × SosBuffer × ℕ) :=
  (sosBufferUnpack b offset snapFormat).bind fun u => match u.outs with
    | [some (.int elem), some (.guid guid), some (.guid relationId), some (.int semantic),
        some (.int type), some (.int valLen), some (.double pack), some (.double send),
        some (.double recv), some (.long frame)] => do
      let type ← ValType.ofCode type
      let v ← unpackVal u.buffer u.offset valLen type
      some ({ elem := elem.toNat, guid, pubGuid := 0, relationId, frame, time := ⟨pack, send, recv⟩,
              semantic, type, valLen, val := v.1 }, v.2)
    | _ => none

/-- The loop over the snapshots. -/
def unpackSnaps : ℕ → SosBuffer → ℕ → Option (List SosValSnap)
  | 0, _, _ => some []
  | count + 1, b, offset => do
    let s ← unpackSnap b offset
    let others ← unpackSnaps count s.2.1 s.2.2
    some (s.1 :: others)

/-- **`SOS_val_snap_queue_from_buffer`**, on the bytes of the message. -/
def valSnapsFromBuffer (b : SosBuffer) (pub : SosPub) (queue : Option (SosPipe SosValSnap))
    (clock : ℕ → Double) : Option (Except CacheFault (SosPub × Option (SosPipe SosValSnap))) := do
  let header ← sosMsgUnzip b 0
  let u ← sosBufferUnpack b header.2 ['i']
  match u.outs with
  | [some (.int count)] =>
    if count.toInt < 1 then some (.ok (pub, queue))
    else do
      let snaps ← unpackSnaps count.toNat u.buffer u.offset
      some (sosValSnapQueueFromBuffer pub queue snaps clock)
  | _ => none

/-! ## Reading what was packed -/

/-- A snapshot as it is read from the wire, with the value that went with it. -/
def SosValSnap.overWire (p : SosValSnap × SosVal) : SosValSnap :=
  { p.1 with pubGuid := 0, time := p.1.time.overWire, val := p.2.overWire }

variable {b : SosBuffer} {offset : ℕ}

/-- The fields of a snapshot, in front of its value. -/
def snapFields (snap : SosValSnap) : List Field :=
  [.i (intOf snap.elem), .g snap.guid, .g snap.relationId, .i snap.semantic, .i snap.type.code,
    .i snap.valLen, .d snap.time.pack, .d snap.time.send, .d snap.time.recv, .l snap.frame]

omit [DoubleCodec] in
theorem snapFields_notBlock (snap : SosValSnap) : ∀ f ∈ snapFields snap, ¬ f.IsBlock := by
  simp [snapFields, Field.IsBlock]

/-- The two packing calls of a snapshot. -/
def snapCalls (p : SosValSnap × SosVal) : List PackCall :=
  [.fields (snapFields p.1) (snapFields_notBlock p.1), packVal p.2]

/-- The bytes of a snapshot. -/
def snapSize (p : SosValSnap × SosVal) : ℕ := 64 + (packVal p.2).size

omit [DoubleCodec] in
theorem sizeOf_snapFields (snap : SosValSnap) : sizeOf' (snapFields snap) = 64 := by
  simp [snapFields, Field.size]

theorem length_encCalls_snapCalls (p : SosValSnap × SosVal) :
    (encCalls (snapCalls p)).length = snapSize p := by
  rw [length_encCalls]
  simp only [snapCalls, List.map_cons, List.map_nil, List.sum_cons, List.sum_nil, PackCall.size,
    sizeOf_snapFields, snapSize, Nat.add_zero]

/-- **A snapshot that its reader has room for**: its value has its type, and its
index fits the field. -/
structure ReadableSnap (p : SosValSnap × SosVal) : Prop where
  type : p.2.type = p.1.type
  room : p.2.RoomIn p.1.valLen
  elem : p.1.elem ≤ intMax

/-- **A snapshot is read as it was packed.** -/
theorem unpackSnap_reads {p : SosValSnap × SosVal} (h : ReadableSnap p)
    (hholds : Holds b.data offset (encCalls (snapCalls p))) (hin : offset + snapSize p ≤ b.max) :
    unpackSnap b offset = some (SosValSnap.overWire p, b, offset + snapSize p) := by
  obtain ⟨snap, val⟩ := p
  unfold snapSize at *
  rw [snapCalls, encCalls_cons, encCalls_cons, encCalls_nil, List.append_nil] at hholds
  obtain ⟨hfixed, hval⟩ := Mem.holds_append.mp hholds
  rw [PackCall.length_enc, PackCall.size, sizeOf_snapFields] at hval
  have hread : sosBufferUnpack b offset snapFormat =
      some ⟨b, offset + 64, 64, (snapFields snap).map fun f => some f.read⟩ := by
    have hformat : snapFormat = formatOf (snapFields snap) := rfl
    have hshort : ∀ f ∈ snapFields snap, f.Short := by simp [snapFields, Field.Short]
    rw [hformat, sosBufferUnpack_reads (snapFields_notBlock snap) hshort (by omega) hfixed,
      sizeOf_snapFields]
    rw [sizeOf_snapFields]
    omega
  have hvalue : unpackVal b (offset + 64) snap.valLen snap.type =
      some (val.overWire, b, offset + 64 + (packVal val).size) := by
    have htype : val.type = snap.type := h.type
    rw [← htype]
    have hroom : offset + 64 + (packVal val).size ≤ b.max := by
      change offset + (64 + (packVal val).size) ≤ b.max at hin
      omega
    exact unpackVal_reads h.room hval hroom
  have helem : (intOf snap.elem).toNat = snap.elem := toNat_intOf h.elem
  rw [unpackSnap, hread]
  simp only [Option.bind_some, snapFields, List.map_cons, List.map_nil, Field.read, Field.arg,
    ValType.ofCode_code, Option.bind_eq_bind, hvalue, helem, Nat.add_assoc]
  rfl

/-- **The snapshots are read one after the other.** -/
theorem unpackSnaps_reads {list : List (SosValSnap × SosVal)} (h : ∀ p ∈ list, ReadableSnap p)
    (hholds : Holds b.data offset (encCalls (list.flatMap snapCalls)))
    (hin : offset + (list.map snapSize).sum ≤ b.max) :
    unpackSnaps list.length b offset = some (list.map SosValSnap.overWire) := by
  induction list generalizing offset with
  | nil => rfl
  | cons p rest ih =>
      rw [List.forall_mem_cons] at h
      rw [List.map_cons, List.sum_cons] at hin
      have hsplit : encCalls ((p :: rest).flatMap snapCalls) =
          encCalls (snapCalls p) ++ encCalls (rest.flatMap snapCalls) := by
        simp only [encCalls, List.flatMap_cons, List.flatMap_append]
      rw [hsplit] at hholds
      obtain ⟨hfirst, hrest⟩ := Mem.holds_append.mp hholds
      rw [length_encCalls_snapCalls] at hrest
      have hone := unpackSnap_reads h.1 hfirst (by omega)
      have hothers := ih h.2 hrest (by omega)
      simp only [List.length_cons, unpackSnaps, hone, Option.bind_eq_bind, Option.bind_some,
        hothers, List.map_cons]

/-! ## The message -/

omit [DoubleCodec] in
/-- The body of a VAL_SNAPS is the count and the snapshots. -/
theorem calls_eq (m : ValSnapsMsg) : m.calls =
    .fields [.i (intOf m.snaps.length)] :: m.snaps.flatMap snapCalls := rfl

/-- **`SOS_val_snap_queue_from_buffer` reads the message**: it goes on with the
snapshots as they are read. -/
theorem valSnapsFromBuffer_reads {m : ValSnapsMsg} {header : SosMsgHeader} (hne : m.snaps ≠ [])
    (hcount : m.snaps.length ≤ intMax) (h : ∀ p ∈ m.snaps, ReadableSnap p)
    (hholds : Holds b.data 0 (header.enc ++ encCalls m.calls)) (pub : SosPub)
    (queue : Option (SosPipe SosValSnap)) (clock : ℕ → Double) :
    valSnapsFromBuffer b pub queue clock =
      some (sosValSnapQueueFromBuffer pub queue (m.snaps.map SosValSnap.overWire) clock) := by
  have hbound : headerSize + (4 + (m.snaps.map snapSize).sum) ≤ b.max := by
    have hlen := hholds.bound (by
      rw [SosMsgHeader.enc, SosMsgHeader.fields]
      simp [Field.enc_ne_nil])
    have hcalls : (encCalls m.calls).length = 4 + (m.snaps.map snapSize).sum := by
      rw [calls_eq, encCalls_cons, List.length_append, PackCall.length_enc, encCalls,
        List.flatMap_assoc, List.length_flatMap]
      exact congrArg (4 + ·) (congrArg List.sum
        (List.map_congr_left fun p _ => length_encCalls_snapCalls p))
    rw [List.length_append, hcalls, SosMsgHeader.length_enc] at hlen
    change _ ≤ b.data.length
    omega
  obtain ⟨hheader, hbody⟩ := Mem.holds_append.mp hholds
  rw [SosMsgHeader.length_enc, Nat.zero_add, calls_eq, encCalls_cons] at hbody
  obtain ⟨hcounted, hsnaps⟩ := Mem.holds_append.mp hbody
  have hzip := sosMsgUnzip_of_holds (by omega) hheader
  have hread : sosBufferUnpack b headerSize ['i'] = some ⟨b, headerSize + 4, 4,
      [some (Field.i (intOf m.snaps.length)).read]⟩ := by
    have hone : Holds b.data headerSize (Field.i (intOf m.snaps.length)).enc := by
      simpa [PackCall.enc] using hcounted
    have hshort : (Field.i (intOf m.snaps.length)).Short := trivial
    exact sosBufferUnpack_one rfl id hshort hone (by simp only [Field.size]; omega)
  have hpos := List.length_pos_of_ne_nil hne
  rw [PackCall.length_enc] at hsnaps
  have hall : unpackSnaps m.snaps.length b (headerSize + 4) = _ :=
    unpackSnaps_reads h hsnaps (by omega)
  rw [valSnapsFromBuffer, hzip]
  simp only [Option.bind_eq_bind, Option.bind_some, hread, Field.read, Field.arg,
    toInt_intOf hcount, toNat_intOf hcount]
  rw [if_neg (by omega), hall, Option.bind_some]

/-! ## From queue to queue -/

/-- **A snapshot that can be sent whole**: it has the type of its element, its
value is one of that type, and the conversions keep its doubles. -/
structure SnapFits (pub : SosPub) (snap : SosValSnap) : Prop where
  elem : ∃ data, pub.data[snap.elem]? = some data ∧ data.type = snap.type
  val : ∃ val, snap.val.readAs snap.type = some val ∧ val.RoomIn snap.valLen ∧ val.overWire = val
  pack : snap.time.overWire.pack = snap.time.pack

omit [DoubleCodec] in
/-- **The same snapshot**, as a pub receives it. -/
structure SameSnap (pubGuid : SosGuid) (snap received : SosValSnap) : Prop where
  elem : received.elem = snap.elem
  guid : received.guid = snap.guid
  relationId : received.relationId = snap.relationId
  semantic : received.semantic = snap.semantic
  type : received.type = snap.type
  frame : received.frame = snap.frame
  valLen : received.valLen = snap.valLen
  val : snap.val.readAs snap.type = some received.val
  pack : received.time.pack = snap.time.pack
  pubGuid : received.pubGuid = pubGuid

omit [DoubleCodec] in
/-- The copies for the cache are the same snapshots. -/
theorem sameSnap_receivedCopies {g : SosGuid} {items received : List SosValSnap}
    (h : List.Forall₂ (SameSnap g) items received) (clock : ℕ → Double) :
    List.Forall₂ (SameSnap g) items (receivedCopies clock received) := by
  have hall : ∀ i, List.Forall₂ (SameSnap g) items ((received.zipIdx i).map fun p =>
      { p.1 with time := { p.1.time with recv := clock p.2 } }) := by
    induction h with
    | nil => exact fun i => .nil
    | cons hone _ ih =>
        intro i
        rw [List.zipIdx_cons, List.map_cons]
        exact .cons ⟨hone.elem, hone.guid, hone.relationId, hone.semantic, hone.type, hone.frame,
          hone.valLen, hone.val, hone.pack, hone.pubGuid⟩ (ih (i + 1))
  exact hall 0

omit [DoubleCodec] in
/-- **A list that is received into a cache is its newest one.** -/
theorem slot_cacheReceived {pub pub' : SosPub} {list : List SosValSnap} (hne : list ≠ [])
    (hdepth : 0 < pub.cacheDepth) (hnature : pub.pubMeta.nature ≠ natureSos)
    (h : cacheReceived pub list = .ok pub') : pub'.slot pub'.cacheHead = .ok ⟨list, .null⟩ := by
  rw [cacheReceived, if_pos ⟨hdepth, hnature⟩] at h
  unfold sosPackSnapListIntoPubCache at h
  rw [if_neg (not_lt.mpr hdepth)] at h
  cases list with
  | nil => exact absurd rfl hne
  | cons first rest =>
      simp only [if_neg hnature] at h
      obtain ⟨old, hold, h⟩ := bind_eq_ok.mp h
      split at h
      case isFalse => cases h
      case isTrue =>
        cases h
        unfold SosPub.slot at hold
        split at hold
        case isTrue => cases hold
        case isFalse hnonneg =>
          cases hcache : pub.cache with
          | none =>
              rw [SosPub.slots, hcache] at hold
              cases hold
          | some slots =>
              have hlt : pub.insertPos.toNat < slots.length := by
                by_contra hge
                rw [SosPub.slots, hcache, Option.getD_some,
                  List.getElem?_eq_none (not_lt.mp hge)] at hold
                cases hold
              have hset : (pub.setSlot pub.insertPos ⟨first :: rest, .null⟩).slots =
                  slots.set pub.insertPos.toNat ⟨first :: rest, .null⟩ := by
                rw [SosPub.slots, SosPub.setSlot, hcache, Option.map_some, Option.getD_some]
              change (pub.setSlot pub.insertPos ⟨first :: rest, .null⟩).slot pub.insertPos = _
              rw [SosPub.slot, if_neg hnonneg, hset, List.getElem?_set_self hlt]

/-- What is packed of a snapshot can be read, and is the same when it is. -/
theorem SnapFits.sent {pub : SosPub} {snap : SosValSnap} {p : SosValSnap × SosVal}
    (h : SnapFits pub snap) (helems : pub.data.length ≤ intMax) (hsent : SentAs pub snap p)
    (receiver : SosPub) :
    ReadableSnap p ∧
      SameSnap receiver.guid snap ((SosValSnap.overWire p).taggedFor receiver) := by
  obtain ⟨sent, val'⟩ := p
  obtain ⟨⟨now, hnow⟩, type, htype, hval'⟩ := hsent
  obtain ⟨data, hdata, hdatatype⟩ := h.elem
  obtain ⟨val, hval, hroom, hkept⟩ := h.val
  have hlt := (List.getElem?_eq_some_iff.mp hdata).1
  rw [SosPub.typeAt, SosPub.elemAt_eq_some (lt_of_lt_of_le hlt (Nat.le_add_right _ _)),
    Option.map_some, SosPub.elemOr_of_data hdata] at htype
  have hsnaptype : type = snap.type := (Option.some.inj htype).symm.trans hdatatype
  subst hsnaptype
  dsimp only at hval' hnow
  cases hval.symm.trans hval'
  subst hnow
  refine ⟨⟨SosVal.type_readAs hval, hroom, hlt.le.trans helems⟩, ?_⟩
  exact ⟨rfl, rfl, rfl, rfl, rfl, rfl, rfl, hval.trans (congrArg some hkept.symm), h.pack, rfl⟩

/-- **The round trip of a VAL_SNAPS**: it takes every snapshot out of the queue,
and from a buffer that holds it the same snapshots come, in the same order,
onto the queue of any pub that can receive, and into its cache. -/
theorem valSnaps_round_trip {pub : SosPub} {queue : SosPipe SosValSnap} (hcounted : queue.Counted)
    (hne : queue.items ≠ []) (hlen : queue.items.length ≤ intMax)
    (helems : pub.data.length ≤ intMax) (hsnaps : ∀ snap ∈ queue.items, SnapFits pub snap)
    (clock : ℕ → Double) :
    ∃ m, valSnapsMsg pub queue clock =
        some (some m, ⟨[], queue.elemCount - queue.items.length⟩) ∧
      ∀ (b : SosBuffer) (header : SosMsgHeader),
        Holds b.data 0 (header.enc ++ encCalls m.calls) →
      ∀ (receiver : SosPub) (into : SosPipe SosValSnap) (recv : ℕ → Double),
        receiver.CanReceive → ∃ received pub',
          valSnapsFromBuffer b receiver (some into) recv =
            some (.ok (pub', some ⟨into.items ++ received, into.elemCount + queue.items.length⟩)) ∧
          List.Forall₂ (SameSnap receiver.guid) queue.items received ∧
          receiver.Recached pub' ∧
          (0 < receiver.cacheDepth → receiver.pubMeta.nature ≠ natureSos → ∃ copies,
            pub'.slot pub'.cacheHead = .ok ⟨copies, .null⟩ ∧
            List.Forall₂ (SameSnap receiver.guid) queue.items copies) := by
  have hcanSend : ∀ snap ∈ queue.items, ∃ p, SentAs pub snap p := by
    intro snap hsnap
    obtain ⟨data, hdata, htype⟩ := (hsnaps snap hsnap).elem
    obtain ⟨val, hval, -⟩ := (hsnaps snap hsnap).val
    have hlt := (List.getElem?_eq_some_iff.mp hdata).1
    refine ⟨(snap, val), ⟨snap.time.send, rfl⟩, snap.type, ?_, hval⟩
    rw [SosPub.typeAt, SosPub.elemAt_eq_some (lt_of_lt_of_le hlt (Nat.le_add_right _ _)),
      Option.map_some, SosPub.elemOr_of_data hdata, htype]
  obtain ⟨⟨m, queue'⟩, hm⟩ := valSnapsMsg_isSome pub clock hcounted hcanSend
  obtain ⟨hqueue', hsent⟩ := valSnapsMsg_eq_some hcounted hm
  rcases hsent with ⟨hnil, -⟩ | ⟨-, sent, rfl, hall⟩
  · exact absurd hnil hne
  have hcount : queue.elemCount = queue.items.length := hcounted
  refine ⟨⟨pub.guid, sent⟩, ?_, fun b header hholds receiver into recv hcan => ?_⟩
  · rw [hm, hqueue', SosPipe.empty, hcount, sub_self]
  · have hpair : ∀ p ∈ sent, ReadableSnap p := by
      intro p hp
      obtain ⟨snap, hsnap, hone⟩ := Lockstep.left_of_mem hall hp
      exact ((hsnaps snap hsnap).sent helems hone receiver).1
    have hsentlen : sent.length = queue.items.length := hall.length_eq.symm
    have hsentne : sent ≠ [] := by
      intro hnil
      rw [hnil, List.length_nil] at hsentlen
      exact hne (List.eq_nil_of_length_eq_zero hsentlen.symm)
    have hread := valSnapsFromBuffer_reads (m := ⟨pub.guid, sent⟩) hsentne (hsentlen ▸ hlen)
      hpair hholds receiver (some into) recv
    obtain ⟨received, hreceived⟩ : ∃ received, received =
      (sent.map SosValSnap.overWire).map (·.taggedFor receiver) := ⟨_, rfl⟩
    have hsame : List.Forall₂ (SameSnap receiver.guid) queue.items received := by
      rw [hreceived, List.map_map, List.forall₂_map_right_iff]
      refine List.forall₂_iff_get.mpr ⟨hall.length_eq, fun i hi hi' => ?_⟩
      have hone := (List.forall₂_iff_get.mp hall).2 i hi hi'
      exact ((hsnaps _ (List.get_mem _ _)).sent helems hone receiver).2
    have hreceivedlen : received.length = queue.items.length := hsame.length_eq.symm
    have hcopiesne : receivedCopies recv received ≠ [] := by
      intro hnil
      have hzero := (sameSnap_receivedCopies hsame recv).length_eq
      rw [hnil, List.length_nil] at hzero
      exact hne (List.eq_nil_of_length_eq_zero hzero)
    obtain ⟨pub', hpub', hrecached⟩ := hcan.cacheReceived (receivedCopies recv received)
    refine ⟨received, pub', ?_, hsame, hrecached, fun hdepth hnature => ?_⟩
    · rw [hread, sosValSnapQueueFromBuffer, if_neg (by simpa using hsentne), ← hreceived]
      change some (cacheReceived receiver (receivedCopies recv received) >>= fun pub' =>
        .ok (pub', some (into.pushAll received))) = _
      rw [SosPipe.pushAll, hreceivedlen, hpub']
      rfl
    · exact ⟨_, slot_cacheReceived hcopiesne hdepth hnature hpub',
        sameSnap_receivedCopies hsame recv⟩

end

/-- A pub with a number and a string. -/
def mixedPub : SosPub :=
  { sosPubInit plainConfig 7 .empty 0 with
    data := [.blank, { SosData.blank with type := .string }] }

/-- A snapshot of each of them. -/
def mixedQueue : SosPipe SosValSnap where
  items :=
    [{ (default : SosValSnap) with frame := 3, type := .int, val := .int 5 },
      { (default : SosValSnap) with
        elem := 1, type := .string, valLen := 2, val := .string ⟨[104, 105], by decide⟩ }]
  elemCount := 2

/-- The daemon's pub, which keeps two lists. -/
def cachingPub : SosPub :=
  { mixedPub with cache := some [.null, .null], cacheDepth := 2 }

theorem valSnaps_round_trip_mixed :
    letI := DoubleCodec.bits
    ∃ (m : ValSnapsMsg) (b : SosBuffer) (received : List SosValSnap) (pub' : SosPub),
      valSnapsMsg mixedPub mixedQueue (fun _ => 0) = some (some m, .empty) ∧
      b.data = (SosMsgHeader.mk 0 0 0 7).enc ++ encCalls m.calls ∧
      valSnapsFromBuffer b cachingPub (some .empty) (fun _ => 0) =
        some (.ok (pub', some ⟨received, 2⟩)) ∧
      List.Forall₂ (SameSnap 7) mixedQueue.items received ∧ ∃ copies,
        pub'.slot pub'.cacheHead = .ok ⟨copies, .null⟩ ∧
        List.Forall₂ (SameSnap 7) mixedQueue.items copies := by
  let _ := DoubleCodec.bits
  have hsnaps : ∀ snap ∈ mixedQueue.items, SnapFits mixedPub snap := by
    intro snap hsnap
    rcases List.mem_cons.mp hsnap with rfl | hsnap
    · exact ⟨⟨_, rfl, rfl⟩, ⟨_, rfl, trivial, rfl⟩, rfl⟩
    · rw [List.mem_singleton.mp hsnap]
      exact ⟨⟨_, rfl, rfl⟩, ⟨_, rfl, rfl, rfl⟩, rfl⟩
  have hcounted : mixedQueue.Counted := rfl
  have hcan : cachingPub.CanReceive := fun _ _ => ⟨.null, rfl, rfl⟩
  obtain ⟨m, hm, hall⟩ := valSnaps_round_trip hcounted
    (by decide) (by decide) (by decide) hsnaps (fun _ => 0)
  have hlen : ((SosMsgHeader.mk 0 0 0 7).enc ++ encCalls m.calls).length ≤ intMax := by
    cases hm
    rw [List.length_append, SosMsgHeader.length_enc, length_encCalls]
    decide
  obtain ⟨received, pub', hreceived, hsame, -, hcache⟩ :=
    hall ⟨_, 0, hlen⟩ (SosMsgHeader.mk 0 0 0 7) List.prefix_rfl cachingPub .empty (fun _ => 0) hcan
  exact ⟨m, _, received, pub', hm, rfl, hreceived, hsame, hcache (by decide) (by decide)⟩

end SosFlow
