import SosFlow.Daemon.Elements
import SosFlow.Daemon.Wire

/-!
# A PUBLISH, from pub to pub

`SOS_publish_from_buffer` has no count: it reads element after element until
its offset reaches the size in the header, each with a value of the type
that the daemon's element has. On a message that holds what was packed for
it, it does to the pub what `sosPublishFromBuffer` does with the record.

Three things are not delivered. A block is packed, and not read. A string is
read into memory of the length that is sent beside it. And the semantic is
read as a `long`, so that its upper half goes over the classifier.
-/

namespace SosFlow

open Mem (Holds)

/-- An element behind a PUBLISH, with the `long` that is read over its semantic
and its classifier. -/
def SosData.receiveLong (data : SosData) (time : Double × Double) (valLen : CInt)
    (semantic : CLong) (relationId : SosGuid) (val : SosVal) : SosData :=
  { data with
    time := { data.time with pack := time.1, send := time.2 }
    valLen
    valMeta := { data.valMeta with
      semantic := semantic.extractLsb' 0 32
      classifier := semantic.extractLsb' 32 32
      relationId }
    val
    state := .clean }

section

variable [DoubleCodec]

/-! ## Reading the message -/

/-- The value of an element. A block is not read. -/
def unpackElemVal (data : SosData) (b : SosBuffer) (offset : ℕ) (valLen : CInt) :
    Option (SosVal × SosBuffer × ℕ) :=
  if data.type = .bytes then some (data.val, b, offset) else unpackVal b offset valLen data.type

/-- What is read of an element, into its data. -/
def unpackInto (data : SosData) (b : SosBuffer) (offset : ℕ) :
    Option (SosData × SosBuffer × ℕ) :=
  (sosBufferUnpack b offset ['d', 'd', 'i', 'l', 'g']).bind fun u => match u.outs with
    | [some (.double pack), some (.double send), some (.int valLen), some (.long semantic),
        some (.guid relationId)] =>
      (unpackElemVal data u.buffer u.offset valLen).map fun v =>
        (data.receiveLong (pack, send) valLen semantic relationId v.1, v.2)
    | _ => none

/-- **One turn of the loop.** -/
def unpackElem (pub : SosPub) (b : SosBuffer) (offset : ℕ) : Option (SosPub × SosBuffer × ℕ) :=
  (sosBufferUnpack b offset ['i']).bind fun u => match u.outs with
    | [some (.int elem)] =>
      if elem.toInt < 0 then none
      else do
        let data ← pub.elemAt elem.toNat
        let r ← unpackInto data u.buffer u.offset
        some (pub.putElem elem.toNat r.1, r.2)
    | _ => none

/-- The loop, in at most `rounds`: the pub and the offset it ends with. -/
def unpackElems (msgSize : ℤ) : ℕ → SosPub → SosBuffer → ℕ → Option (SosPub × ℕ)
  | 0, pub, _, offset => if msgSize ≤ offset then some (pub, offset) else none
  | rounds + 1, pub, b, offset =>
    if msgSize ≤ offset then some (pub, offset)
    else (unpackElem pub b offset).bind fun r => unpackElems msgSize rounds r.1 r.2.1 r.2.2

/-- **`SOS_publish_from_buffer`**, on the bytes of the message. A turn takes more
than one of them, so there are never more turns than bytes. -/
def publishFromBuffer (b : SosBuffer) (pub : SosPub) : Option (SosPub × ℕ) := do
  let header ← sosMsgUnzip b 0
  let u ← sosBufferUnpack b header.2 ['l']
  match u.outs with
  | [some (.long frame)] =>
    unpackElems header.1.msgSize.toInt header.1.msgSize.toInt.toNat { pub with frame } u.buffer
      u.offset
  | _ => none

/-! ## Reading what was packed -/

variable {b : SosBuffer} {offset : ℕ} {pub : SosPub}

/-- The fields in front of a value. -/
def elemFields (e : PublishElem) : List Field :=
  [.d e.pack, .d e.send, .i e.valLen, .l (e.semantic.signExtend 64), .g e.relationId]

omit [DoubleCodec] in
theorem elemFields_notBlock (e : PublishElem) :
    ∀ f ∈ Field.i (intOf e.elem) :: elemFields e, ¬ f.IsBlock := by
  simp [elemFields, Field.IsBlock]

/-- The two packing calls of an element. -/
def elemCalls (e : PublishElem) : List PackCall :=
  [.fields (.i (intOf e.elem) :: elemFields e) (elemFields_notBlock e), packVal e.val]

omit [DoubleCodec] in
/-- The body of a PUBLISH is the frame and the elements. -/
theorem PublishMsg.calls_eq (m : PublishMsg) :
    m.calls = .fields [.l m.frame] :: m.elems.flatMap elemCalls := rfl

/-- The bytes of an element. -/
def elemSize (e : PublishElem) : ℕ := 40 + (packVal e.val).size

theorem length_encCalls_elemCalls (e : PublishElem) :
    (encCalls (elemCalls e)).length = elemSize e := by
  rw [length_encCalls]
  simp only [elemCalls, List.map_cons, List.map_nil, List.sum_cons, List.sum_nil, Nat.add_zero]
  rfl

/-- **An element that its position has room for**: a value of the type it has
there, and a string of the length that is sent with it. -/
structure PublishElem.Readable (e : PublishElem) (pub : SosPub) : Prop where
  allocated : e.elem < pub.elemMax
  elem : e.elem ≤ intMax
  type : e.val.type = (pub.elemOr e.elem).type
  room : e.val.RoomIn e.valLen

omit [DoubleCodec] in
theorem PublishElem.Readable.notBytes {e : PublishElem} (h : e.Readable pub) :
    e.val.type ≠ .bytes := by
  intro hbytes
  have hroom := h.room
  cases hval : e.val with
  | bytes source =>
      rw [hval] at hroom
      exact hroom
  | _ =>
      rw [hval] at hbytes
      cases hbytes

theorem PublishElem.Readable.fits {e : PublishElem} (h : e.Readable pub) :
    e.overWire.Fits pub where
  allocated := h.allocated
  type := (SosVal.type_overWire e.val).trans h.type
  notBytes := by
    change e.val.overWire.type ≠ .bytes
    rw [SosVal.type_overWire]
    exact h.notBytes

omit [DoubleCodec] in
theorem PublishElem.Readable.republished {pub' : SosPub} {e : PublishElem} (h : e.Readable pub)
    (hpub : pub.Republished pub') : e.Readable pub' where
  allocated := hpub.elemMax ▸ h.allocated
  elem := h.elem
  type := h.type.trans (hpub.elem e.elem).type.symm
  room := h.room

omit [DoubleCodec] in
/-- The `long` of a semantic is the semantic, and its upper half. -/
theorem receiveLong_signExtend (data : SosData) (e : PublishElem) (val : SosVal) :
    data.receiveLong (e.pack, e.send) e.valLen (e.semantic.signExtend 64) e.relationId val =
      data.receive e val := by
  have hlow : (e.semantic.signExtend 64).extractLsb' 0 32 = e.semantic := by
    apply BitVec.eq_of_getElem_eq
    intro i hi
    have hwide : i < 64 := by omega
    rw [BitVec.getElem_extractLsb', Nat.zero_add, BitVec.getLsbD_signExtend]
    simp [hi, hwide]
  rw [SosData.receiveLong, hlow]
  rfl

/-- **What is read of an element** is what was packed of it. -/
theorem unpackInto_reads {e : PublishElem} (h : e.Readable pub)
    (hholds : Holds b.data offset (encAll (elemFields e) ++ (packVal e.val).enc))
    (hin : offset + (36 + (packVal e.val).size) ≤ b.max) :
    unpackInto (pub.elemOr e.elem) b offset =
      some ((pub.elemOr e.elem).receive e.overWire e.overWire.val, b,
        offset + (36 + (packVal e.val).size)) := by
  obtain ⟨hfixed, hval⟩ := Mem.holds_append.mp hholds
  have hsize : sizeOf' (elemFields e) = 36 := rfl
  rw [length_encAll, hsize] at hval
  have hblock : ∀ f ∈ elemFields e, ¬ f.IsBlock := fun f hf =>
    elemFields_notBlock e f (List.mem_cons_of_mem _ hf)
  have hread : sosBufferUnpack b offset ['d', 'd', 'i', 'l', 'g'] =
      some ⟨b, offset + 36, 36, (elemFields e).map fun f => some f.read⟩ :=
    sosBufferUnpack_reads hblock (by simp [elemFields, Field.Short]) (by omega) hfixed
      (by rw [hsize]; omega)
  have hvalue : unpackElemVal (pub.elemOr e.elem) b (offset + 36) e.valLen =
      some (e.val.overWire, b, offset + 36 + (packVal e.val).size) := by
    rw [unpackElemVal, ← h.type, if_neg h.notBytes]
    exact unpackVal_reads h.room hval (by omega)
  rw [unpackInto, hread]
  simp only [Option.bind_some, elemFields, List.map_cons, List.map_nil, Field.read, Field.arg,
    hvalue, Option.map_some, Nat.add_assoc, Option.some.injEq, Prod.mk.injEq, and_true]
  exact receiveLong_signExtend (pub.elemOr e.elem) e.overWire e.val.overWire

/-- **A turn reads an element** as it was packed. -/
theorem unpackElem_reads {e : PublishElem} (h : e.Readable pub)
    (hholds : Holds b.data offset (encCalls (elemCalls e))) (hin : offset + elemSize e ≤ b.max) :
    unpackElem pub b offset =
      (receiveElem pub e.overWire).map (·, b, offset + elemSize e) := by
  unfold elemSize at *
  rw [elemCalls, encCalls_cons, encCalls_cons, encCalls_nil, List.append_nil, PackCall.enc,
    encAll_cons, List.append_assoc] at hholds
  obtain ⟨hindex, hrest⟩ := Mem.holds_append.mp hholds
  rw [Field.length_enc] at hrest
  have hone : sosBufferUnpack b offset ['i'] =
      some ⟨b, offset + 4, 4, [some (Field.i (intOf e.elem)).read]⟩ := by
    have hshort : (Field.i (intOf e.elem)).Short := trivial
    exact sosBufferUnpack_one rfl id hshort hindex (by simp only [Field.size]; omega)
  have hinto := unpackInto_reads h hrest (by simp only [Field.size]; omega)
  have hval : readVal (pub.elemOr e.elem) e.overWire.val = some e.overWire.val := by
    have htype : e.overWire.val.type = (pub.elemOr e.elem).type := h.fits.type
    rw [readVal, if_neg (htype ▸ h.fits.notBytes), if_pos htype]
  have hat : pub.elemAt e.elem = some (pub.elemOr e.elem) := SosPub.elemAt_eq_some h.allocated
  have hreceived : receiveElem pub e.overWire = some (pub.putElem e.elem
      ((pub.elemOr e.elem).receive e.overWire e.overWire.val)) := by
    change (pub.elemAt e.elem).bind _ = _
    rw [hat, Option.bind_some]
    change (readVal _ _).bind _ = _
    rw [hval, Option.bind_some]
    rfl
  rw [unpackElem, hone, hreceived]
  simp only [Field.size] at hinto
  simp only [Option.bind_some, Field.read, Field.arg, toInt_intOf h.elem, toNat_intOf h.elem]
  rw [if_neg (by omega)]
  simp only [Option.bind_eq_bind, hat, Option.bind_some, hinto, Option.map_some]
  have hsum : offset + 4 + (36 + (packVal e.val).size) = offset + (40 + (packVal e.val).size) := by
    omega
  rw [hsum]

/-- **The loop reads the elements** and ends where they do. -/
theorem unpackElems_reads {elems : List PublishElem} {rounds : ℕ}
    (h : ∀ e ∈ elems, e.Readable pub)
    (hholds : Holds b.data offset (encCalls (elems.flatMap elemCalls)))
    (hin : offset + (elems.map elemSize).sum ≤ b.max) (hrounds : elems.length ≤ rounds) :
    unpackElems (offset + (elems.map elemSize).sum : ℕ) rounds pub b offset =
      (receiveElems pub (elems.map PublishElem.overWire)).map
        (·, offset + (elems.map elemSize).sum) := by
  induction elems generalizing pub offset rounds with
  | nil => cases rounds <;> simp [unpackElems, receiveElems]
  | cons e rest ih =>
      rw [List.forall_mem_cons] at h
      obtain ⟨rounds, rfl⟩ : ∃ r, rounds = r + 1 :=
        Nat.exists_eq_succ_of_ne_zero (by rw [List.length_cons] at hrounds; omega)
      have hsplit : encCalls ((e :: rest).flatMap elemCalls) =
          encCalls (elemCalls e) ++ encCalls (rest.flatMap elemCalls) := by
        simp only [encCalls, List.flatMap_cons, List.flatMap_append]
      rw [hsplit] at hholds
      obtain ⟨hfirst, hrest⟩ := Mem.holds_append.mp hholds
      rw [length_encCalls_elemCalls] at hrest
      rw [List.map_cons, List.sum_cons, ← Nat.add_assoc] at hin ⊢
      have hpos : 40 ≤ elemSize e := Nat.le_add_right _ _
      have hturn := unpackElem_reads h.1 hfirst (by omega)
      rw [unpackElems, if_neg (by omega), hturn, List.map_cons, receiveElems]
      obtain ⟨mid, hmid⟩ := receiveElem_isSome h.1.fits.allocated h.1.fits.type
      rw [hmid, Option.map_some, Option.bind_some, Option.bind_some]
      have hkept := (receiveElem_eq_some hmid).republished
      exact ih (fun e' he' => (h.2 e' he').republished hkept) hrest hin
        (Nat.le_of_succ_le_succ hrounds)

/-- **`SOS_publish_from_buffer` does to the pub what the record says**, and ends
at the size of the message. -/
theorem publishFromBuffer_reads {m : PublishMsg} {header : SosMsgHeader}
    (h : ∀ e ∈ m.elems, e.Readable pub)
    (hsize : header.msgSize = BitVec.ofNat 32 (headerSize + (encCalls m.calls).length))
    (hholds : Holds b.data 0 (header.enc ++ encCalls m.calls)) :
    publishFromBuffer b pub = (sosPublishFromBuffer pub m.overWire).map
      (·, headerSize + (encCalls m.calls).length) := by
  have hcalls : (encCalls m.calls).length = 8 + (m.elems.map elemSize).sum := by
    rw [m.calls_eq, encCalls_cons, List.length_append, PackCall.length_enc, encCalls,
      List.flatMap_assoc, List.length_flatMap]
    exact congrArg (8 + ·) (congrArg List.sum
      (List.map_congr_left fun e _ => length_encCalls_elemCalls e))
  have hbound : headerSize + (8 + (m.elems.map elemSize).sum) ≤ b.max := by
    have hlen := hholds.bound (by
      rw [SosMsgHeader.enc, SosMsgHeader.fields]
      simp [Field.enc_ne_nil])
    rw [List.length_append, hcalls, SosMsgHeader.length_enc] at hlen
    change _ ≤ b.data.length
    omega
  have hint := toInt_intOf (hbound.trans b.max_le_intMax)
  rw [intOf, ← hcalls, ← hsize] at hint
  obtain ⟨hheader, hbody⟩ := Mem.holds_append.mp hholds
  rw [SosMsgHeader.length_enc, Nat.zero_add, m.calls_eq, encCalls_cons] at hbody
  obtain ⟨hframe, helems⟩ := Mem.holds_append.mp hbody
  rw [PackCall.length_enc] at helems
  have hread : sosBufferUnpack b headerSize ['l'] =
      some ⟨b, headerSize + 8, 8, [some (Field.l m.frame).read]⟩ := by
    have hone : Holds b.data headerSize (Field.l m.frame).enc := by
      simpa [PackCall.enc] using hframe
    have hshort : (Field.l m.frame).Short := trivial
    exact sosBufferUnpack_one rfl id hshort hone (by simp only [Field.size]; omega)
  have hrounds : m.elems.length ≤ headerSize + (encCalls m.calls).length := by
    have hsizes := List.length_le_sum_of_one_le (m.elems.map elemSize) fun n hn => by
      obtain ⟨e, -, rfl⟩ := List.mem_map.mp hn
      exact le_trans (by decide) (Nat.le_add_right 40 _)
    rw [List.length_map] at hsizes
    omega
  have hframed : ∀ e ∈ m.elems, e.Readable { pub with frame := m.frame } := fun e he =>
    ⟨(h e he).allocated, (h e he).elem, (h e he).type, (h e he).room⟩
  have hall := unpackElems_reads hframed helems (by change headerSize + 8 + _ ≤ b.max; omega)
    hrounds
  rw [publishFromBuffer, sosMsgUnzip_of_holds (by omega) hheader]
  simp only [Option.bind_eq_bind, Option.bind_some, hread, Field.read, Field.arg, hint,
    Int.toNat_natCast]
  have hsum : headerSize + (encCalls m.calls).length =
      headerSize + 8 + (m.elems.map elemSize).sum := by omega
  rw [hsum] at hall ⊢
  exact hall

/-! ## The loop ends -/

/-- A call moves the offset by the bytes it reads. -/
theorem sosBufferUnpack_offset {format : List Char} {u : UnpackResult}
    (h : sosBufferUnpack b offset format = some u) : u.offset = offset + u.packedBytes := by
  obtain ⟨b', -, h⟩ := Option.bind_eq_some_iff.mp h
  obtain ⟨st, -, h⟩ := Option.bind_eq_some_iff.mp h
  split at h
  case isTrue =>
    cases h
    rfl
  case isFalse => cases h

theorem offset_lt_unpack_int {u : UnpackResult} (h : sosBufferUnpack b offset ['i'] = some u) :
    offset < u.offset := by
  rw [sosBufferUnpack_offset h]
  obtain ⟨b', st, -, hloop, -, hpacked⟩ := sosBufferUnpack_some h
  obtain ⟨st₁, hone, hrest⟩ := Option.bind_eq_some_iff.mp hloop
  cases hrest
  rw [unpackChar, if_pos rfl] at hone
  obtain ⟨bytes, -, hone⟩ := Option.bind_eq_some_iff.mp hone
  obtain ⟨v, -, hone⟩ := Option.bind_eq_some_iff.mp hone
  cases hone
  change u.packedBytes = 0 + 4 at hpacked
  omega

/-- A value is not a block, and is not read backwards. -/
theorem unpackVal_some {valLen : CInt} {t : ValType} {r : SosVal × SosBuffer × ℕ}
    (h : unpackVal b offset valLen t = some r) : r.1.type ≠ .bytes ∧ offset ≤ r.2.2 := by
  have hstart : ∀ {format : List Char} {u : UnpackResult}, sosBufferUnpack b offset format = some u →
      offset ≤ u.offset := fun hu => by
    rw [sosBufferUnpack_offset hu]
    exact Nat.le_add_right _ _
  cases t with
  | bytes => cases h
  | string =>
      obtain ⟨u, hu, h⟩ := Option.bind_eq_some_iff.mp h
      split at h
      case h_1 bytes _ =>
        obtain ⟨v, hv, rfl⟩ := Option.map_eq_some_iff.mp h
        unfold stringIn at hv
        split at hv
        case isTrue =>
          cases hv
          exact ⟨fun hval => (by cases hval), hstart hu⟩
        case isFalse => cases hv
      case h_2 => cases h
  | _ =>
      obtain ⟨u, hu, h⟩ := Option.bind_eq_some_iff.mp h
      split at h
      · cases h
        exact ⟨fun hval => (by cases hval), hstart hu⟩
      · cases h

theorem unpackInto_some {data : SosData} {r : SosData × SosBuffer × ℕ}
    (h : unpackInto data b offset = some r) :
    (data.val.type ≠ .bytes → r.1.val.type ≠ .bytes) ∧ offset ≤ r.2.2 := by
  obtain ⟨u, hu, h⟩ := Option.bind_eq_some_iff.mp h
  have hstart := sosBufferUnpack_offset hu
  split at h
  case h_1 =>
    obtain ⟨v, hv, rfl⟩ := Option.map_eq_some_iff.mp h
    unfold unpackElemVal at hv
    split at hv
    case isTrue =>
      cases hv
      exact ⟨id, by dsimp only; omega⟩
    case isFalse =>
      obtain ⟨hval, hle⟩ := unpackVal_some hv
      exact ⟨fun _ => hval, by dsimp only; omega⟩
  case h_2 => cases h

omit [DoubleCodec] in
/-- **No element has a block**: none that the daemon could read. -/
def SosPub.NoBlocks (pub : SosPub) : Prop := ∀ pos, (pub.elemOr pos).val.type ≠ .bytes

theorem unpackElem_some {r : SosPub × SosBuffer × ℕ} (h : unpackElem pub b offset = some r) :
    (pub.NoBlocks → r.1.NoBlocks) ∧ offset < r.2.2 := by
  obtain ⟨u, hu, h⟩ := Option.bind_eq_some_iff.mp h
  have hlt := offset_lt_unpack_int hu
  split at h
  case h_1 elem _ =>
    split at h
    case isTrue => cases h
    case isFalse =>
      obtain ⟨data, hdata, h⟩ := Option.bind_eq_some_iff.mp h
      obtain ⟨into, hinto, h⟩ := Option.bind_eq_some_iff.mp h
      cases h
      obtain ⟨hval, hle⟩ := unpackInto_some hinto
      refine ⟨fun hpub pos => ?_, by dsimp only; omega⟩
      have hor := SosPub.elemOr_of_elemAt hdata
      rw [SosPub.elemOr, SosPub.elemAt_putElem, List.getElem?_set]
      split
      case isTrue heq =>
        split
        · exact hval (hor ▸ hpub _)
        · exact fun hval => by cases hval
      case isFalse => exact hpub pos
  case h_2 => cases h

/-- **The rounds are enough**: with as many as there are bytes left, the loop
ends as it does with any more. -/
theorem unpackElems_enough {msgSize : ℤ} {rounds : ℕ} (h : msgSize ≤ offset + rounds) (more : ℕ) :
    unpackElems msgSize (rounds + more) pub b offset = unpackElems msgSize rounds pub b offset := by
  induction rounds generalizing pub b offset with
  | zero =>
      have hend : msgSize ≤ offset := by omega
      cases more <;> simp only [unpackElems, if_pos hend]
  | succ rounds ih =>
      rw [Nat.succ_add, unpackElems, unpackElems]
      split
      case isTrue => rfl
      case isFalse =>
        cases hone : unpackElem pub b offset with
        | none => rfl
        | some r =>
            have hlt := (unpackElem_some hone).2
            rw [Option.bind_some, Option.bind_some]
            exact ih (by omega)

/-- **A PUBLISH brings no block** into a pub that has none. -/
theorem publishFromBuffer_noBlocks {r : SosPub × ℕ} (hpub : pub.NoBlocks)
    (h : publishFromBuffer b pub = some r) : r.1.NoBlocks := by
  have hloop : ∀ (msgSize : ℤ) (rounds : ℕ) (pub : SosPub) (b : SosBuffer) (offset : ℕ),
      pub.NoBlocks → unpackElems msgSize rounds pub b offset = some r → r.1.NoBlocks := by
    intro msgSize rounds
    induction rounds with
    | zero =>
        intro pub b offset hpub h
        rw [unpackElems] at h
        split at h
        · cases h
          exact hpub
        · cases h
    | succ rounds ih =>
        intro pub b offset hpub h
        rw [unpackElems] at h
        split at h
        · cases h
          exact hpub
        · obtain ⟨r₁, hone, h⟩ := Option.bind_eq_some_iff.mp h
          exact ih r₁.1 r₁.2.1 r₁.2.2 ((unpackElem_some hone).1 hpub) h
  obtain ⟨header, -, h⟩ := Option.bind_eq_some_iff.mp h
  obtain ⟨u, -, h⟩ := Option.bind_eq_some_iff.mp h
  split at h
  case h_1 frame _ =>
    have hframe : SosPub.NoBlocks { pub with frame := frame } := hpub
    exact hloop _ _ _ _ _ hframe h
  case h_2 => cases h

omit [DoubleCodec] in
/-- A pub the daemon makes has no block. -/
theorem noBlocks_newPub (d : Daemon) (g : SosGuid) : (d.newPub g).NoBlocks := by
  intro pos
  have hblank : (d.newPub g).elemOr pos = .blank := by
    change ([] ++ List.replicate sosDefaultElemMax SosData.blank)[pos]?.getD .blank = _
    rw [List.nil_append, List.getElem?_replicate]
    split <;> rfl
  rw [hblank]
  exact fun hval => by cases hval

omit [DoubleCodec] in
/-- An ANNOUNCE brings none. -/
theorem noBlocks_announce (hpub : pub.NoBlocks) (m : AnnounceMsg) :
    (sosAnnounceFromBuffer pub m).NoBlocks := by
  intro pos
  rw [elemOr_announce]
  split
  · rw [SosData.val_define]
    exact hpub pos
  · exact hpub pos

end

end SosFlow
