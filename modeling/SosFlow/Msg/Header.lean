import SosFlow.Buffer.RoundTrip

/-!
# Message headers

Every message starts with the same twenty-four bytes: its size, its type,
the guid of its sender and a guid it refers to. `SOS_msg_zip` writes them
over the start of a buffer. A builder does so twice: once to make room,
with a size of `-1`, and once more when it knows how far the body went.
-/

namespace SosFlow

/-- `SOS_msg_type`. -/
inductive MsgType where
  | nullmsg
  | register
  | unregister
  | guidBlock
  | announce
  | publish
  | valSnaps
  | echo
  | probe
  | manifest
  | shutdown
  | ack
  | checkIn
  | query
  | cacheGrab
  | cacheSize
  | feedback
  | sensitivity
  | desensitize
  | triggerpull
deriving DecidableEq

/-- The enumerator's value. -/
def MsgType.code (t : MsgType) : CInt := BitVec.ofNat 32 t.ctorIdx

/-- `SOS_FEEDBACK_TYPE_PAYLOAD`. -/
def feedbackTypePayload : CInt := 0

/-- `SOS_FEEDBACK_TYPE_QUERY`. -/
def feedbackTypeQuery : CInt := 1

/-- `SOS_msg_header`. -/
structure SosMsgHeader where
  msgSize : CInt
  msgType : CInt
  msgFrom : SosGuid
  refGuid : SosGuid
deriving DecidableEq

/-- `sizeof(SOS_msg_header)`. -/
def headerSize : ℕ := 24

/-- The fields of `SOS_msg_zip`'s format, `"iigg"`. -/
def SosMsgHeader.fields (h : SosMsgHeader) : List Field :=
  [.i h.msgSize, .i h.msgType, .g h.msgFrom, .g h.refGuid]

theorem SosMsgHeader.sizeOf_fields (h : SosMsgHeader) : sizeOf' h.fields = headerSize := rfl

/-- **A header fits where there is room for it**: at the start of a buffer
nothing grows. -/
theorem fits_header {b : SosBuffer} (header : SosMsgHeader) (h : headerSize ≤ b.max) :
    Fits b.max 0 header.fields := by
  have hmax := b.max_le_intMax
  constructor
  · exact hmax
  · exact h

section

variable [DoubleCodec]

/-- **One packing call** of a list of fields. -/
def packFields (b : SosBuffer) (offset : ℕ) (fields : List Field) : Option PackResult :=
  sosBufferPack b offset (formatOf fields) (argsOf fields)

/-- The bytes of a header. -/
def SosMsgHeader.enc (h : SosMsgHeader) : List Byte := encAll h.fields

@[simp] theorem SosMsgHeader.length_enc (h : SosMsgHeader) : h.enc.length = headerSize := rfl

/-- A header's first four bytes are its size. -/
theorem holds_size_of_header {m : List Byte} {header : SosMsgHeader} (h : Mem.Holds m 0 header.enc) :
    Mem.Holds m 0 (packi32 header.msgSize) :=
  (Mem.holds_append.mp h).1

/-- `SOS_msg_zip`. -/
def sosMsgZip (msg : SosBuffer) (header : SosMsgHeader) (startingOffset : ℕ) : Option PackResult :=
  packFields msg startingOffset header.fields

/-- `SOS_msg_unzip`: the header, and the offset after it. -/
def sosMsgUnzip (msg : SosBuffer) (startingOffset : ℕ) : Option (SosMsgHeader × ℕ) := do
  let u ← sosBufferUnpack msg startingOffset ['i', 'i', 'g', 'g']
  match u.outs with
  | [some (.int msgSize), some (.int msgType), some (.guid msgFrom), some (.guid refGuid)] =>
      some (⟨msgSize, msgType, msgFrom, refGuid⟩, u.offset)
  | _ => none

/-- **Zipping at the start** replaces the first twenty-four bytes and no
others. -/
theorem sosMsgZip_start {b : SosBuffer} (header : SosMsgHeader) (h : headerSize ≤ b.max) :
    ∃ r, sosMsgZip b header 0 = some r ∧ PackedAt b 0 header.enc b.max r := by
  have hblock : ∀ f ∈ header.fields, ¬ f.IsBlock := by
    simp [SosMsgHeader.fields, Field.IsBlock]
  obtain ⟨r, hpack, hr⟩ := sosBufferPack_of_fits hblock (fits_header header h)
  exact ⟨r, hpack, hr⟩

/-- **A header is read back as it was zipped.** -/
theorem sosMsgUnzip_of_holds {b : SosBuffer} {header : SosMsgHeader} (hmax : headerSize ≤ b.max)
    (h : Mem.Holds b.data 0 header.enc) : sosMsgUnzip b 0 = some (header, headerSize) := by
  have hpos : 0 < b.max := by unfold headerSize at hmax; omega
  have hin : 0 + sizeOf' header.fields ≤ b.data.length := by
    rw [SosMsgHeader.sizeOf_fields, Nat.zero_add]
    exact hmax
  obtain ⟨st, hloop, hpacked, houts⟩ :
      ∃ st, unpackLoop b.data (formatOf header.fields) ⟨0, 0, 0, [], none⟩ = some st ∧
        st.packedBytes = 0 + sizeOf' header.fields ∧
        st.outs = [] ++ header.fields.map fun f => some f.arg :=
    unpackLoop_of_holds (by simp [SosMsgHeader.fields, Field.IsBlock])
      (by simp [SosMsgHeader.fields, Field.Short]) (by simp [SosMsgHeader.fields, Field.Lossless])
      rfl h hin
  have hformat : ['i', 'i', 'g', 'g'] = formatOf header.fields := rfl
  have hsum : 0 + st.packedBytes = headerSize := by
    rw [hpacked, SosMsgHeader.sizeOf_fields, Nat.zero_add, Nat.zero_add]
  rw [sosMsgUnzip, sosBufferUnpack, growPastOffset_of_lt hpos]
  simp only [Option.bind_eq_bind, Option.bind_some, hformat, hloop, hsum, houts]
  rfl

/-- **What is read as a header is there.** -/
theorem holds_of_sosMsgUnzip {b : SosBuffer} {header : SosMsgHeader} {offset : ℕ}
    (hpos : 0 < b.max) (h : sosMsgUnzip b 0 = some (header, offset)) :
    Mem.Holds b.data 0 header.enc := by
  obtain ⟨u, hunpack, h⟩ := Option.bind_eq_some_iff.mp h
  obtain ⟨b', st, hgrow, hloop, houts, _⟩ := sosBufferUnpack_some hunpack
  obtain rfl := Option.some.inj ((growPastOffset_of_lt hpos).symm.trans hgrow)
  split at h
  case h_1 msgSize msgType msgFrom refGuid heq =>
    obtain ⟨rfl, rfl⟩ := Prod.mk.inj (Option.some.inj h)
    have hblock : ∀ f ∈ SosMsgHeader.fields ⟨msgSize, msgType, msgFrom, refGuid⟩, ¬ f.IsBlock := by
      simp [SosMsgHeader.fields, Field.IsBlock]
    have hdouble : ∀ f ∈ SosMsgHeader.fields ⟨msgSize, msgType, msgFrom, refGuid⟩,
        ¬ f.IsDouble := by
      simp [SosMsgHeader.fields, Field.IsDouble]
    exact holds_of_unpackLoop hblock hdouble rfl hloop (houts.symm.trans heq)
  case h_2 => cases h

omit [DoubleCodec] in
/-- Four bytes are an `int`. -/
theorem exists_packi32 (bs : List Byte) (h : bs.length = 4) : ∃ i, packi32 i = bs := by
  obtain ⟨b0, b1, b2, b3, rfl⟩ : ∃ b0 b1 b2 b3, bs = [b0, b1, b2, b3] := by
    rcases bs with _ | ⟨b0, _ | ⟨b1, _ | ⟨b2, _ | ⟨b3, rest⟩⟩⟩⟩ <;> simp at h
    exact ⟨b0, b1, b2, b3, by rw [h]⟩
  exact ⟨_, packi32_of_unpacki32 (unpacki32_bytes b0 b1 b2 b3)⟩

omit [DoubleCodec] in
/-- Eight bytes are a guid. -/
theorem exists_packguid (bs : List Byte) (h : bs.length = 8) : ∃ g, packguid g = bs := by
  obtain ⟨g, hg⟩ : ∃ g, unpackguid bs = some g := by
    rcases bs with _ | ⟨b0, _ | ⟨b1, _ | ⟨b2, _ | ⟨b3, _ | ⟨b4, _ | ⟨b5, _ | ⟨b6, _ | ⟨b7, rest⟩⟩⟩⟩⟩⟩⟩⟩
      <;> simp at h
    rw [h]
    exact ⟨_, rfl⟩
  exact ⟨g, packguid_of_unpackguid hg⟩

/-- **Any twenty-four bytes are a header.** -/
theorem exists_header {b : SosBuffer} (h : headerSize ≤ b.max) :
    ∃ header, sosMsgUnzip b 0 = some (header, headerSize) := by
  have hlen : headerSize ≤ b.data.length := h
  unfold headerSize at hlen
  obtain ⟨msgSize, hsize⟩ := exists_packi32 (b.data.take 4) (by rw [List.length_take]; omega)
  obtain ⟨msgType, htype⟩ := exists_packi32 ((b.data.drop 4).take 4) (by
    rw [List.length_take, List.length_drop]; omega)
  obtain ⟨msgFrom, hfrom⟩ := exists_packguid ((b.data.drop 8).take 8) (by
    rw [List.length_take, List.length_drop]; omega)
  obtain ⟨refGuid, hguid⟩ := exists_packguid ((b.data.drop 16).take 8) (by
    rw [List.length_take, List.length_drop]; omega)
  refine ⟨⟨msgSize, msgType, msgFrom, refGuid⟩, sosMsgUnzip_of_holds h ?_⟩
  have henc : SosMsgHeader.enc ⟨msgSize, msgType, msgFrom, refGuid⟩ =
      packi32 msgSize ++ (packi32 msgType ++ (packguid msgFrom ++ packguid refGuid)) := by
    simp only [SosMsgHeader.enc, SosMsgHeader.fields, encAll_cons, encAll_nil, List.append_nil]
    rfl
  rw [henc, hsize, htype, hfrom, hguid]
  have hheld : ∀ p n, Mem.Holds b.data p ((b.data.drop p).take n) := fun p n => List.take_prefix _ _
  refine Mem.holds_append.mpr ⟨hheld 0 4, Mem.holds_append.mpr ⟨?_, Mem.holds_append.mpr ⟨?_, ?_⟩⟩⟩
  · rw [List.length_take, Nat.min_eq_left (by omega)]
    exact hheld 4 4
  · rw [List.length_take, List.length_take, List.length_drop, Nat.min_eq_left (by omega),
      Nat.min_eq_left (by omega)]
    exact hheld 8 8
  · rw [List.length_take, List.length_take, List.length_take, List.length_drop, List.length_drop,
      Nat.min_eq_left (by omega), Nat.min_eq_left (by omega), Nat.min_eq_left (by omega)]
    exact hheld 16 8

end

end SosFlow
