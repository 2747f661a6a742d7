import SosFlow.Buffer.Unpack

/-!
# The serializer's round trip

`RoundTrips` is what a caller of the serializer counts on: packing returns,
unpacking the same format at the same offset returns, every destination
has the packed value, both calls count the same bytes, and around them the
buffer's earlier bytes, the offset and `len` are as they should be.

It does not hold of every call. `roundTrips_iff` says of which it does: of
the calls with no raw block in the format that fit (`Fits`).
-/

namespace SosFlow

variable {b : SosBuffer} {offset : ℕ} {fields : List Field}

/-- Every field takes at least four bytes. -/
theorem four_le_size (f : Field) : 4 ≤ f.size := by
  cases f <;> simp only [Field.size] <;> omega

/-! ## The loop in front of the reader -/

theorem growPastOffset_of_lt {n : ℕ} (h : offset < b.max) :
    growPastOffset offset (n + 1) b = some b :=
  if_neg (by omega)

/-- An empty buffer grows by one byte, past offset zero. -/
theorem growPastOffset_empty (n : ℕ) (h : b.max = 0) :
    ∃ b', growPastOffset 0 (n + 2) b = some b' := by
  obtain ⟨b', hb'⟩ := sosBufferGrow_eq (b := b) (n := b.max) (by rw [h]; decide)
  have hmax := (sosBufferGrow_some hb').2.2
  refine ⟨b', ?_⟩
  rw [growPastOffset, if_pos (by omega), hb', Option.bind_some]
  exact growPastOffset_of_lt (by omega)

/-! ## The round trip -/

section

variable [DoubleCodec]

/-- **The round trip** of a list of fields through a buffer at an offset. -/
def RoundTrips (b : SosBuffer) (offset : ℕ) (fields : List Field) : Prop :=
  ∃ r ∈ sosBufferPack b offset (formatOf fields) (argsOf fields),
    ∃ u ∈ sosBufferUnpack r.buffer offset (formatOf fields),
      u.outs = fields.map (fun f => some f.arg) ∧ u.packedBytes = r.packedBytes ∧
      r.buffer.data.take offset = b.data.take offset ∧
      r.offset = offset + r.packedBytes ∧ r.buffer.len = max b.len (r.offset : ℤ)

instance (b : SosBuffer) (offset : ℕ) (fields : List Field) :
    Decidable (RoundTrips b offset fields) := by
  unfold RoundTrips
  infer_instance

/-- The parts of an unpacking call that returns. -/
theorem sosBufferUnpack_some {format : List Char} {u : UnpackResult}
    (h : sosBufferUnpack b offset format = some u) :
    ∃ b' st, growPastOffset offset 33 b = some b' ∧
      unpackLoop b'.data format ⟨offset, 0, 0, [], none⟩ = some st ∧
      u.outs = st.outs ∧ u.packedBytes = st.packedBytes := by
  obtain ⟨b', hgrow, h⟩ := Option.bind_eq_some_iff.mp h
  obtain ⟨st, hloop, h⟩ := Option.bind_eq_some_iff.mp h
  split at h
  case isTrue =>
    obtain rfl := Option.some.inj h
    exact ⟨b', st, hgrow, hloop, rfl, rfl⟩
  case isFalse => cases h

/-- **A buffer that holds an encoding is read** as its fields are, and stays as
it is. -/
theorem sosBufferUnpack_reads (hblock : ∀ f ∈ fields, ¬ f.IsBlock) (hshort : ∀ f ∈ fields, f.Short)
    (hoff : offset < b.max) (hholds : Mem.Holds b.data offset (encAll fields))
    (hin : offset + sizeOf' fields ≤ b.max) :
    sosBufferUnpack b offset (formatOf fields) =
      some ⟨b, offset + sizeOf' fields, sizeOf' fields, fields.map fun f => some f.read⟩ := by
  obtain ⟨st, hloop, hpacked, houts⟩ :
      ∃ st, unpackLoop b.data (formatOf fields) ⟨offset, 0, 0, [], none⟩ = some st ∧
        st.packedBytes = 0 + sizeOf' fields ∧ st.outs = [] ++ fields.map fun f => some f.read :=
    unpackLoop_reads hblock hshort rfl hholds hin
  rw [Nat.zero_add] at hpacked
  rw [List.nil_append] at houts
  rw [sosBufferUnpack, growPastOffset_of_lt hoff]
  simp only [Option.bind_eq_bind, Option.bind_some, hloop, hpacked, houts]
  exact if_pos (hin.trans b.max_le_intMax)

/-- Some fields that end inside are read wherever they start. -/
theorem sosBufferUnpack_fields (fields : List Field) (hne : fields ≠ [])
    (hblock : ∀ f ∈ fields, ¬ f.IsBlock) (hshort : ∀ f ∈ fields, f.Short)
    (hholds : Mem.Holds b.data offset (encAll fields))
    (hin : offset + sizeOf' fields ≤ b.max) :
    sosBufferUnpack b offset (formatOf fields) =
      some ⟨b, offset + sizeOf' fields, sizeOf' fields, fields.map fun f => some f.read⟩ := by
  obtain ⟨f, rest, rfl⟩ := List.exists_cons_of_ne_nil hne
  have hsize := four_le_size f
  refine sosBufferUnpack_reads hblock hshort ?_ hholds hin
  rw [sizeOf'_cons] at hin
  omega

/-- One field is read. -/
theorem sosBufferUnpack_one {f : Field} {format : List Char} (hformat : f.format = format)
    (hblock : ¬ f.IsBlock) (hshort : f.Short) (hholds : Mem.Holds b.data offset f.enc)
    (hin : offset + f.size ≤ b.max) :
    sosBufferUnpack b offset format = some ⟨b, offset + f.size, f.size, [some f.read]⟩ := by
  have hfields : Mem.Holds b.data offset (encAll [f]) := by
    rw [encAll_cons, encAll_nil, List.append_nil]
    exact hholds
  have hread : sosBufferUnpack b offset (formatOf [f]) = _ :=
    sosBufferUnpack_fields [f] (List.cons_ne_nil f []) (by simpa using hblock) (by simpa using hshort)
      hfields (by simpa using hin)
  rw [formatOf_cons, hformat] at hread
  simpa [formatOf] using hread

/-! ## Calls that fit -/

/-- **What was packed is unpacked**, from the buffer a fitting call left. -/
theorem sosBufferUnpack_of_packedAt {r : PackResult} (hblock : ∀ f ∈ fields, ¬ f.IsBlock)
    (hexact : ∀ f ∈ fields, f.Lossless) (hoff : offset ≤ b.max) (hfits : Fits b.max offset fields)
    (h : PackedAt b offset (encAll fields) (capacity b.max offset fields) r) :
    ∃ u, sosBufferUnpack r.buffer offset (formatOf fields) = some u ∧
      u.outs = fields.map (fun f => some f.arg) ∧ u.packedBytes = sizeOf' fields := by
  obtain ⟨hcap, hroom⟩ := hfits
  obtain ⟨b', hgrow, hholds, hin⟩ : ∃ b', growPastOffset offset 33 r.buffer = some b' ∧
      Mem.Holds b'.data offset (encAll fields) ∧ offset + sizeOf' fields ≤ b'.max := by
    by_cases hlt : offset < r.buffer.max
    · exact ⟨r.buffer, growPastOffset_of_lt hlt, h.holds, h.max ▸ hroom⟩
    · -- nothing was packed, at the start of a buffer without storage
      rw [h.max] at hlt
      have hsize : sizeOf' fields = 0 := by omega
      obtain rfl : fields = [] := by
        cases fields with
        | nil => rfl
        | cons f fields =>
            have := four_le_size f
            rw [sizeOf'_cons] at hsize
            omega
      have hzero : offset = 0 ∧ r.buffer.max = 0 := by
        have hmax := h.max
        simp only [capacity, capacityFor] at hlt hmax
        split at hlt <;> simp_all <;> omega
      obtain ⟨rfl, hempty⟩ := hzero
      obtain ⟨b', hb'⟩ := growPastOffset_empty 31 hempty
      exact ⟨b', hb', Mem.holds_nil, Nat.zero_le _⟩
  obtain ⟨st, hloop, hpacked, houts⟩ :
      ∃ st, unpackLoop b'.data (formatOf fields) ⟨offset, 0, 0, [], none⟩ = some st ∧
        st.packedBytes = 0 + sizeOf' fields ∧ st.outs = [] ++ fields.map fun f => some f.arg :=
    unpackLoop_of_holds hblock (Fits.short ⟨hcap, hroom⟩) hexact rfl hholds hin
  refine ⟨⟨b', offset + st.packedBytes, st.packedBytes, st.outs⟩, ?_, by simpa using houts,
    by simpa using hpacked⟩
  rw [sosBufferUnpack, hgrow]
  simp only [Option.bind_eq_bind, Option.bind_some, hloop]
  rw [if_pos (by rw [hpacked]; simp only [Nat.zero_add]; exact hroom.trans hcap)]

/-- **Calls that fit round-trip.** -/
theorem roundTrips_of_fits (hblock : ∀ f ∈ fields, ¬ f.IsBlock)
    (hexact : ∀ f ∈ fields, f.Lossless) (hoff : offset ≤ b.max)
    (hfits : Fits b.max offset fields) : RoundTrips b offset fields := by
  obtain ⟨r, hpack, hr⟩ := sosBufferPack_of_fits hblock hfits
  obtain ⟨u, hunpack, houts, hcount⟩ := sosBufferUnpack_of_packedAt hblock hexact hoff hfits hr
  refine ⟨r, hpack, u, hunpack, houts, ?_, hr.take hoff le_rfl, ?_, ?_⟩
  · rw [hcount, hr.packedBytes, length_encAll]
  · rw [hr.newOffset, hr.packedBytes]
  · rw [hr.len, hr.newOffset]

/-! ## Calls that round-trip -/

/-- **A call that round-trips has no block**: a block's destination is never
written. -/
theorem RoundTrips.no_block (h : RoundTrips b offset fields) : ∀ f ∈ fields, ¬ f.IsBlock := by
  obtain ⟨r, _, u, hunpack, houts, _⟩ := h
  obtain ⟨b', st, _, hloop, hsame, _⟩ := sosBufferUnpack_some hunpack
  intro f hf hblock
  cases f with
  | b k =>
      have hletter : 'b' ∈ formatOf fields :=
        List.mem_flatMap.mpr ⟨_, hf, by simp [Field.format]⟩
      have hnone := none_mem_of_unpackLoop hloop (.inr hletter)
      rw [← hsame, houts] at hnone
      simp at hnone
  | _ => exact hblock

/-- **A call that round-trips fits.** -/
theorem RoundTrips.fits (hdouble : ∀ f ∈ fields, ¬ f.IsDouble) (h : RoundTrips b offset fields) :
    Fits b.max offset fields := by
  have hblock := h.no_block
  obtain ⟨r, hpack, u, hunpack, houts, _⟩ := h
  obtain ⟨b', st, hgrow, hloop, hsame, _⟩ := sosBufferUnpack_some hunpack
  have hholds := holds_of_unpackLoop hblock hdouble rfl hloop (by rw [← hsame, houts]; simp)
  cases fields with
  | nil => exact fits_of_holds (n := 0) hblock (by simp) hpack Mem.holds_nil
  | cons f fields =>
      -- what was read lay in a buffer, so its strings are short
      have hshort : ∀ f' ∈ f :: fields, f'.Short := by
        have hin := hholds.bound (by simp [f.enc_ne_nil])
        have hmax := b'.max_le
        rw [length_encAll] at hin
        exact short_of_size (by omega)
      have hlt := offset_lt_of_pack hblock hshort hpack
      obtain rfl := Option.some.inj ((growPastOffset_of_lt hlt).symm.trans hgrow)
      exact fits_of_holds (n := 0) hblock hshort hpack (by simpa using hholds)

/-- **The round trip, exactly**: a call over integers, guids, strings and
counted blocks round-trips if and only if it has no block and fits. -/
theorem roundTrips_iff (hoff : offset ≤ b.max) (hdouble : ∀ f ∈ fields, ¬ f.IsDouble) :
    RoundTrips b offset fields ↔
      (∀ f ∈ fields, ¬ f.IsBlock) ∧ Fits b.max offset fields := by
  constructor
  · exact fun h => ⟨h.no_block, h.fits hdouble⟩
  · rintro ⟨hblock, hfits⟩
    refine roundTrips_of_fits hblock (fun f hf => ?_) hoff hfits
    cases f with
    | d v => exact absurd trivial (hdouble _ hf)
    | _ => trivial

end

/-- The hypotheses of `roundTrips_iff`, and its condition, at an integer and
a string packed behind each other. -/
theorem roundTrips_int_str :
    letI := DoubleCodec.bits
    RoundTrips (sosBufferInitSized 32 (by decide)) 3 [.i 7, .s ⟨[104, 105], by decide⟩] :=
  letI := DoubleCodec.bits
  (roundTrips_iff (by decide) (by decide)).mpr (by decide)

/-- **Two calls that do not round-trip**: a string followed by a counted
block, and an integer followed by a string as long as the buffer, whose
growth restarts the output. -/
theorem not_roundTrips :
    letI := DoubleCodec.bits
    ¬ RoundTrips (sosBufferInitSized 32 (by decide)) 0
        [.s ⟨[104, 105], by decide⟩, .b ⟨['2'], [1, 2], by decide, by simp, by decide⟩] ∧
      ¬ RoundTrips (sosBufferInitSized 8 (by decide)) 0
        [.i 7, .s ⟨[49, 50, 51, 52, 53, 54, 55, 56], by decide⟩] := by
  decide +kernel

end SosFlow
