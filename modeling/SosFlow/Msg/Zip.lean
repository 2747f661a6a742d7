import SosFlow.Msg.Calls

/-!
# Zip, pack, zip

The steps every builder repeats by hand: zip a header with no size, pack
the body behind it, put the offset that was reached into the header and
zip it again. `Layout` is what a builder chooses, `Layout.build` the steps,
and `Framed` what a receiver relies on.

The steps are right whenever they can be carried out:
`Layout.builds_framed_iff` needs only that the calls of the body fit.
-/

namespace SosFlow

open Mem (Holds)

/-- **What a builder chooses**: the size of the buffer it starts with, the
header, and the body. -/
structure Layout where
  maxSize : ℤ
  msgType : CInt
  msgFrom : SosGuid
  refGuid : SosGuid
  calls : List PackCall

/-- **A message with its making**: the buffer before and after the last
`SOS_msg_zip`, and as it is sent. -/
structure Built where
  before : SosBuffer
  after : SosBuffer
  buffer : SosBuffer

/-- `SOS_buffer_init_sized` of a size computed from an argument. The `malloc`
of a negative one fails. -/
def bufferOfSize (maxSize : ℤ) : Option SosBuffer :=
  if h : 0 ≤ maxSize ∧ maxSize ≤ intMax then
    some (sosBufferInitSized maxSize.toNat (by omega))
  else none

theorem bufferOfSize_some {maxSize : ℤ} {b : SosBuffer} (h : bufferOfSize maxSize = some b) :
    maxSize = b.max ∧ b.len = 0 ∧ ∀ x ∈ b.data, x = 0 := by
  unfold bufferOfSize at h
  split at h
  case isTrue hsize =>
    obtain rfl := Option.some.inj h
    refine ⟨?_, rfl, fun x hx => List.eq_of_mem_replicate hx⟩
    simp only [SosBuffer.max, sosBufferInitSized, List.length_replicate]
    omega
  case isFalse => cases h

theorem bufferOfSize_eq (maxSize : ℤ) (h : 0 ≤ maxSize ∧ maxSize ≤ intMax) :
    ∃ b, bufferOfSize maxSize = some b :=
  ⟨_, dif_pos h⟩

/-- **The message fits**: its buffer can be allocated, holds a header, and
the calls of the body fit behind it. -/
def Layout.Fits (l : Layout) : Prop :=
  headerSize ≤ l.maxSize ∧ l.maxSize ≤ intMax ∧ CallsFit l.maxSize.toNat headerSize l.calls

instance (l : Layout) : Decidable l.Fits := by
  unfold Layout.Fits
  infer_instance

section

variable [DoubleCodec]

/-- **Zip, pack, zip.** -/
def zipPackZip (b : SosBuffer) (l : Layout) : Option Built := do
  let r ← sosMsgZip b ⟨-1, l.msgType, l.msgFrom, l.refGuid⟩ 0
  let body ← runCalls r.buffer r.offset l.calls
  let r ← sosMsgZip body.1 ⟨BitVec.ofNat 32 body.2, l.msgType, l.msgFrom, l.refGuid⟩ 0
  some ⟨body.1, r.buffer, r.buffer⟩

/-- The steps in a buffer of the builder's own. -/
def Layout.build (l : Layout) : Option Built := do
  let b ← bufferOfSize l.maxSize
  zipPackZip b l

/-- **A framed message**: the header and the body and nothing else, the
header's size `len` and its type the intended one, and nothing behind the
header changed by the last zip. -/
structure Framed (m : Built) (l : Layout) : Prop where
  len : m.buffer.len = (headerSize + (encCalls l.calls).length : ℕ)
  bytes : Holds m.buffer.data 0
    ((SosMsgHeader.mk (BitVec.ofInt 32 m.buffer.len) l.msgType l.msgFrom l.refGuid).enc ++
      encCalls l.calls)
  rezip : m.after.data.drop headerSize = m.before.data.drop headerSize

/-- A header is one write, wherever it fits. -/
theorem sosMsgZip_bound {b : SosBuffer} {header : SosMsgHeader} {r : PackResult}
    (h : sosMsgZip b header 0 = some r) : headerSize ≤ b.max := by
  have hblock : ∀ f ∈ header.fields, ¬ f.IsBlock := by simp [SosMsgHeader.fields, Field.IsBlock]
  have hshort : ∀ f ∈ header.fields, f.Short := by simp [SosMsgHeader.fields, Field.Short]
  obtain ⟨b₁, st, hgrow, hloop, _, _, _⟩ := sosBufferPack_some h
  obtain rfl : b = b₁ := by simpa [growForOffset] using hgrow
  rw [packLoop_fields hblock hshort rfl] at hloop
  simp only [SosMsgHeader.fields, PackState.putFields, PackState.putField] at hloop
  obtain ⟨st₁, h₁, hloop⟩ := Option.bind_eq_some_iff.mp hloop
  obtain ⟨st₂, h₂, hloop⟩ := Option.bind_eq_some_iff.mp hloop
  obtain ⟨st₃, h₃, hloop⟩ := Option.bind_eq_some_iff.mp hloop
  obtain ⟨st₄, h₄, _⟩ := Option.bind_eq_some_iff.mp hloop
  have hall : PackState.put ⟨b, 0, 0, 0⟩ header.enc = some st₄ := by
    simp only [SosMsgHeader.enc, SosMsgHeader.fields, encAll_cons, encAll_nil, List.append_nil,
      PackState.put_append, h₁, h₂, h₃, h₄, Option.bind_some]
  have hbound := PackState.put_bound hall
  simpa using hbound

/-- The last zip leaves what is behind the header. -/
theorem sosMsgZip_drop {b : SosBuffer} {header : SosMsgHeader} {r : PackResult}
    (h : sosMsgZip b header 0 = some r) :
    r.buffer.data.drop headerSize = b.data.drop headerSize := by
  obtain ⟨r', hr', hat⟩ := sosMsgZip_start header (sosMsgZip_bound h)
  obtain rfl := Option.some.inj (hr'.symm.trans h)
  exact Mem.drop_of_store hat.store (by simp)

/-- **A body of one call** is in the message as the call left it, also when the call
was restarted. -/
theorem zipPackZip_fields {b : SosBuffer} {l : Layout} {m : Built} {fields : List Field}
    {hblock : ∀ f ∈ fields, ¬ f.IsBlock} (hcalls : l.calls = [.fields fields hblock])
    (hshort : ∀ f ∈ fields, f.Short) (hlen : b.len ≤ headerSize) (h : zipPackZip b l = some m) :
    ∃ b₁ r, b₁.max = b.max ∧ packFields b₁ headerSize fields = some r ∧
      m.buffer.len = (headerSize + sizeOf' fields : ℕ) ∧
      Holds m.buffer.data 0 (SosMsgHeader.mk (BitVec.ofNat 32 (headerSize + sizeOf' fields))
        l.msgType l.msgFrom l.refGuid).enc ∧
      m.buffer.data.drop headerSize = r.buffer.data.drop headerSize := by
  obtain ⟨r₁, hzip₁, h⟩ := Option.bind_eq_some_iff.mp h
  obtain ⟨body, hrun, h⟩ := Option.bind_eq_some_iff.mp h
  obtain ⟨r₃, hzip₃, h⟩ := Option.bind_eq_some_iff.mp h
  obtain rfl := Option.some.inj h
  obtain ⟨r, hr, h₁⟩ := sosMsgZip_start ⟨-1, l.msgType, l.msgFrom, l.refGuid⟩ (sosMsgZip_bound hzip₁)
  obtain rfl := Option.some.inj (hr.symm.trans hzip₁)
  obtain ⟨z, hz, h₃⟩ := sosMsgZip_start ⟨BitVec.ofNat 32 body.2, l.msgType, l.msgFrom, l.refGuid⟩
    (sosMsgZip_bound hzip₃)
  obtain rfl := Option.some.inj (hz.symm.trans hzip₃)
  have hoff : r.offset = headerSize := h₁.newOffset
  rw [hcalls, hoff] at hrun
  obtain ⟨p, hpack, hend⟩ := Option.bind_eq_some_iff.mp hrun
  obtain rfl := Option.some.inj hend
  have hoffset : p.offset = headerSize + sizeOf' fields := sosBufferPack_offset hblock hshort hpack
  have hlenp : p.buffer.len = max r.buffer.len (p.offset : ℤ) :=
    sosBufferPack_len hblock hshort hpack
  refine ⟨r.buffer, p, h₁.max, hpack, ?_, ?_, sosMsgZip_drop hzip₃⟩
  · rw [h₃.len, hlenp, h₁.len, hoffset]
    simp only [SosMsgHeader.length_enc]
    omega
  · rw [← hoffset]
    exact h₃.holds

variable {b : SosBuffer} {l : Layout}

/-- **Messages whose body fits are framed**, in a buffer that has not held a
longer one. -/
theorem zipPackZip_of_fits (hlen : b.len ≤ (headerSize + (encCalls l.calls).length : ℕ))
    (hmax : headerSize ≤ b.max) (h : CallsFit b.max headerSize l.calls) :
    ∃ m, zipPackZip b l = some m ∧ Framed m l ∧ b.max ≤ m.buffer.max := by
  obtain ⟨r₁, hzip₁, h₁⟩ := sosMsgZip_start ⟨-1, l.msgType, l.msgFrom, l.refGuid⟩ hmax
  have hoff₁ : r₁.offset = headerSize := h₁.newOffset
  have hlen₁ : r₁.buffer.len = max b.len headerSize := h₁.len
  have hcalls : CallsFit r₁.buffer.max r₁.offset l.calls := by rwa [h₁.max, hoff₁]
  obtain ⟨⟨b₂, offset₂⟩, hrun, h₂⟩ := runCalls_of_fits (by rw [h₁.max, hoff₁]; exact hmax)
    (by rw [hlen₁, hoff₁]; exact le_max_right _ _) hcalls
  have hgrown : b.max ≤ b₂.max := by
    obtain ⟨n, hn⟩ := h₂.data
    have hsame := Mem.length_store hn
    have hmax₁ := h₁.max
    rw [List.length_append] at hsame
    simp only [SosBuffer.max] at hsame hmax₁ ⊢
    omega
  have hmax₂ : headerSize ≤ b₂.max := hmax.trans hgrown
  obtain ⟨r₃, hzip₃, h₃⟩ :=
    sosMsgZip_start ⟨BitVec.ofNat 32 offset₂, l.msgType, l.msgFrom, l.refGuid⟩ hmax₂
  have hoff₂ : offset₂ = headerSize + (encCalls l.calls).length := by
    rw [← hoff₁]
    exact h₂.newOffset
  have hlen₃ : r₃.buffer.len = (headerSize + (encCalls l.calls).length : ℕ) := by
    rw [h₃.len, h₂.len, hlen₁, hoff₁]
    simp only [SosMsgHeader.length_enc]
    omega
  refine ⟨⟨b₂, r₃.buffer, r₃.buffer⟩, ?_, ⟨hlen₃, ?_, sosMsgZip_drop hzip₃⟩,
    by rw [h₃.max]; exact hgrown⟩
  · simp only [zipPackZip, hzip₁, hrun, hzip₃, Option.bind_eq_bind, Option.bind_some]
  · -- the body was packed behind the first header, and the second zip kept it
    have hbody : Holds r₃.buffer.data headerSize (encCalls l.calls) := by
      obtain ⟨n, hn⟩ := h₂.data
      have hholds := Mem.holds_of_store hn
      rw [hoff₁] at hholds
      unfold Holds at hholds ⊢
      rwa [sosMsgZip_drop hzip₃]
    refine Mem.holds_append.mpr ⟨?_, by simpa using hbody⟩
    rw [hlen₃, ← hoff₂, BitVec.ofInt_natCast]
    exact h₃.holds

/-- **Framed messages have a body that fits.** -/
theorem callsFit_of_framed {m : Built} (h : zipPackZip b l = some m) (hframed : Framed m l) :
    headerSize ≤ b.max ∧ CallsFit b.max headerSize l.calls := by
  obtain ⟨r₁, hzip₁, h⟩ := Option.bind_eq_some_iff.mp h
  obtain ⟨body, hrun, h⟩ := Option.bind_eq_some_iff.mp h
  obtain ⟨r₃, hzip₃, h⟩ := Option.bind_eq_some_iff.mp h
  obtain rfl := Option.some.inj h
  have hmax := sosMsgZip_bound hzip₁
  obtain ⟨r, hr, h₁⟩ := sosMsgZip_start ⟨-1, l.msgType, l.msgFrom, l.refGuid⟩ hmax
  obtain rfl := Option.some.inj (hr.symm.trans hzip₁)
  have hoff₁ : r.offset = headerSize := h₁.newOffset
  have hholds := (Mem.holds_append.mp hframed.bytes).2
  simp only [SosMsgHeader.length_enc, Nat.zero_add] at hholds
  have hbody : Holds body.1.data r.offset (encCalls l.calls) := by
    rw [hoff₁]
    unfold Holds at hholds ⊢
    rwa [sosMsgZip_drop hzip₃] at hholds
  refine ⟨hmax, ?_⟩
  rw [← hoff₁, ← h₁.max]
  exact callsFit_of_holds (short_of_holds hbody) hrun hbody

/-- The parts of a build. -/
theorem Layout.build_eq_some {m : Built} : l.build = some m ↔
    ∃ b, bufferOfSize l.maxSize = some b ∧ zipPackZip b l = some m :=
  Option.bind_eq_some_iff

/-- **Zip, pack, zip frames a message if and only if the message fits.** -/
theorem Layout.builds_framed_iff : (∃ m ∈ l.build, Framed m l) ↔ l.Fits := by
  constructor
  · rintro ⟨m, hbuild, hframed⟩
    obtain ⟨b, hsize, hzip⟩ := Option.bind_eq_some_iff.mp hbuild
    obtain ⟨hmax, hcalls⟩ := callsFit_of_framed hzip hframed
    obtain ⟨heq, _⟩ := bufferOfSize_some hsize
    have hle := b.max_le_intMax
    refine ⟨by rw [heq]; exact_mod_cast hmax, by rw [heq]; exact_mod_cast hle, ?_⟩
    rw [heq, Int.toNat_natCast]
    exact hcalls
  · rintro ⟨hmax, hle, hcalls⟩
    obtain ⟨b, hsize⟩ := bufferOfSize_eq l.maxSize ⟨by omega, hle⟩
    obtain ⟨heq, hlen, _⟩ := bufferOfSize_some hsize
    rw [heq, Int.toNat_natCast] at hcalls
    obtain ⟨m, hm, hframed, _⟩ := zipPackZip_of_fits (by omega) (by omega) hcalls
    exact ⟨m, Option.bind_eq_some_iff.mpr ⟨_, hsize, hm⟩, hframed⟩

/-- **A message of steady calls is framed** whenever it can be built. -/
theorem Layout.framed_of_steady {m : Built} (hsize : (sosDefaultBufferMax : ℤ) ≤ l.maxSize)
    (hsteady : ∀ c ∈ l.calls, c.Steady) (hshort : ∀ c ∈ l.calls, c.Short)
    (hbuild : l.build = some m) : Framed m l := by
  obtain ⟨b, hb, hzip⟩ := Layout.build_eq_some.mp hbuild
  obtain ⟨heq, hlen, -⟩ := bufferOfSize_some hb
  have hmax : sosDefaultBufferMax ≤ b.max := by omega
  have hheader : headerSize ≤ b.max := le_trans (by decide) hmax
  obtain ⟨r₁, hzip₁, hrest⟩ := Option.bind_eq_some_iff.mp hzip
  obtain ⟨body, hrun, -⟩ := Option.bind_eq_some_iff.mp hrest
  obtain ⟨r, hr, hat⟩ := sosMsgZip_start ⟨-1, l.msgType, l.msgFrom, l.refGuid⟩ hheader
  obtain rfl := Option.some.inj (hr.symm.trans hzip₁)
  have hoff : r.offset = headerSize := hat.newOffset
  have hcalls : CallsFit r.buffer.max r.offset l.calls :=
    callsFit_of_steady hsteady hshort (hat.max ▸ hmax) hrun
  rw [hat.max, hoff] at hcalls
  obtain ⟨m', hm', hframed, -⟩ := zipPackZip_of_fits (by omega) hheader hcalls
  obtain rfl := Option.some.inj (hm'.symm.trans hzip)
  exact hframed

end

end SosFlow
