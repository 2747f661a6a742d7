import SosFlow.Daemon.TriggerMsg

/-!
# A block of bytes, packed and received

`SOS_buffer_pack_bytes` grows its buffer in steps until the block fits, or so
it is meant. The test of its loop allows for one byte that the buffer does not
have. `packsBlock_iff` finds which blocks that byte is taken from: those that
end exactly one byte behind a capacity the loop comes by. Every other block is
packed and received as it was, as far as an `int` can count the capacity.
-/

namespace SosFlow

open Mem (Holds)

/-- **The payload of a message**, as `SOS_THREAD_receives_direct` takes it out: an
integer, and that many bytes behind it. -/
def receivePayload [DoubleCodec] (b : SosBuffer) (offset : ℕ) : Option (List Byte) := do
  let (payloadSize, b, offset) ← unpackInt b offset
  if 0 ≤ payloadSize.toInt then Mem.load b.data offset payloadSize.toInt.toNat else none

/-- **A block is packed and comes back**: the growth ends with a capacity the loop can
compare with, the writes lie below it, the bytes before them are unchanged, and
what is received is the block. -/
def PacksBlock [DoubleCodec] (b : SosBuffer) (offset : ℕ) (source : List Byte) : Prop :=
  ∃ r ∈ sosBufferPackBytes b offset source,
    r.buffer.max < intMax ∧ r.packedBytes = 4 + (PackCall.payload source).length ∧
      offset + r.packedBytes ≤ r.buffer.max ∧ r.offset = offset + r.packedBytes ∧
      r.buffer.data.take offset = b.data.take offset ∧
      receivePayload r.buffer offset = some (PackCall.payload source)

instance [DoubleCodec] (b : SosBuffer) (offset : ℕ) (source : List Byte) :
    Decidable (PacksBlock b offset source) := by
  unfold PacksBlock
  infer_instance

/-! ## Which blocks -/

/-- The capacity in front of the loop. -/
def capacityAt (max offset : ℕ) : ℕ :=
  if offset > max / 2 then max + (sosDefaultBufferMax + 1) else max

/-- Where a block of `n` bytes ends, with its length in front of it. -/
def blockEnd (offset n : ℕ) : ℕ := offset + 4 + max n 1

/-- **The loop stops in time** in front of a block of `n` bytes: the block does not end
one byte behind a capacity the loop comes by, and the capacity it needs is one
the loop can compare with. -/
structure StopsInTime (max offset n : ℕ) : Prop where
  notOneShort : ∀ steps, blockEnd offset n ≠
    capacityAt max offset + (sosDefaultBufferMax + 1) * steps + 1
  countable : ∃ steps, blockEnd offset n ≤ capacityAt max offset + (sosDefaultBufferMax + 1) * steps ∧
    capacityAt max offset + (sosDefaultBufferMax + 1) * steps < intMax

variable {b : SosBuffer} {offset : ℕ} {source : List Byte}

theorem PackCall.length_payload (source : List Byte) :
    (payload source).length = max source.length 1 := by
  unfold payload
  split
  case isTrue h =>
    rw [List.length_singleton]
    omega
  case isFalse h => omega

/-- The capacity of the call, in the steps of its loop. -/
theorem PackCall.capacity_bytes (max offset : ℕ) (source : List Byte) :
    (PackCall.bytes source).capacity max offset = capacityAt max offset +
      (sosDefaultBufferMax + 1) *
        ((blockEnd offset source.length - (capacityAt max offset + 1) + sosDefaultBufferMax) /
          (sosDefaultBufferMax + 1)) := by
  rw [blockEnd, ← PackCall.length_payload]
  rfl

/-- The loop takes no more steps than are needed, so it fits what any number of them
would, unless it stops one short. -/
theorem steps_fit_iff {room need : ℕ} :
    ((∀ steps, need ≠ room + (sosDefaultBufferMax + 1) * steps + 1) ∧
        ∃ steps, need ≤ room + (sosDefaultBufferMax + 1) * steps ∧
          room + (sosDefaultBufferMax + 1) * steps < intMax) ↔
      room + (sosDefaultBufferMax + 1) *
          ((need - (room + 1) + sosDefaultBufferMax) / (sosDefaultBufferMax + 1)) < intMax ∧
        need ≤ room + (sosDefaultBufferMax + 1) *
          ((need - (room + 1) + sosDefaultBufferMax) / (sosDefaultBufferMax + 1)) := by
  unfold sosDefaultBufferMax
  constructor
  · rintro ⟨hshort, steps, hneed, hcount⟩
    have hle : (need - (room + 1) + 4096) / 4097 ≤ steps := by omega
    have hnot := hshort ((need - (room + 1) + 4096) / 4097)
    omega
  · rintro ⟨hcount, hroom⟩
    refine ⟨?_, _, hroom, hcount⟩
    intro steps hend
    omega

/-- **The blocks that fit** are those the loop stops in time for. -/
theorem stopsInTime_iff {max offset : ℕ} {source : List Byte} :
    StopsInTime max offset source.length ↔
      (PackCall.bytes source).capacity max offset < intMax ∧
        offset + (PackCall.bytes source).size ≤ (PackCall.bytes source).capacity max offset := by
  have hsize : offset + (PackCall.bytes source).size = blockEnd offset source.length := by
    rw [PackCall.size, PackCall.length_payload, blockEnd, Nat.add_assoc]
  rw [hsize, PackCall.capacity_bytes, ← steps_fit_iff]
  exact ⟨fun h => ⟨h.notOneShort, h.countable⟩, fun h => ⟨h.1, h.2⟩⟩

section

variable [DoubleCodec]

/-! ## What is received -/

theorem receivePayload_of_holds (hlen : (PackCall.payload source).length ≤ intMax)
    (hholds : Holds b.data offset (PackCall.bytes source).enc)
    (hin : offset + (PackCall.bytes source).size ≤ b.max) :
    receivePayload b offset = some (PackCall.payload source) := by
  rw [PackCall.size] at hin
  rw [PackCall.enc, Mem.holds_append, length_packi32] at hholds
  obtain ⟨hcount, hbytes⟩ := hholds
  have hread := unpackInt_of_holds (i := BitVec.ofNat 32 (PackCall.payload source).length) hcount
    (by omega)
  have hsize : (BitVec.ofNat 32 (PackCall.payload source).length).toInt =
      (PackCall.payload source).length := toInt_of_le hlen
  have hload := Mem.load_of_holds hbytes (by rw [← Nat.add_assoc] at hin; exact hin)
  simp only [receivePayload, hread, Option.bind_eq_bind, Option.bind_some, hsize,
    if_pos (Int.natCast_nonneg _), Int.toNat_natCast]
  exact hload

/-- **A block the loop stops in time for is packed and comes back.** -/
theorem StopsInTime.packsBlock (hoff : offset ≤ b.max)
    (h : StopsInTime b.max offset source.length) : PacksBlock b offset source := by
  obtain ⟨hcount, hroom⟩ := stopsInTime_iff.mp h
  obtain ⟨r, hpack⟩ := sosBufferPackBytes_of_fits ⟨hcount.le, hroom⟩
  obtain ⟨-, hr⟩ := sosBufferPackBytes_some hpack
  have hpacked := hr.packedBytes
  rw [PackCall.length_enc] at hpacked
  have hin : offset + (PackCall.bytes source).size ≤ r.buffer.max := hr.max ▸ hroom
  refine ⟨r, hpack, hr.max ▸ hcount, hpacked, hpacked ▸ hin, ?_, hr.take hoff le_rfl, ?_⟩
  · rw [hr.newOffset, hr.packedBytes]
  · have hsize : (PackCall.bytes source).size = 4 + (PackCall.payload source).length := rfl
    have hmax := r.buffer.max_le_intMax
    exact receivePayload_of_holds (by omega) hr.holds hin

/-- **A block is packed and comes back, exactly** when the loop stops in time for
it. -/
theorem packsBlock_iff (hoff : offset ≤ b.max) :
    PacksBlock b offset source ↔ StopsInTime b.max offset source.length := by
  constructor
  · rintro ⟨r, hpack, hcount, hpacked, hin, -⟩
    obtain ⟨-, hr⟩ := sosBufferPackBytes_some hpack
    rw [hr.max] at hcount hin
    rw [hpacked] at hin
    exact stopsInTime_iff.mpr ⟨hcount, hin⟩
  · exact fun h => h.packsBlock hoff

end

/-- The hypothesis of `packsBlock_iff`, and its condition, at a block of six bytes: the
buffer of eight grows in front of it. -/
theorem packsBlock_six :
    letI := DoubleCodec.bits
    PacksBlock (sosBufferInitSized 8 (by decide)) 0 [1, 2, 3, 4, 5, 6] :=
  letI := DoubleCodec.bits
  (packsBlock_iff (by decide)).mpr ⟨fun steps => by
    change (10 : ℕ) ≠ 8 + 4097 * steps + 1
    omega, 1, by decide, by decide⟩

/-- **A block of five bytes**, which ends one byte behind the eight of the buffer: the
loop does not grow it, and the last byte is written past it. -/
theorem not_packsBlock :
    letI := DoubleCodec.bits
    ¬ PacksBlock (sosBufferInitSized 8 (by decide)) 0 [1, 2, 3, 4, 5] := by
  decide +kernel

end SosFlow
