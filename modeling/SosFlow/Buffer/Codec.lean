import SosFlow.Basic
import SosFlow.Lib.Memory

/-!
# The integer codecs of `sos_buffer.c`

Integers go on the wire most significant byte first. Each writer and its
reader are inverse to each other in both directions: a word is read back as
it was written, and a reader's answer determines the bytes it read.
-/

namespace SosFlow

/-! ## The writers -/

/-- `SOS_buffer_packi32`. -/
def packi32 (i : CInt) : List Byte :=
  [(i.sshiftRight 24).setWidth 8, (i.sshiftRight 16).setWidth 8,
   (i.sshiftRight 8).setWidth 8, i.setWidth 8]

/-- `SOS_buffer_packi64`. -/
def packi64 (i : CLong) : List Byte :=
  [(i.sshiftRight 56).setWidth 8, (i.sshiftRight 48).setWidth 8,
   (i.sshiftRight 40).setWidth 8, (i.sshiftRight 32).setWidth 8,
   (i.sshiftRight 24).setWidth 8, (i.sshiftRight 16).setWidth 8,
   (i.sshiftRight 8).setWidth 8, i.setWidth 8]

/-- `SOS_buffer_packguid`. -/
def packguid (g : SosGuid) : List Byte :=
  [(g >>> 56).setWidth 8, (g >>> 48).setWidth 8, (g >>> 40).setWidth 8, (g >>> 32).setWidth 8,
   (g >>> 24).setWidth 8, (g >>> 16).setWidth 8, (g >>> 8).setWidth 8, g.setWidth 8]

@[simp] theorem length_packi32 (i : CInt) : (packi32 i).length = 4 := rfl

@[simp] theorem length_packi64 (i : CLong) : (packi64 i).length = 8 := rfl

@[simp] theorem length_packguid (g : SosGuid) : (packguid g).length = 8 := rfl

/-! ## The readers -/

/-- The unsigned word a reader assembles from four bytes. -/
def word32 (b0 b1 b2 b3 : Byte) : BitVec 32 :=
  (b0.setWidth 32 <<< 24) ||| (b1.setWidth 32 <<< 16) ||| (b2.setWidth 32 <<< 8) |||
    b3.setWidth 32

/-- The unsigned word a reader assembles from eight bytes. -/
def word64 (b0 b1 b2 b3 b4 b5 b6 b7 : Byte) : BitVec 64 :=
  (b0.setWidth 64 <<< 56) ||| (b1.setWidth 64 <<< 48) ||| (b2.setWidth 64 <<< 40) |||
    (b3.setWidth 64 <<< 32) ||| (b4.setWidth 64 <<< 24) ||| (b5.setWidth 64 <<< 16) |||
    (b6.setWidth 64 <<< 8) ||| b7.setWidth 64

/-- `SOS_buffer_unpacki32`, through its "change unsigned numbers to signed". -/
def unpacki32 : List Byte → Option CInt
  | [b0, b1, b2, b3] =>
      let i2 := word32 b0 b1 b2 b3
      if i2 ≤ 0x7fffffff#32 then some i2 else some (-1 - (0xffffffff#32 - i2))
  | _ => none

/-- `SOS_buffer_unpacki64`. -/
def unpacki64 : List Byte → Option CLong
  | [b0, b1, b2, b3, b4, b5, b6, b7] =>
      let i2 := word64 b0 b1 b2 b3 b4 b5 b6 b7
      if i2 ≤ 0x7fffffffffffffff#64 then some i2 else some (-1 - (0xffffffffffffffff#64 - i2))
  | _ => none

/-- `SOS_buffer_unpackguid`, and `SOS_buffer_unpacku64` with it: the two
bodies are the same. -/
def unpackguid : List Byte → Option SosGuid
  | [b0, b1, b2, b3, b4, b5, b6, b7] => some (word64 b0 b1 b2 b3 b4 b5 b6 b7)
  | _ => none

/-! ## The two directions -/

/-- The signed conversion gives back the word it was given. -/
theorem sub_sub_allOnes {w : ℕ} (x : BitVec w) : -1 - (BitVec.allOnes w - x) = x := by
  rw [← BitVec.neg_one_eq_allOnes]
  exact sub_sub_cancel _ _

theorem unpacki32_bytes (b0 b1 b2 b3 : Byte) :
    unpacki32 [b0, b1, b2, b3] = some (word32 b0 b1 b2 b3) := by
  have hcast := sub_sub_allOnes (word32 b0 b1 b2 b3)
  simp only [unpacki32]
  split
  · rfl
  · exact congrArg some hcast

theorem unpacki64_bytes (b0 b1 b2 b3 b4 b5 b6 b7 : Byte) :
    unpacki64 [b0, b1, b2, b3, b4, b5, b6, b7] = some (word64 b0 b1 b2 b3 b4 b5 b6 b7) := by
  have hcast := sub_sub_allOnes (word64 b0 b1 b2 b3 b4 b5 b6 b7)
  simp only [unpacki64]
  split
  · rfl
  · exact congrArg some hcast

/-- The low bytes of an arithmetic and of a logical shift agree, so the
signed and the unsigned 64-bit writer write the same bytes. -/
theorem packi64_eq_packguid (i : CLong) : packi64 i = packguid i := by
  simp only [packi64, packguid, List.cons.injEq, and_true]
  refine ⟨?_, ?_, ?_, ?_, ?_, ?_, ?_⟩ <;>
  · apply BitVec.eq_of_getLsbD_eq
    intro k hk
    simp only [BitVec.getLsbD_setWidth, BitVec.getLsbD_sshiftRight, BitVec.getLsbD_ushiftRight]
    grind

/-- **A 32-bit word is read back as it was written.** -/
theorem unpacki32_packi32 (i : CInt) : unpacki32 (packi32 i) = some i := by
  rw [packi32, unpacki32_bytes, Option.some_inj]
  apply BitVec.eq_of_getLsbD_eq
  intro k hk
  simp only [word32, BitVec.getLsbD_or, BitVec.getLsbD_shiftLeft, BitVec.getLsbD_setWidth,
    BitVec.getLsbD_sshiftRight]
  rcases (by omega : k < 8 ∨ (8 ≤ k ∧ k < 16) ∨ (16 ≤ k ∧ k < 24) ∨ 24 ≤ k) with
    h | ⟨h, h'⟩ | ⟨h, h'⟩ | h <;> grind

/-- The bytes tell one word from another. -/
theorem packi32_inj {i j : CInt} (h : packi32 i = packi32 j) : i = j := by
  have hi := unpacki32_packi32 i
  rw [h, unpacki32_packi32] at hi
  exact (Option.some.inj hi).symm

/-- **A 64-bit word is read back as it was written.** -/
theorem unpackguid_packguid (g : SosGuid) : unpackguid (packguid g) = some g := by
  rw [packguid, unpackguid, Option.some_inj]
  apply BitVec.eq_of_getLsbD_eq
  intro k hk
  simp only [word64, BitVec.getLsbD_or, BitVec.getLsbD_shiftLeft, BitVec.getLsbD_setWidth,
    BitVec.getLsbD_ushiftRight]
  rcases (by omega : k < 8 ∨ (8 ≤ k ∧ k < 16) ∨ (16 ≤ k ∧ k < 24) ∨ (24 ≤ k ∧ k < 32) ∨
      (32 ≤ k ∧ k < 40) ∨ (40 ≤ k ∧ k < 48) ∨ (48 ≤ k ∧ k < 56) ∨ 56 ≤ k) with
    h | ⟨h, h'⟩ | ⟨h, h'⟩ | ⟨h, h'⟩ | ⟨h, h'⟩ | ⟨h, h'⟩ | ⟨h, h'⟩ | h <;> grind

theorem unpacki64_packi64 (i : CLong) : unpacki64 (packi64 i) = some i := by
  have hguid := unpackguid_packguid i
  rw [packi64_eq_packguid, packguid, unpacki64_bytes]
  rwa [packguid, unpackguid] at hguid

/-- **A word determines the four bytes it was read from.** -/
theorem packi32_of_unpacki32 {bs : List Byte} {i : CInt} (h : unpacki32 bs = some i) :
    packi32 i = bs := by
  match bs with
  | [b0, b1, b2, b3] =>
    rw [unpacki32_bytes, Option.some_inj] at h
    subst h
    simp only [packi32, word32, List.cons.injEq, and_true]
    refine ⟨?_, ?_, ?_, ?_⟩ <;>
    · apply BitVec.eq_of_getLsbD_eq
      intro k hk
      simp only [BitVec.getLsbD_or, BitVec.getLsbD_shiftLeft, BitVec.getLsbD_setWidth,
        BitVec.getLsbD_sshiftRight]
      grind

/-- **A word determines the eight bytes it was read from.** -/
theorem packguid_of_unpackguid {bs : List Byte} {g : SosGuid} (h : unpackguid bs = some g) :
    packguid g = bs := by
  match bs with
  | [b0, b1, b2, b3, b4, b5, b6, b7] =>
    rw [unpackguid, Option.some_inj] at h
    subst h
    simp only [packguid, word64, List.cons.injEq, and_true]
    refine ⟨?_, ?_, ?_, ?_, ?_, ?_, ?_, ?_⟩ <;>
    · apply BitVec.eq_of_getLsbD_eq
      intro k hk
      simp only [BitVec.getLsbD_or, BitVec.getLsbD_shiftLeft, BitVec.getLsbD_setWidth,
        BitVec.getLsbD_ushiftRight]
      grind

theorem packi64_of_unpacki64 {bs : List Byte} {i : CLong} (h : unpacki64 bs = some i) :
    packi64 i = bs := by
  rw [packi64_eq_packguid]
  apply packguid_of_unpackguid
  match bs with
  | [b0, b1, b2, b3, b4, b5, b6, b7] => rwa [unpacki64_bytes] at h

end SosFlow
