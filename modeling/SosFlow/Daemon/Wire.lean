import SosFlow.Msg.OverWire

/-!
# Values on the wire

The readers of a PUBLISH and of a VAL_SNAPS read the value of an element by
a type they know already, a string into memory of the length that came in
front of it. A value that was packed is read as it was, but for what the
conversions of doubles do.
-/

namespace SosFlow

open Mem (Holds)

/-- A count that is an `int` is read as it is. -/
theorem toNat_intOf {n : ℕ} (h : n ≤ intMax) : (intOf n).toNat = n := by
  unfold intMax at h
  rw [intOf, BitVec.toNat_ofNat]
  omega

theorem toInt_intOf {n : ℕ} (h : n ≤ intMax) : (intOf n).toInt = n := by
  have hnat := toNat_intOf h
  unfold intMax at h
  rw [BitVec.toInt_eq_toNat_of_lt (by omega), hnat]

/-- The C string in some bytes: those in front of the first zero. -/
def CString.ofBytes (bytes : List Byte) : CString :=
  ⟨bytes.takeWhile (· ≠ 0), fun x hx => by
    have hne := List.mem_takeWhile_imp hx
    exact of_decide_eq_true hne⟩

@[simp] theorem CString.ofBytes_bytes (c : CString) : ofBytes c.bytes = c := by
  have hall : c.bytes.takeWhile (· ≠ 0) = c.bytes :=
    List.takeWhile_eq_self_iff.mpr fun x hx => decide_eq_true (c.nonzero x hx)
  exact CString.ext hall

/-- The string in zeroed memory for `valLen` bytes and a terminator, behind the
copy of some bytes. -/
def stringIn (valLen : CInt) (bytes : List Byte) : Option SosVal :=
  if 0 ≤ valLen.toInt ∧ bytes.length ≤ valLen.toInt then some (.string (.ofBytes bytes)) else none

section

variable [DoubleCodec]

/-- **One value of a type.** Neither reader puts a block where its value is. -/
def unpackVal (b : SosBuffer) (offset : ℕ) (valLen : CInt) :
    ValType → Option (SosVal × SosBuffer × ℕ)
  | .int => (sosBufferUnpack b offset ['i']).bind fun u => match u.outs with
    | [some (.int i)] => some (.int i, u.buffer, u.offset)
    | _ => none
  | .long => (sosBufferUnpack b offset ['l']).bind fun u => match u.outs with
    | [some (.long l)] => some (.long l, u.buffer, u.offset)
    | _ => none
  | .double => (sosBufferUnpack b offset ['d']).bind fun u => match u.outs with
    | [some (.double d)] => some (.double d, u.buffer, u.offset)
    | _ => none
  | .string => (sosBufferUnpack b offset ['s']).bind fun u => match u.outs with
    | [some (.str bytes)] => (stringIn valLen bytes).map fun v => (v, u.buffer, u.offset)
    | _ => none
  | .bytes => none

/-- **A value that a reader has room for**: no block, and a string of the length
that is sent with it. -/
def SosVal.RoomIn (v : SosVal) (valLen : CInt) : Prop :=
  match v with
  | .string c => valLen.toInt = c.length
  | .bytes _ => False
  | _ => True

omit [DoubleCodec] in
/-- A length that is an `int` fits one. -/
theorem le_intMax_of_toInt {n : ℕ} {len : CInt} (h : len.toInt = n) : n ≤ intMax := by
  have hlt := BitVec.toInt_lt (x := len)
  unfold intMax
  omega

variable {b : SosBuffer} {offset : ℕ}

/-- **A value is read as it was packed.** -/
theorem unpackVal_reads {v : SosVal} {valLen : CInt} (hroom : v.RoomIn valLen)
    (hholds : Holds b.data offset (packVal v).enc) (hin : offset + (packVal v).size ≤ b.max) :
    unpackVal b offset valLen v.type = some (v.overWire, b, offset + (packVal v).size) := by
  have hone : ∀ f : Field, (encAll [f]) = f.enc := fun f => List.append_nil _
  cases v with
  | int i =>
      have hread : sosBufferUnpack b offset ['i'] =
          some ⟨b, offset + (Field.i i).size, (Field.i i).size, [some (Field.i i).read]⟩ :=
        sosBufferUnpack_one rfl id trivial (hone _ ▸ hholds) hin
      simp only [unpackVal, SosVal.type, hread, Option.bind_some]
      rfl
  | long l =>
      have hread : sosBufferUnpack b offset ['l'] =
          some ⟨b, offset + (Field.l l).size, (Field.l l).size, [some (Field.l l).read]⟩ :=
        sosBufferUnpack_one rfl id trivial (hone _ ▸ hholds) hin
      simp only [unpackVal, SosVal.type, hread, Option.bind_some]
      rfl
  | double d =>
      have hread : sosBufferUnpack b offset ['d'] =
          some ⟨b, offset + (Field.d d).size, (Field.d d).size, [some (Field.d d).read]⟩ :=
        sosBufferUnpack_one rfl id trivial (hone _ ▸ hholds) hin
      simp only [unpackVal, SosVal.type, hread, Option.bind_some]
      rfl
  | string c =>
      have hlen : valLen.toInt = c.length := hroom
      have hread : sosBufferUnpack b offset ['s'] =
          some ⟨b, offset + (Field.s c).size, (Field.s c).size, [some (Field.s c).read]⟩ :=
        sosBufferUnpack_one rfl id (le_intMax_of_toInt hlen) (hone _ ▸ hholds) hin
      have hstring : stringIn valLen c.bytes = some (.string c) := by
        rw [stringIn, if_pos ⟨by omega, hlen.ge⟩, CString.ofBytes_bytes]
      simp only [unpackVal, SosVal.type, hread, Option.bind_some, Field.read, Field.arg, hstring]
      rfl
  | bytes bs => exact absurd hroom id

end

end SosFlow
