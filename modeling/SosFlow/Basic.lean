import Mathlib.Data.BitVec
import Mathlib.Tactic.Common

/-!
# The C types SOSflow is written in

`int` and `long` are the 32- and 64-bit words of the platforms the daemon
is built for, and `SOS_guid` is an unsigned 64-bit word. A quantity the
code only ever counts with (an offset, a length, a queue's `elem_count`)
is a natural number in the model, and the places where the code would leave
the range of `int` are explicit there.

A `double` is its 64-bit pattern. The two conversions between it and the
word that goes on the wire are arithmetic on floats, and stay a parameter
of everything above them (`DoubleCodec`).
-/

namespace SosFlow

abbrev Byte := BitVec 8
abbrev CInt := BitVec 32
abbrev CLong := BitVec 64
abbrev SosGuid := BitVec 64
abbrev Double := BitVec 64

/-- A count or an index as the `int` it is passed as. -/
def intOf (n : ℕ) : CInt := BitVec.ofNat 32 n

/-- `INT_MAX`. -/
def intMax : ℕ := 2147483647

/-- `LLONG_MAX`, which is also `SOS_DEFAULT_UID_MAX`. -/
def llongMax : ℕ := 9223372036854775807

/-- `SOS_DEFAULT_BUFFER_MAX`. -/
def sosDefaultBufferMax : ℕ := 4096

/-- `SOS_DEFAULT_REPLY_LEN`. -/
def sosDefaultReplyLen : ℕ := 1024

/-- `SOS_DEFAULT_STRING_LEN`. -/
def sosDefaultStringLen : ℕ := 256

/-- `SOS_DEFAULT_ELEM_MAX`. -/
def sosDefaultElemMax : ℕ := 1024

/-- `SOS_DEFAULT_GUID_BLOCK`. -/
def sosDefaultGuidBlock : ℕ := 8001027

/-- **A C string**: its bytes up to the terminator, none of which is zero. -/
structure CString where
  bytes : List Byte
  nonzero : ∀ x ∈ bytes, x ≠ 0
deriving DecidableEq

namespace CString

/-- `strlen`. -/
def length (s : CString) : ℕ := s.bytes.length

/-- `""`. -/
def empty : CString := ⟨[], by simp⟩

/-- Every prefix of a C string is one: what `strndup` returns. -/
def take (s : CString) (n : ℕ) : CString :=
  ⟨s.bytes.take n, fun x hx => s.nonzero x (List.mem_of_mem_take hx)⟩

/-- What `memcpy` of `s`, without its terminator, over the array that holds `old`
leaves in it. -/
def copiedOver (s old : CString) : CString :=
  ⟨s.bytes ++ old.bytes.drop s.length, fun x hx => (List.mem_append.mp hx).elim (s.nonzero x)
    fun hold => old.nonzero x (List.mem_of_mem_drop hold)⟩

instance : Inhabited CString := ⟨empty⟩

@[ext] theorem ext {s t : CString} (h : s.bytes = t.bytes) : s = t := by
  cases s; cases t; simp_all

/-- **What is read is the new string** exactly when it covers the old one. -/
theorem copiedOver_eq_left_iff {s old : CString} : s.copiedOver old = s ↔ old.length ≤ s.length := by
  constructor
  · intro h
    have hbytes := congrArg (fun t : CString => t.bytes) h
    have hdrop : old.bytes.drop s.length = [] := List.append_right_eq_self.mp hbytes
    exact List.drop_eq_nil_iff.mp hdrop
  · intro h
    apply CString.ext
    simp only [copiedOver, List.drop_eq_nil_of_le (show old.bytes.length ≤ s.length from h),
      List.append_nil]

/-- `strndup` with room for the whole string copies it. -/
theorem take_of_length_le {s : CString} {n : ℕ} (h : s.length ≤ n) : s.take n = s :=
  CString.ext (List.take_of_length_le h)

/-- A copy with less room is not the whole string. -/
theorem take_eq_self_iff {s : CString} {n : ℕ} : s.take n = s ↔ s.length ≤ n := by
  refine ⟨?_, take_of_length_le⟩
  intro heq
  have hlen : (s.bytes.take n).length = s.bytes.length := congrArg length heq
  rw [List.length_take] at hlen
  show s.bytes.length ≤ n
  omega

/-- A copy is copied whole. -/
theorem take_take (s : CString) (n : ℕ) : (s.take n).take n = s.take n :=
  take_of_length_le (List.length_take_le n s.bytes)

end CString

/-- The name `"x"`. -/
def nameX : CString := ⟨[120], by simp⟩

/-- **The two float conversions**, `SOS_buffer_pack754_64` and
`SOS_buffer_unpack754_64`, on the bit patterns of the doubles. -/
class DoubleCodec where
  pack754 : Double → BitVec 64
  unpack754 : BitVec 64 → Double

/-- The conversions of a machine whose doubles already are the wire's words:
what `pack754` and `unpack754` compute on every normal number. -/
@[reducible] def DoubleCodec.bits : DoubleCodec := ⟨id, id⟩

end SosFlow
