import SosFlow.Daemon.Receive
import SosFlow.Analytics.Results
import Mathlib.Data.Nat.Digits.Lemmas

/-!
# A number with separators

`SOS_uint64_to_str` prints a number into a buffer and then moves its digits
apart, from the right to the left, with a comma behind every third one. Both
indexes are computed before the loop, from an `i` that is still zero. So the
terminator goes behind the first digit, and the loop has nothing to move:
the first digit is all that is left of the number (`left_first`).

What was meant is `grouped`, and deleting its commas gives the digits back.
-/

namespace SosFlow

/-! ## What is meant -/

/-- `','`. -/
def comma : Byte := 44

/-- A comma behind every third digit that another one follows, with the digits listed
from the right. -/
def separate : List Byte → List Byte
  | a :: b :: c :: d :: rest => a :: b :: c :: comma :: separate (d :: rest)
  | digits => digits

/-- **Groups of three digits**, counted from the right, with commas between them. -/
def grouped (digits : List Byte) : List Byte := (separate digits.reverse).reverse

theorem filter_separate {digits : List Byte} (h : ∀ x ∈ digits, x ≠ comma) :
    (separate digits).filter (· ≠ comma) = digits := by
  have hall : ∀ {l : List Byte}, (∀ x ∈ l, x ≠ comma) → l.filter (· ≠ comma) = l := by
    intro l hl
    exact List.filter_eq_self.mpr fun x hx => decide_eq_true (hl x hx)
  induction digits using separate.induct with
  | case1 a b c d rest ih =>
      have hrest := ih fun x hx => h x (by simp_all)
      have ha := h a (by simp)
      have hb := h b (by simp)
      have hc := h c (by simp)
      simp only [separate, List.filter_cons, hrest]
      simp [ha, hb, hc]
  | case2 digits hshort =>
      rw [separate.eq_def]
      split
      case h_1 a b c d rest => exact absurd rfl (hshort a b c d rest)
      case h_2 => exact hall h

/-- **Deleting the commas** gives the digits back. -/
theorem filter_grouped {digits : List Byte} (h : ∀ x ∈ digits, x ≠ comma) :
    (grouped digits).filter (· ≠ comma) = digits := by
  rw [grouped, List.filter_reverse,
    filter_separate fun x hx => h x (List.mem_reverse.mp hx), List.reverse_reverse]

/-- Grouping deletes no digit. -/
theorem length_le_grouped {digits : List Byte} (h : ∀ x ∈ digits, x ≠ comma) :
    digits.length ≤ (grouped digits).length := by
  have hfilter := List.length_filter_le (· ≠ comma) (grouped digits)
  rwa [filter_grouped h] at hfilter

/-! ## What is done -/

/-- `snprintf` of a text into a buffer, with the size it is told. -/
def snprintf (result : List Byte) (size : ℕ) (text : List Byte) : Option (List Byte) :=
  if size = 0 then some result else Mem.store result 0 (text.take (size - 1) ++ [0])

/-- The variables of the loop, `i` apart. -/
structure Spreading where
  result : List Byte
  i2 : BitVec 64
  c : ℕ

/-- `result[i2--] = x`. -/
def Spreading.place (s : Spreading) (x : Byte) : Option Spreading :=
  (Mem.store s.result s.i2.toNat [x]).map fun result => { s with result, i2 := s.i2 - 1 }

/-- **One turn**, at an `i` that is not zero. -/
def Spreading.turn (s : Spreading) (i : ℕ) : Option Spreading := do
  let x ← s.result[i]?
  let s ← s.place x
  let s := { s with c := s.c + 1 }
  if s.c % 3 = 0 then s.place comma else some s

/-- The loop, from an `i` down to zero. -/
def spread : ℕ → Spreading → Option Spreading
  | 0, s => some s
  | i + 1, s => (s.turn (i + 1)).bind (spread i)

/-- **`SOS_uint64_to_str`.** A write outside of the buffer ends it. -/
def sosUint64ToStr (val : BitVec 64) (result : List Byte) (resultLen : CInt) :
    Option (List Byte) :=
  let size := (resultLen.signExtend 64).toNat
  if resultLen.toInt < 128 then snprintf result size (literal "ERROR: result buffer < 128").bytes
  else do
    let result ← snprintf result size (guidStr val).bytes
    let i : BitVec 64 := 0
    let i2 := i + i / 3
    let result ← Mem.store result (i2 + 1).toNat [0]
    let s ← spread (BitVec.ofNat 64 (strlen result) - 1).toNat ⟨result, i2, 0⟩
    some s.result

/-! ## What is left -/

/-- A number that is not zero, digit by digit. -/
theorem guidStr_of_ne {g : SosGuid} (h : g ≠ 0) : (guidStr g).bytes =
    (Nat.digits 10 g.toNat).reverse.map fun d => BitVec.ofNat 8 (48 + d) :=
  if_neg h

/-- The digits of a number are no commas. -/
theorem guidStr_ne_comma (g : SosGuid) : ∀ x ∈ (guidStr g).bytes, x ≠ comma := by
  intro x hx hcomma
  by_cases hg : g = 0
  · subst hg
    rw [List.mem_singleton.mp hx] at hcomma
    exact absurd hcomma (by decide)
  · rw [guidStr_of_ne hg] at hx
    obtain ⟨d, hd, rfl⟩ := List.mem_map.mp hx
    have hlt : d < 10 := Nat.digits_lt_base (by decide) (List.mem_reverse.mp hd)
    have hmod := congrArg BitVec.toNat hcomma
    rw [BitVec.toNat_ofNat] at hmod
    change (48 + d) % 256 = 44 at hmod
    omega

/-- How many digits there are. -/
theorem length_guidStr_le_iff (g : SosGuid) {k : ℕ} (hk : 0 < k) :
    (guidStr g).length ≤ k ↔ g.toNat < 10 ^ k := by
  by_cases hg : g = 0
  · subst hg
    exact iff_of_true hk (Nat.pow_pos (by decide))
  · rw [CString.length, guidStr_of_ne hg, List.length_map, List.length_reverse]
    exact Nat.digits_length_le_iff (by decide) _

theorem guidStr_ne_nil (g : SosGuid) : (guidStr g).bytes ≠ [] := by
  by_cases hg : g = 0
  · subst hg
    exact List.cons_ne_nil _ _
  · have hnat : g.toNat ≠ 0 := fun h => hg (BitVec.eq_of_toNat_eq h)
    rw [guidStr_of_ne hg]
    simpa [Nat.digits_eq_nil_iff_eq_zero] using hnat

/-- A number of 64 bits has at most twenty digits. -/
theorem length_guidStr_le (g : SosGuid) : (guidStr g).length ≤ 20 := by
  rw [length_guidStr_le_iff g (by decide)]
  exact g.isLt.trans_le (by decide)

variable {result : List Byte} {resultLen : CInt}

/-- The size that `snprintf` is told, of a length that is not negative. -/
theorem toNat_signExtend_of_toInt {n : ℕ} (h : resultLen.toInt = n) :
    (resultLen.signExtend 64).toNat = n := by
  have hwide : (resultLen.signExtend 64).toInt = n := by
    rw [BitVec.toInt_signExtend_of_le (by decide), h]
  rw [BitVec.toInt_eq_toNat_cond] at hwide
  have hlt := (resultLen.signExtend 64).isLt
  split at hwide <;> omega

/-- A text that fits is stored in front, with its terminator. -/
theorem snprintf_of_fits (result text : List Byte) {size : ℕ} (hsize : size ≤ result.length)
    (hfits : text.length < size) : ∃ printed, snprintf result size text = some printed ∧
      printed.length = result.length ∧ Mem.Holds printed 0 (text ++ [0]) := by
  have hin : 0 + (text ++ [0]).length ≤ result.length := by
    rw [List.length_append, List.length_singleton]
    omega
  have hstore := Mem.store_eq hin
  rw [snprintf, if_neg (by omega), List.take_of_length_le (by omega)]
  exact ⟨_, hstore, Mem.length_store hstore, Mem.holds_of_store hstore⟩

/-- The text begins with something, so there is a byte behind its first. -/
theorem exists_second {first : Byte} {rest printed : List Byte}
    (h : Mem.Holds printed 0 (first :: rest ++ [0])) :
    ∃ second behind, printed = first :: second :: behind := by
  obtain ⟨tail, htail⟩ := h
  rw [List.drop_zero] at htail
  cases rest with
  | nil => exact ⟨0, tail, htail.symm⟩
  | cons x rest => exact ⟨x, rest ++ [0] ++ tail, by rw [← htail]; simp⟩

/-- A string of one byte. -/
theorem takeWhile_first {first : Byte} (hfirst : first ≠ 0) (behind : List Byte) :
    (first :: 0 :: behind).takeWhile (· ≠ 0) = [first] := by
  rw [List.takeWhile_cons, List.takeWhile_cons, if_pos (decide_eq_true hfirst),
    if_neg (by decide)]

theorem ofBytes_first {first : Byte} (hfirst : first ≠ 0) (behind : List Byte) :
    (CString.ofBytes (first :: 0 :: behind)).bytes = [first] :=
  takeWhile_first hfirst behind

/-- **The first digit** is all that is left, in a buffer that is no shorter than it is
said to be. -/
theorem left_first (val : BitVec 64) (hlen : 128 ≤ resultLen.toInt)
    (hbuf : resultLen.toInt ≤ result.length) :
    ∃ first rest behind, (guidStr val).bytes = first :: rest ∧ first ≠ 0 ∧
      sosUint64ToStr val result resultLen = some (first :: 0 :: behind) ∧
      (first :: 0 :: behind).length = result.length := by
  obtain ⟨first, rest, hdigits⟩ := List.exists_cons_of_ne_nil (guidStr_ne_nil val)
  have hfirst : first ≠ 0 := (guidStr val).nonzero first (hdigits ▸ List.mem_cons_self ..)
  obtain ⟨size, hsize⟩ := Int.eq_ofNat_of_zero_le (by omega : 0 ≤ resultLen.toInt)
  have hshort := length_guidStr_le val
  rw [CString.length] at hshort
  obtain ⟨printed, hprinted, hlength, hholds⟩ :=
    snprintf_of_fits result (guidStr val).bytes (by omega : size ≤ _) (by omega)
  rw [hdigits] at hholds
  obtain ⟨second, behind, rfl⟩ := exists_second hholds
  refine ⟨first, rest, behind, hdigits, hfirst, ?_, by simpa using hlength⟩
  -- the terminator is written behind the first digit, so the loop starts at zero
  have hcut : Mem.store (first :: second :: behind) 1 [0] = some (first :: 0 :: behind) := by
    rw [Mem.store_eq (by simp)]
    rfl
  have hstrlen : strlen (first :: 0 :: behind) = 1 :=
    congrArg List.length (takeWhile_first hfirst behind)
  rw [sosUint64ToStr, if_neg (by omega), toNat_signExtend_of_toInt hsize, hprinted]
  simp only [Option.bind_eq_bind, Option.bind_some]
  change (Mem.store (first :: second :: behind) 1 [0]).bind _ = _
  rw [hcut, Option.bind_some, hstrlen]
  rfl

/-! ## When it is what is meant -/

/-- **The number is printed with its separators**: the buffer keeps its length, and holds
the grouped digits, from which deleting the commas gives the digits. -/
def Separated (val : BitVec 64) (result : List Byte) (resultLen : CInt) : Prop :=
  ∃ result', sosUint64ToStr val result resultLen = some result' ∧
    result'.length = result.length ∧
    (CString.ofBytes result').bytes = grouped (guidStr val).bytes ∧
    (CString.ofBytes result').bytes.filter (· ≠ comma) = (guidStr val).bytes

/-- A number of several digits is cut. -/
theorem not_separated_of_le (hlen : 128 ≤ resultLen.toInt)
    (hbuf : resultLen.toInt ≤ result.length) {val : BitVec 64} (hval : 10 ≤ val) :
    ¬ Separated val result resultLen := by
  rintro ⟨result', hrun, -, hgrouped, -⟩
  obtain ⟨first, rest, behind, hdigits, hfirst, hleft, -⟩ := left_first val hlen hbuf
  obtain rfl := Option.some.inj (hleft.symm.trans hrun)
  have hmany : ¬ (guidStr val).length ≤ 1 := by
    rw [length_guidStr_le_iff val (by decide)]
    have hnat : 10 ≤ val.toNat := BitVec.le_def.mp hval
    omega
  have hle := length_le_grouped (guidStr_ne_comma val)
  rw [← hgrouped, ofBytes_first hfirst, List.length_singleton] at hle
  exact hmany hle

/-- **Numbers below ten** are printed as they are meant to be, and no other. -/
theorem separated_iff (val : BitVec 64) (hlen : 128 ≤ resultLen.toInt)
    (hbuf : resultLen.toInt ≤ result.length) :
    Separated val result resultLen ↔ val < 10 := by
  constructor
  · intro h
    by_contra hval
    exact not_separated_of_le hlen hbuf (BitVec.not_lt.mp hval) h
  · intro hval
    obtain ⟨first, rest, behind, hdigits, hfirst, hleft, hlength⟩ := left_first val hlen hbuf
    have hone : (guidStr val).length ≤ 1 :=
      (length_guidStr_le_iff val (by decide)).mpr (BitVec.lt_def.mp hval)
    rw [CString.length, hdigits, List.length_cons] at hone
    obtain rfl : rest = [] := List.eq_nil_of_length_eq_zero (by omega)
    have hne : first ≠ comma := guidStr_ne_comma val first (hdigits ▸ List.mem_cons_self ..)
    refine ⟨_, hleft, hlength, ?_, ?_⟩
    · rw [ofBytes_first hfirst, hdigits]
      rfl
    · rw [ofBytes_first hfirst, hdigits]
      simp [hne]

/-- Seven, in a buffer of 128 bytes. -/
theorem separated_seven : Separated 7 (List.replicate 128 0) 128 :=
  (separated_iff 7 (by decide) (by rw [List.length_replicate]; decide)).mpr (by decide)

/-- **A million** is printed as `"1"`. -/
theorem not_separated : ¬ Separated 1000000 (List.replicate 128 0) 128 :=
  not_separated_of_le (by decide) (by rw [List.length_replicate]; decide) (by decide)

end SosFlow
