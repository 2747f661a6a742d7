import Mathlib.Data.Int.Log
import Mathlib.Data.Rat.Floor
import Mathlib.Data.BitVec
import Mathlib.Algebra.Order.Floor.Semifield
import Mathlib.Tactic.Linarith
import Mathlib.Tactic.Positivity
import Mathlib.Tactic.FieldSimp
import Mathlib.Tactic.NormNum

/-!
# Binary floating point

The finite numbers of a format are the rationals `m * 2 ^ e` with `m` below
its precision and `e` from its least exponent on (`OnGrid`), as far as they
are below `2 ^ emax`. The two zeros are one number here.

An operation rounds its exact result to the nearest number, ties to even
(`nearest`). It is exact wherever the exact result is on the grid
(`nearest_of_onGrid`), which is all that a proof about scaling by powers of
two needs to know about the rounding.
-/

namespace Binary

/-- **A format.** -/
structure Format where
  precision : ℕ
  emin : ℤ
  emax : ℤ

/-- Single precision. -/
def binary32 : Format := ⟨24, -149, 128⟩

/-- Double precision. -/
def binary64 : Format := ⟨53, -1074, 1024⟩

/-- **A number**, of any format. -/
inductive Number where
  | finite (x : ℚ)
  | inf (negative : Bool)
  | nan
deriving DecidableEq

/-! ## Rounding -/

/-- The nearest integer, ties to even. -/
def roundEven (y : ℚ) : ℤ :=
  if Int.fract y < 1 / 2 then ⌊y⌋
  else if 1 / 2 < Int.fract y then ⌊y⌋ + 1
  else if Even ⌊y⌋ then ⌊y⌋
  else ⌊y⌋ + 1

@[simp] theorem roundEven_intCast (n : ℤ) : roundEven n = n := by
  rw [roundEven, Int.fract_intCast, if_pos (by norm_num), Int.floor_intCast]

/-- A power of two. -/
theorem two_zpow_pos (e : ℤ) : (0 : ℚ) < 2 ^ e := zpow_pos (by norm_num) e

namespace Format

variable (F : Format)

/-- The exponent of the last place of a number of that size. -/
def unit (x : ℚ) : ℤ := max (Int.log 2 |x| + 1 - F.precision) F.emin

/-- **The nearest number**, or an infinity. -/
def nearest (x : ℚ) : Number :=
  let r : ℚ := roundEven (x / 2 ^ F.unit x) * 2 ^ F.unit x
  if |r| < 2 ^ F.emax then .finite r else .inf (x < 0)

/-- **The rational is on the grid** of the format. -/
def OnGrid (x : ℚ) : Prop :=
  ∃ m e : ℤ, |m| < 2 ^ F.precision ∧ F.emin ≤ e ∧ x = m * 2 ^ e

variable {F} {x : ℚ}

/-- What is on the grid is no finer than the last place of its size. -/
theorem unit_le {m e : ℤ} (hm : |m| < 2 ^ F.precision) (he : F.emin ≤ e) (hx : x = m * 2 ^ e)
    (hne : x ≠ 0) : F.unit x ≤ e := by
  have hlt : |x| < (2 : ℚ) ^ (e + F.precision) := by
    have hcast : (|m| : ℚ) < 2 ^ F.precision := by exact_mod_cast hm
    rw [hx, abs_mul, abs_of_pos (two_zpow_pos e), zpow_add₀ two_ne_zero, zpow_natCast, mul_comm]
    exact mul_lt_mul_of_pos_left hcast (two_zpow_pos e)
  have hlog : Int.log 2 |x| < e + F.precision :=
    (Int.lt_zpow_iff_log_lt (by norm_num) (abs_pos.mpr hne)).mp (by exact_mod_cast hlt)
  exact max_le (by omega) he

/-- **On the grid nothing is rounded.** -/
theorem nearest_of_onGrid (h : F.OnGrid x) :
    F.nearest x = if |x| < 2 ^ F.emax then .finite x else .inf (x < 0) := by
  obtain ⟨m, e, hm, he, hx⟩ := h
  have hround : (roundEven (x / 2 ^ F.unit x) : ℚ) * 2 ^ F.unit x = x := by
    by_cases hne : x = 0
    · have hzero := roundEven_intCast 0
      rw [Int.cast_zero] at hzero
      rw [hne, zero_div, hzero, Int.cast_zero, zero_mul]
    · have hle := unit_le hm he hx hne
      obtain ⟨k, hk⟩ := Int.eq_ofNat_of_zero_le (sub_nonneg.mpr hle)
      have hint : x / 2 ^ F.unit x = ((m * 2 ^ k : ℤ) : ℚ) := by
        rw [hx, mul_div_assoc, ← zpow_sub₀ two_ne_zero, ← hx, hk]
        push_cast
        rw [zpow_natCast]
      rw [hint, roundEven_intCast, ← hint, div_mul_cancel₀ _ (two_zpow_pos _).ne']
  simp only [nearest, hround]

/-- A number on the grid that is in range is itself. -/
theorem nearest_eq (h : F.OnGrid x) (hlt : |x| < 2 ^ F.emax) : F.nearest x = .finite x := by
  rw [nearest_of_onGrid h, if_pos hlt]

/-- Scaling by a power of two stays on the grid, as long as it does not go below the
least exponent. -/
theorem OnGrid.scale {m e : ℤ} (hm : |m| < 2 ^ F.precision) (s : ℤ) (he : F.emin ≤ e + s) :
    F.OnGrid (m * 2 ^ e * 2 ^ s) :=
  ⟨m, e + s, hm, he, by rw [mul_assoc, ← zpow_add₀ two_ne_zero]⟩

theorem OnGrid.neg (h : F.OnGrid x) : F.OnGrid (-x) := by
  obtain ⟨m, e, hm, he, hx⟩ := h
  exact ⟨-m, e, by rwa [abs_neg], he, by rw [hx]; push_cast; ring⟩

theorem OnGrid.abs (h : F.OnGrid x) : F.OnGrid |x| := by
  rcases abs_choice x with hx | hx <;> rw [hx]
  · exact h
  · exact h.neg

end Format

/-! ## Significand and exponent -/

section

variable {F : Format} {x : ℚ}

/-- A number between two powers of two. -/
theorem log_of_between {y : ℚ} (h1 : 1 ≤ y) (h2 : y < 2) (s : ℤ) : Int.log 2 (y * 2 ^ s) = s := by
  have hpos : 0 < y * 2 ^ s := mul_pos (by linarith) (two_zpow_pos s)
  have hle : s ≤ Int.log 2 (y * 2 ^ s) := by
    rw [← Int.zpow_le_iff_le_log (by norm_num) hpos]
    exact_mod_cast le_mul_of_one_le_left (two_zpow_pos s).le h1
  have hlt : Int.log 2 (y * 2 ^ s) < s + 1 := by
    rw [← Int.lt_zpow_iff_log_lt (by norm_num) hpos, Nat.cast_ofNat, zpow_add_one₀ two_ne_zero,
      mul_comm y]
    exact mul_lt_mul_of_pos_left h2 (two_zpow_pos s)
  omega

/-- A significand is one and a fraction with that many places. -/
def significand (p k : ℕ) : ℚ := 1 + k / 2 ^ p

theorem significand_bounds {p k : ℕ} (hk : k < 2 ^ p) :
    1 ≤ significand p k ∧ significand p k < 2 := by
  have hpow : (0 : ℚ) < 2 ^ p := by positivity
  have hlt : (k : ℚ) / 2 ^ p < 1 := (div_lt_one hpow).mpr (by exact_mod_cast hk)
  have hnonneg : (0 : ℚ) ≤ k / 2 ^ p := by positivity
  constructor <;> simp only [significand] <;> linarith

/-- The same as an integer in last places. -/
theorem significand_eq (p k : ℕ) : significand p k = ((2 ^ p + k : ℤ) : ℚ) * 2 ^ (-p : ℤ) := by
  rw [significand, zpow_neg, zpow_natCast]
  push_cast
  field_simp

/-- **A significand at an exponent** is on the grid, if its last place is. -/
theorem significand_onGrid {p k : ℕ} (hF : F.precision = p + 1) (hk : k < 2 ^ p) {s : ℤ}
    (hs : F.emin ≤ s - p) : F.OnGrid (significand p k * 2 ^ s) := by
  rw [significand_eq]
  refine Format.OnGrid.scale ?_ s (by omega)
  rw [abs_of_nonneg (by positivity), hF, pow_succ]
  have hlt : (k : ℤ) < 2 ^ p := by exact_mod_cast hk
  omega

/-- **What is on the grid has a significand and an exponent.** -/
theorem exists_significand {p : ℕ} (hF : F.precision = p + 1) (hpos : 0 < x) (h : F.OnGrid x) :
    ∃ k < 2 ^ p, ∃ s, F.emin ≤ s ∧ x = significand p k * 2 ^ s := by
  obtain ⟨m, e, hm, he, rfl⟩ := h
  have hmpos : 0 < m := by
    have := pos_of_mul_pos_left hpos (two_zpow_pos e).le
    exact_mod_cast this
  obtain ⟨n, rfl⟩ := Int.eq_ofNat_of_zero_le hmpos.le
  have hn : n ≠ 0 := by rintro rfl; exact absurd hmpos (lt_irrefl _)
  rw [abs_of_pos hmpos, hF] at hm
  have hlog : Nat.log 2 n ≤ p := by
    have hlt : Nat.log 2 n < p + 1 := Nat.log_lt_of_lt_pow hn (by exact_mod_cast hm)
    omega
  have hlow := Nat.pow_log_le_self 2 hn
  have hhigh := Nat.lt_pow_succ_log_self (by norm_num : 1 < 2) n
  -- the leading bit moved to the place `p`
  have hplace : 2 ^ Nat.log 2 n * 2 ^ (p - Nat.log 2 n) = 2 ^ p := by
    rw [← pow_add, Nat.add_sub_cancel' hlog]
  have hge : 2 ^ p ≤ n * 2 ^ (p - Nat.log 2 n) := by
    rw [← hplace]
    exact Nat.mul_le_mul_right _ hlow
  have hlt : n * 2 ^ (p - Nat.log 2 n) < 2 ^ p * 2 := by
    rw [← hplace, mul_right_comm, ← pow_succ]
    exact Nat.mul_lt_mul_of_pos_right hhigh (by positivity)
  obtain ⟨k, hk⟩ := Nat.exists_eq_add_of_le hge
  refine ⟨k, by omega, e + Nat.log 2 n, by omega, ?_⟩
  have hcast : ((2 : ℤ) ^ p + k : ℤ) = n * 2 ^ (p - Nat.log 2 n) := by exact_mod_cast hk.symm
  rw [significand_eq, hcast]
  push_cast
  rw [mul_assoc, mul_assoc, ← zpow_natCast, ← zpow_add₀ two_ne_zero, ← zpow_add₀ two_ne_zero]
  congr 2
  omega

end

/-! ## Operations -/

namespace Format

variable (F : Format)

/-- Multiplication. -/
def mul : Number → Number → Number
  | .finite x, .finite y => F.nearest (x * y)
  | .finite x, .inf negative => if x = 0 then .nan else .inf (negative != decide (x < 0))
  | .inf negative, .finite y => if y = 0 then .nan else .inf (negative != decide (y < 0))
  | .inf negative, .inf negative' => .inf (negative != negative')
  | _, _ => .nan

/-- Division by a number that is not zero. -/
def quot (c : ℚ) : Number → Number
  | .finite x => F.nearest (x / c)
  | .inf negative => .inf (negative != decide (c < 0))
  | .nan => .nan

/-- Addition. -/
def add : Number → Number → Number
  | .finite x, .finite y => F.nearest (x + y)
  | .finite _, .inf negative => .inf negative
  | .inf negative, .finite _ => .inf negative
  | .inf negative, .inf negative' => if negative = negative' then .inf negative else .nan
  | _, _ => .nan

end Format

namespace Number

/-- `-n`. -/
def neg : Number → Number
  | finite x => finite (-x)
  | inf negative => inf !negative
  | nan => nan

/-- `n >= c`, which is false of a nan. -/
def AtLeast (c : ℚ) : Number → Prop
  | finite x => c ≤ x
  | inf negative => negative = false
  | nan => False

/-- `n < c`, which is false of a nan. -/
def Below (c : ℚ) : Number → Prop
  | finite x => x < c
  | inf negative => negative = true
  | nan => False

instance (c : ℚ) : DecidablePred (AtLeast c) := fun n => by
  cases n <;> simp only [AtLeast] <;> infer_instance

instance (c : ℚ) : DecidablePred (Below c) := fun n => by
  cases n <;> simp only [Below] <;> infer_instance

/-- The integer part, which only a finite number has. -/
def trunc : Number → Option ℤ
  | finite x => some (if 0 ≤ x then ⌊x⌋ else ⌈x⌉)
  | _ => none

end Number

/-! ## The bits of a double -/

/-- The exponent field. -/
def expField (w : BitVec 64) : ℕ := w.toNat / 2 ^ 52 % 2 ^ 11

/-- The fraction field. -/
def fracField (w : BitVec 64) : ℕ := w.toNat % 2 ^ 52

/-- The sign of what a word with that leading bit stands for. -/
def signOf (negative : Bool) : ℚ := if negative then -1 else 1

/-- **The number that 64 bits stand for.** -/
def ofBits (w : BitVec 64) : Number :=
  if expField w = 2047 then if fracField w = 0 then .inf w.msb else .nan
  else if expField w = 0 then .finite (signOf w.msb * (fracField w * 2 ^ (-1074 : ℤ)))
  else .finite (signOf w.msb * ((2 ^ 52 + fracField w) * 2 ^ (expField w - 1075 : ℤ)))

/-- **The fields of a word** that is put together from them. -/
theorem fields_of_toNat {w : BitVec 64} {negative : Bool} {e k : ℕ} (he : e < 2 ^ 11)
    (hk : k < 2 ^ 52) (h : w.toNat = (if negative then 2 ^ 63 else 0) + (e * 2 ^ 52 + k)) :
    w.msb = negative ∧ expField w = e ∧ fracField w = k := by
  rw [BitVec.msb_eq_decide, expField, fracField, h]
  cases negative with
  | false =>
      simp only [Bool.false_eq_true, if_false, decide_eq_false_iff_not]
      omega
  | true =>
      simp only [if_true, decide_eq_true_eq]
      omega

/-- Every word is put together from its fields. -/
theorem toNat_eq_fields (w : BitVec 64) :
    w.toNat = (if w.msb then 2 ^ 63 else 0) + (expField w * 2 ^ 52 + fracField w) := by
  have hlt := w.isLt
  rw [BitVec.msb_eq_decide, expField, fracField]
  split
  case isTrue hmsb =>
    rw [decide_eq_true_eq] at hmsb
    omega
  case isFalse hmsb =>
    rw [decide_eq_true_eq] at hmsb
    omega

theorem expField_lt (w : BitVec 64) : expField w < 2 ^ 11 := Nat.mod_lt _ (by norm_num)

theorem fracField_lt (w : BitVec 64) : fracField w < 2 ^ 52 := Nat.mod_lt _ (by norm_num)

/-- A number with a leading bit in front of its fraction. -/
theorem ofBits_normal {w : BitVec 64} (hlow : expField w ≠ 0) (hhigh : expField w ≠ 2047) :
    ofBits w = .finite (signOf w.msb * (significand 52 (fracField w) * 2 ^ (expField w - 1023 : ℤ))) := by
  have hsig : ((2 ^ 52 + fracField w : ℚ)) * 2 ^ (expField w - 1075 : ℤ) =
      significand 52 (fracField w) * 2 ^ (expField w - 1023 : ℤ) := by
    rw [significand_eq, mul_assoc, ← zpow_add₀ two_ne_zero]
    push_cast
    congr 2
    ring
  rw [ofBits, if_neg hhigh, if_neg hlow, hsig]

theorem abs_signOf (negative : Bool) : |signOf negative| = 1 := by
  cases negative <;> simp [signOf]

/-- **What is finite** is on the grid and in range. -/
theorem onGrid_of_ofBits {w : BitVec 64} {x : ℚ} (h : ofBits w = .finite x) :
    binary64.OnGrid x ∧ |x| < 2 ^ (1024 : ℤ) := by
  have hsign : ∀ y, binary64.OnGrid y → binary64.OnGrid (signOf w.msb * y) := by
    intro y hy
    cases w.msb with
    | false => simpa [signOf] using hy
    | true => simpa [signOf] using hy.neg
  have hfrac := fracField_lt w
  have hfracq : (fracField w : ℚ) < 2 ^ 52 := by exact_mod_cast hfrac
  by_cases hhigh : expField w = 2047
  · rw [ofBits, if_pos hhigh] at h
    split at h <;> cases h
  by_cases hlow : expField w = 0
  · rw [ofBits, if_neg hhigh, if_pos hlow] at h
    obtain rfl := Number.finite.inj h
    refine ⟨hsign _ ⟨fracField w, -1074, ?_, le_rfl, by rw [Int.cast_natCast]⟩, ?_⟩
    · rw [abs_of_nonneg (by positivity)]
      simp only [binary64]
      omega
    · rw [abs_mul, abs_signOf, one_mul,
        abs_of_nonneg (mul_nonneg (Nat.cast_nonneg _) (two_zpow_pos _).le)]
      calc (fracField w : ℚ) * 2 ^ (-1074 : ℤ) ≤ 2 ^ 52 * 2 ^ (-1074 : ℤ) :=
            mul_le_mul_of_nonneg_right hfracq.le (two_zpow_pos _).le
        _ = 2 ^ (-1022 : ℤ) := by rw [← zpow_natCast, ← zpow_add₀ two_ne_zero]; rfl
        _ < 2 ^ (1024 : ℤ) := zpow_lt_zpow_right₀ (by norm_num) (by norm_num)
  · rw [ofBits_normal hlow hhigh] at h
    obtain rfl := Number.finite.inj h
    have hexp := expField_lt w
    refine ⟨hsign _ (significand_onGrid rfl hfrac (by simp only [binary64]; omega)), ?_⟩
    obtain ⟨hone, htwo⟩ := significand_bounds hfrac
    rw [abs_mul, abs_signOf, one_mul, abs_of_pos (mul_pos (by linarith) (two_zpow_pos _))]
    calc significand 52 (fracField w) * 2 ^ (expField w - 1023 : ℤ)
        < 2 * 2 ^ (expField w - 1023 : ℤ) := mul_lt_mul_of_pos_right htwo (two_zpow_pos _)
      _ = 2 ^ (expField w - 1022 : ℤ) := by rw [mul_comm, ← zpow_add_one₀ two_ne_zero]; congr 1; ring
      _ ≤ 2 ^ (1024 : ℤ) := zpow_le_zpow_right₀ (by norm_num) (by omega)

/-! ## Back to bits -/

/-- The exponent of the leading bit, from that of the least normal number on. -/
def leading (x : ℚ) : ℤ := max (Int.log 2 |x|) (-1022)

/-- **The bits of a number**: of the two zeros the positive one, and of the nans a quiet
one. -/
def toBits : Number → BitVec 64
  | .finite x =>
    if x = 0 then 0
    else BitVec.ofNat 64 ((if x < 0 then 2 ^ 63 else 0) +
      ((leading x + 1022).toNat * 2 ^ 52 + ⌊|x| / 2 ^ (leading x - 52)⌋₊))
  | .inf negative => if negative then 0xfff0000000000000 else 0x7ff0000000000000
  | .nan => 0x7ff8000000000000

theorem signOf_mul_neg_iff (negative : Bool) {x : ℚ} (hx : 0 < x) :
    signOf negative * x < 0 ↔ negative = true := by
  cases negative with
  | false => simpa [signOf] using hx.le
  | true => simpa [signOf] using hx

/-- A magnitude of `m` places, the last of which is the `n`-th of the format. -/
theorem toBits_places (w : BitVec 64) {n m : ℕ} (hm : 0 < m)
    (hlead : leading (m * 2 ^ (n - 1074 : ℤ)) = n - 1022)
    (hw : w.toNat = (if w.msb then 2 ^ 63 else 0) + (n * 2 ^ 52 + m)) :
    toBits (.finite (signOf w.msb * (m * 2 ^ (n - 1074 : ℤ)))) = w := by
  have hpos : (0 : ℚ) < m * 2 ^ (n - 1074 : ℤ) := mul_pos (by exact_mod_cast hm) (two_zpow_pos _)
  have hne : signOf w.msb * (m * 2 ^ (n - 1074 : ℤ)) ≠ 0 := by
    refine mul_ne_zero ?_ hpos.ne'
    cases w.msb <;> norm_num [signOf]
  have habs : |signOf w.msb * (m * 2 ^ (n - 1074 : ℤ))| = m * 2 ^ (n - 1074 : ℤ) := by
    rw [abs_mul, abs_signOf, one_mul, abs_of_pos hpos]
  have hlead' : leading (signOf w.msb * (m * 2 ^ (n - 1074 : ℤ))) = n - 1022 := by
    rw [leading, abs_of_pos hpos] at hlead
    rw [leading, habs, hlead]
  have hlast : (n - 1022 - 52 : ℤ) = n - 1074 := by ring
  have hfloor : ⌊(m : ℚ) * 2 ^ (n - 1074 : ℤ) / 2 ^ (n - 1074 : ℤ)⌋₊ = m := by
    rw [mul_div_cancel_right₀ _ (two_zpow_pos _).ne', Nat.floor_natCast]
  have hexp : (n - 1022 + 1022 : ℤ).toNat = n := by omega
  simp only [toBits, if_neg hne, hlead', habs, hlast, hfloor, hexp, signOf_mul_neg_iff _ hpos]
  rw [← hw, BitVec.ofNat_toNat, BitVec.setWidth_eq]

/-- **The way there and back**, of every finite number but the negative zero. -/
theorem toBits_ofBits {w : BitVec 64} (hfinite : expField w ≠ 2047)
    (hzero : w ≠ 0x8000000000000000) : toBits (ofBits w) = w := by
  have hw := toNat_eq_fields w
  have hfrac := fracField_lt w
  have hfracq : (fracField w : ℚ) < 2 ^ 52 := by exact_mod_cast hfrac
  by_cases hlow : expField w = 0
  · rw [hlow, zero_mul] at hw
    rw [ofBits, if_neg hfinite, if_pos hlow]
    by_cases hnil : fracField w = 0
    · rw [hnil, add_zero, add_zero] at hw
      rw [hnil, Nat.cast_zero, zero_mul, mul_zero, toBits, if_pos rfl]
      cases hmsb : w.msb with
      | false =>
          rw [hmsb] at hw
          exact (BitVec.eq_of_toNat_eq hw).symm
      | true =>
          rw [hmsb] at hw
          exact absurd (BitVec.eq_of_toNat_eq hw) hzero
    · have hplaces := toBits_places w (n := 0) (m := fracField w) (by omega) ?_
        (by rw [zero_mul]; exact hw)
      · rw [Nat.cast_zero, zero_sub] at hplaces
        exact hplaces
      · -- below the least normal number
        have hpos : (0 : ℚ) < fracField w * 2 ^ (-1074 : ℤ) :=
          mul_pos (by exact_mod_cast Nat.pos_of_ne_zero hnil) (two_zpow_pos _)
        have hlt : (fracField w : ℚ) * 2 ^ (-1074 : ℤ) < 2 ^ (-1022 : ℤ) := by
          calc (fracField w : ℚ) * 2 ^ (-1074 : ℤ) < 2 ^ 52 * 2 ^ (-1074 : ℤ) :=
                mul_lt_mul_of_pos_right hfracq (two_zpow_pos _)
            _ = 2 ^ (-1022 : ℤ) := by rw [← zpow_natCast, ← zpow_add₀ two_ne_zero]; rfl
        have hlog : Int.log 2 ((fracField w : ℚ) * 2 ^ (-1074 : ℤ)) < -1022 :=
          (Int.lt_zpow_iff_log_lt (by norm_num) hpos).mp (by exact_mod_cast hlt)
        rw [Nat.cast_zero, zero_sub, zero_sub, leading, abs_of_pos hpos, max_eq_right hlog.le]
  · have hpred : expField w = (expField w - 1) + 1 := by omega
    have hplaces := toBits_places w (n := expField w - 1) (m := 2 ^ 52 + fracField w) (by positivity)
      ?_ ?_
    · have hlast : (expField w - 1 : ℕ) - 1074 = (expField w - 1075 : ℤ) := by omega
      rw [hlast] at hplaces
      rw [ofBits, if_neg hfinite, if_neg hlow]
      exact_mod_cast hplaces
    · have hsig : ((2 ^ 52 + fracField w : ℕ) : ℚ) * 2 ^ ((expField w - 1 : ℕ) - 1074 : ℤ) =
          significand 52 (fracField w) * 2 ^ (expField w - 1023 : ℤ) := by
        rw [significand_eq, mul_assoc, ← zpow_add₀ two_ne_zero]
        push_cast
        congr 2
        omega
      obtain ⟨hone, htwo⟩ := significand_bounds hfrac
      rw [hsig, leading, abs_of_pos (mul_pos (by linarith) (two_zpow_pos _)),
        log_of_between hone htwo, max_eq_left (by omega)]
      omega
    · rw [hw, hpred, Nat.add_one_mul, Nat.add_sub_cancel, add_assoc (_ * _)]

end Binary
