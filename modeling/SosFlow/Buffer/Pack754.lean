import SosFlow.Basic
import SosFlow.Lib.Binary
import SosFlow.Lib.Loop

/-!
# The double codec

`SOS_buffer_pack754` halves or doubles a number until it is between one and
two, counts the steps, and puts the sign, the biased count and what is
behind the leading bit into a word. `SOS_buffer_unpack754` goes the same way
back.
-/

namespace SosFlow

open Binary

/-! ## Packing -/

/-- `while(fnorm >= 2.0) { fnorm /= 2.0; shift++; }`, one turn. -/
def halvingTurn : Number × ℤ → Loop.Turn (Number × ℤ) (Number × ℤ)
  | (fnorm, shift) =>
    if fnorm.AtLeast 2 then .next (binary64.quot 2 fnorm, shift + 1) else .done (fnorm, shift)

/-- `while(fnorm < 1.0) { fnorm *= 2.0; shift--; }`, one turn. -/
def doublingTurn : Number × ℤ → Loop.Turn (Number × ℤ) (Number × ℤ)
  | (fnorm, shift) =>
    if fnorm.Below 1 then .next (binary64.mul fnorm (.finite 2), shift - 1)
    else .done (fnorm, shift)

/-- The two loops, in at most `turns` each. -/
def normalized (turns : ℕ) (fnorm : Number) : Option (Number × ℤ) :=
  (Loop.iterate halvingTurn turns (fnorm, 0)).bind (Loop.iterate doublingTurn turns)

/-- `(1LL<<significandbits) + 0.5f`, which is added as a `float`. -/
def significandFactor (significandbits : ℕ) : Number :=
  binary32.add (binary32.nearest (2 ^ significandbits)) (.finite (1 / 2))

/-- `-f` or `f`, whichever the loops start from. -/
def magnitude (f : Number) : Number := if f.Below 0 then f.neg else f

/-- **`SOS_buffer_pack754`**, with loops of at most `turns`. A number that is not finite has
no `long long`, and the conversion of it is undefined. -/
def sosBufferPack754 (turns : ℕ) (f : Number) (bits expbits : ℕ) : Option (BitVec 64) :=
  let significandbits := bits - expbits - 1
  if f = .finite 0 then some 0
  else do
    let sign : BitVec 64 := if f.Below 0 then 1 else 0
    let (fnorm, shift) ← normalized turns (magnitude f)
    let fnorm := binary64.add fnorm (.finite (-1))
    let significand ← (binary64.mul fnorm (significandFactor significandbits)).trunc
    let exp := shift + (2 ^ (expbits - 1) - 1)
    some (sign <<< (bits - 1) ||| BitVec.ofInt 64 exp <<< (bits - expbits - 1) |||
      BitVec.ofInt 64 significand)

/-! ## Unpacking -/

/-- **`SOS_buffer_unpack754`.** Its two loops count `shift` down and up to zero. -/
def sosBufferUnpack754 (i : BitVec 64) (bits expbits : ℕ) : Number :=
  let significandbits := bits - expbits - 1
  if i = 0 then .finite 0
  else
    let result := binary64.nearest ((i &&& (1#64 <<< significandbits - 1#64)).toNat : ℚ)
    let result := binary64.quot (2 ^ significandbits) result
    let result := binary64.add result (.finite 1)
    let bias := 1#64 <<< (expbits - 1) - 1#64
    let shift := ((i >>> significandbits &&& (1#64 <<< expbits - 1#64)) - bias).toInt
    let result := (fun r => binary64.mul r (.finite 2))^[shift.toNat] result
    let result := (binary64.quot 2)^[(-shift).toNat] result
    binary64.mul result (.finite (if i >>> (bits - 1) &&& 1#64 ≠ 0 then -1 else 1))

/-! ## The loops -/

/-- **What the loops keep**: a number above zero that is `x` but for the steps that were
counted. -/
def Scaled (x : ℚ) (st : Number × ℤ) : Prop :=
  ∃ y, st.1 = .finite y ∧ 0 < y ∧ binary64.OnGrid y ∧ y < 2 ^ (1024 : ℤ) ∧ x = y * 2 ^ st.2

/-- Halving a number from two on is exact. -/
theorem quot_two {y : ℚ} (h : binary64.OnGrid y) (hlow : 2 ≤ y) (hhigh : y < 2 ^ (1024 : ℤ)) :
    binary64.quot 2 (.finite y) = .finite (y / 2) ∧ binary64.OnGrid (y / 2) := by
  obtain ⟨k, hk, s, -, rfl⟩ := exists_significand (F := binary64) (p := 52) rfl (by linarith) h
  have hs : 1 ≤ s := by
    by_contra hs
    have hpow : (2 : ℚ) ^ s ≤ 1 := zpow_le_one_of_nonpos₀ (by norm_num) (by omega)
    have hlt := mul_lt_mul_of_pos_right (significand_bounds hk).2 (two_zpow_pos s)
    linarith
  have hhalf : significand 52 k * 2 ^ s / 2 = significand 52 k * 2 ^ (s - 1) := by
    rw [zpow_sub_one₀ two_ne_zero]
    ring
  have hgrid : binary64.OnGrid (significand 52 k * 2 ^ (s - 1)) :=
    significand_onGrid rfl hk (by simp only [binary64]; omega)
  rw [← hhalf] at hgrid
  refine ⟨Format.nearest_eq hgrid ?_, hgrid⟩
  rw [abs_of_pos (by linarith)]
  exact (half_lt_self (by linarith)).trans hhigh

/-- Two is in range. -/
theorem two_le_range : (2 : ℚ) ≤ 2 ^ (1024 : ℤ) := by
  have hle : (2 : ℚ) ^ (1 : ℤ) ≤ 2 ^ (1024 : ℤ) := zpow_le_zpow_right₀ (by norm_num) (by norm_num)
  rwa [zpow_one] at hle

/-- Doubling a number below one is exact. -/
theorem mul_two {y : ℚ} (h : binary64.OnGrid y) (hpos : 0 < y) (hhigh : y < 1) :
    binary64.mul (.finite y) (.finite 2) = .finite (y * 2) ∧ binary64.OnGrid (y * 2) := by
  obtain ⟨m, e, hm, he, hy⟩ := h
  have hgrid : binary64.OnGrid (y * 2) := by
    have hscale := Format.OnGrid.scale hm 1 (by omega : binary64.emin ≤ e + 1)
    rwa [← hy, zpow_one] at hscale
  refine ⟨Format.nearest_eq hgrid ?_, hgrid⟩
  rw [abs_of_pos (by linarith)]
  exact (by linarith : y * 2 < 2).trans_le two_le_range

/-- The whole part of a half. -/
theorem floor_half_lt {t : ℚ} (h : 1 ≤ t) : ⌊t / 2⌋₊ < ⌊t⌋₊ := by
  have hfloor : 1 ≤ ⌊t⌋₊ := Nat.le_floor (by exact_mod_cast h)
  rw [Nat.floor_div_ofNat]
  exact Nat.div_lt_self hfloor (by norm_num)

variable {x : ℚ}

/-- A turn of the first loop. -/
theorem Scaled.halving {st st' : Number × ℤ} (h : Scaled x st) (hnext : halvingTurn st = .next st') :
    Scaled x st' ∧ ∃ y, st.1 = .finite y ∧ 2 ≤ y ∧ st'.1 = .finite (y / 2) := by
  obtain ⟨fnorm, shift⟩ := st
  obtain ⟨y, rfl, hpos, hgrid, hlt, hx⟩ := h
  rw [halvingTurn] at hnext
  split at hnext
  case isTrue hlow =>
    obtain ⟨hquot, hgrid'⟩ := quot_two hgrid hlow hlt
    rw [hquot] at hnext
    obtain rfl := Loop.Turn.next.inj hnext
    refine ⟨⟨y / 2, rfl, half_pos hpos, hgrid', (half_lt_self hpos).trans hlt, ?_⟩, y, rfl, hlow, rfl⟩
    rw [hx, zpow_add_one₀ two_ne_zero]
    ring
  case isFalse => cases hnext

/-- A turn of the second loop. -/
theorem Scaled.doubling {st st' : Number × ℤ} (h : Scaled x st)
    (hnext : doublingTurn st = .next st') :
    Scaled x st' ∧ ∃ y, st.1 = .finite y ∧ 0 < y ∧ y < 1 ∧ st'.1 = .finite (y * 2) := by
  obtain ⟨fnorm, shift⟩ := st
  obtain ⟨y, rfl, hpos, hgrid, hlt, hx⟩ := h
  rw [doublingTurn] at hnext
  split at hnext
  case isTrue hhigh =>
    have hhigh : y < 1 := hhigh
    obtain ⟨hmul, hgrid'⟩ := mul_two hgrid hpos hhigh
    rw [hmul] at hnext
    obtain rfl := Loop.Turn.next.inj hnext
    have hrange : y * 2 < 2 ^ (1024 : ℤ) := (by linarith : y * 2 < 2).trans_le two_le_range
    refine ⟨⟨y * 2, rfl, by linarith, hgrid', hrange, ?_⟩, y, rfl, hpos, hhigh, rfl⟩
    rw [hx, zpow_sub_one₀ two_ne_zero]
    ring
  case isFalse => cases hnext

/-- The turns the loops need: the whole part of the number, and of its inverse. -/
def halvings : Number × ℤ → ℕ
  | (.finite y, _) => ⌊y⌋₊
  | _ => 0

/-- The same for the second loop. -/
def doublings : Number × ℤ → ℕ
  | (.finite y, _) => ⌊y⁻¹⌋₊
  | _ => 0

theorem halvings_eq {st : Number × ℤ} {y : ℚ} (h : st.1 = .finite y) : halvings st = ⌊y⌋₊ := by
  obtain ⟨fnorm, shift⟩ := st
  obtain rfl : fnorm = .finite y := h
  rfl

theorem doublings_eq {st : Number × ℤ} {y : ℚ} (h : st.1 = .finite y) :
    doublings st = ⌊y⁻¹⌋₊ := by
  obtain ⟨fnorm, shift⟩ := st
  obtain rfl : fnorm = .finite y := h
  rfl

/-- **The first loop ends** below two. -/
theorem Scaled.halved {st : Number × ℤ} (h : Scaled x st) :
    ∃ st', Loop.Returns halvingTurn st st' ∧ Scaled x st' ∧ st'.1.Below 2 := by
  obtain ⟨st', hret⟩ := Loop.terminates (Scaled x) halvings
    (fun s s' hs hnext => by
      obtain ⟨hs', y, hy, hlow, hy'⟩ := hs.halving hnext
      refine ⟨hs', ?_⟩
      rw [halvings_eq hy, halvings_eq hy']
      exact floor_half_lt (by linarith)) h
  refine ⟨st', hret, hret.of_invariant (Scaled x) (fun s => Scaled x s ∧ s.1.Below 2) h ?_
    fun s s' hs hnext => (hs.halving hnext).1⟩
  rintro ⟨fnorm, shift⟩ result hs hdone
  rw [halvingTurn] at hdone
  split at hdone
  case isTrue => cases hdone
  case isFalse hlow =>
    obtain rfl := Loop.Turn.done.inj hdone
    refine ⟨hs, ?_⟩
    obtain ⟨y, rfl, -⟩ := hs
    exact not_le.mp hlow

/-- **The second loop ends** between one and two. -/
theorem Scaled.doubled {st : Number × ℤ} (h : Scaled x st) (hbelow : st.1.Below 2) :
    ∃ st', Loop.Returns doublingTurn st st' ∧ Scaled x st' ∧ st'.1.Below 2 ∧ ¬ st'.1.Below 1 := by
  have hstep : ∀ s s', (Scaled x s ∧ s.1.Below 2) → doublingTurn s = .next s' →
      (Scaled x s' ∧ s'.1.Below 2) ∧ doublings s' < doublings s := by
    rintro s s' ⟨hs, -⟩ hnext
    obtain ⟨hs', y, hy, hpos, hhigh, hy'⟩ := hs.doubling hnext
    refine ⟨⟨hs', ?_⟩, ?_⟩
    · rw [hy']
      exact (by linarith : y * 2 < 2)
    · rw [doublings_eq hy, doublings_eq hy', mul_inv, ← div_eq_mul_inv]
      exact floor_half_lt ((one_le_inv₀ hpos).mpr hhigh.le)
  obtain ⟨st', hret⟩ := Loop.terminates (fun s => Scaled x s ∧ s.1.Below 2) doublings hstep ⟨h, hbelow⟩
  refine ⟨st', hret, hret.of_invariant (fun s => Scaled x s ∧ s.1.Below 2)
    (fun s => Scaled x s ∧ s.1.Below 2 ∧ ¬ s.1.Below 1) ⟨h, hbelow⟩ ?_
    fun s s' hs hnext => (hstep s s' hs hnext).1⟩
  rintro ⟨fnorm, shift⟩ result hs hdone
  rw [doublingTurn] at hdone
  split at hdone
  case isTrue => cases hdone
  case isFalse hhigh =>
    obtain rfl := Loop.Turn.done.inj hdone
    exact ⟨hs.1, hs.2, hhigh⟩

/-- Two loops with as many turns as either of them needs. -/
theorem normalized_of_returns {fnorm : Number} {st st' : Number × ℤ}
    (h : Loop.Returns halvingTurn (fnorm, 0) st) (h' : Loop.Returns doublingTurn st st') :
    ∃ turns, normalized turns fnorm = some st' := by
  obtain ⟨turns, hturns⟩ := h
  obtain ⟨turns', hturns'⟩ := h'
  refine ⟨max turns turns', ?_⟩
  rw [normalized, Loop.iterate_mono hturns (le_max_left _ _), Option.bind_some,
    Loop.iterate_mono hturns' (le_max_right _ _)]

theorem returns_of_normalized {turns : ℕ} {fnorm : Number} {st' : Number × ℤ}
    (h : normalized turns fnorm = some st') :
    ∃ st, Loop.Returns halvingTurn (fnorm, 0) st ∧ Loop.Returns doublingTurn st st' := by
  obtain ⟨st, hst, hst'⟩ := Option.bind_eq_some_iff.mp h
  exact ⟨st, ⟨turns, hst⟩, turns, hst'⟩

theorem normalized_unique {turns turns' : ℕ} {fnorm : Number} {st st' : Number × ℤ}
    (h : normalized turns fnorm = some st) (h' : normalized turns' fnorm = some st') : st = st' := by
  obtain ⟨first, hfirst, hst⟩ := returns_of_normalized h
  obtain ⟨first', hfirst', hst'⟩ := returns_of_normalized h'
  obtain rfl := hfirst.unique hfirst'
  exact hst.unique hst'

/-- **What the loops leave** of a number is its significand and its exponent. -/
theorem normalized_significand {k : ℕ} (hk : k < 2 ^ 52) {s : ℤ}
    (hgrid : binary64.OnGrid (significand 52 k * 2 ^ s))
    (hlt : significand 52 k * 2 ^ s < 2 ^ (1024 : ℤ)) :
    ∃ turns, normalized turns (.finite (significand 52 k * 2 ^ s)) =
      some (.finite (significand 52 k), s) := by
  obtain ⟨hlow, hhigh⟩ := significand_bounds hk
  have hstart : Scaled (significand 52 k * 2 ^ s) (.finite (significand 52 k * 2 ^ s), 0) :=
    ⟨_, rfl, mul_pos (by linarith) (two_zpow_pos s), hgrid, hlt, by rw [zpow_zero, mul_one]⟩
  obtain ⟨st, hret, hscaled, hbelow⟩ := hstart.halved
  obtain ⟨⟨fnorm, s'⟩, hret', ⟨y, hy, -, -, -, hx⟩, hbelow', habove'⟩ := hscaled.doubled hbelow
  obtain rfl : fnorm = .finite y := hy
  -- both are the significand and the exponent of one number
  have hlow' : 1 ≤ y := not_lt.mp habove'
  have hs : s = s' := by
    rw [← log_of_between hlow hhigh s, hx, log_of_between hlow' hbelow' s']
  subst hs
  obtain rfl := mul_right_cancel₀ (two_zpow_pos s).ne' hx
  exact normalized_of_returns hret hret'

/-! ## What the loops end on -/

/-- **The loops end**, or are not reached. -/
def LoopsEnd (f : Number) : Prop := f = .finite 0 ∨ ∃ turns, (normalized turns (magnitude f)).isSome

/-- **The double is an infinity.** -/
def IsInf (d : Double) : Prop := expField d = 2047 ∧ fracField d = 0

instance : DecidablePred IsInf := fun d => by
  unfold IsInf
  infer_instance

/-- Half of an infinity is the infinity, and the loop is where it was. -/
theorem halving_inf {st : Number × ℤ} (h : st.1 = .inf false) :
    ∃ st', halvingTurn st = .next st' ∧ st'.1 = .inf false := by
  obtain ⟨fnorm, shift⟩ := st
  obtain rfl : fnorm = .inf false := h
  have hsign : (false != decide ((2 : ℚ) < 0)) = false := by
    rw [decide_eq_false (by norm_num)]
    rfl
  have hlow : Number.AtLeast 2 (.inf false) := rfl
  refine ⟨(.inf false, shift + 1), ?_, rfl⟩
  rw [halvingTurn, if_pos hlow, Format.quot, hsign]

theorem magnitude_finite (x : ℚ) : magnitude (.finite x) = .finite |x| := by
  rw [magnitude]
  split
  case isTrue hneg =>
    have hneg : x < 0 := hneg
    rw [abs_of_neg hneg, Number.neg]
  case isFalse hpos =>
    have hpos : ¬ x < 0 := hpos
    rw [abs_of_nonneg (not_lt.mp hpos)]

theorem magnitude_inf (negative : Bool) : magnitude (.inf negative) = .inf false := by
  cases negative <;> rfl

/-- **On an infinity the first loop goes on for ever.** -/
theorem not_loopsEnd_inf (negative : Bool) : ¬ LoopsEnd (.inf negative) := by
  rintro (hzero | ⟨turns, hturns⟩)
  · cases hzero
  · rw [magnitude_inf] at hturns
    obtain ⟨st', hst'⟩ := Option.isSome_iff_exists.mp hturns
    obtain ⟨st, hret, -⟩ := returns_of_normalized hst'
    exact Loop.never_returns (fun st => st.1 = .inf false) (fun st => halving_inf) rfl hret

/-- A nan is neither at least two nor below one. -/
theorem loopsEnd_nan : LoopsEnd .nan := .inr ⟨1, rfl⟩

/-- **On a finite number both loops end.** -/
theorem loopsEnd_finite (hgrid : binary64.OnGrid x) (hrange : |x| < 2 ^ (1024 : ℤ)) :
    LoopsEnd (.finite x) := by
  by_cases hne : x = 0
  · exact .inl (congrArg _ hne)
  have habs := hgrid.abs
  obtain ⟨k, hk, s, -, hx⟩ := exists_significand (F := binary64) (p := 52) rfl (abs_pos.mpr hne) habs
  rw [hx] at habs hrange
  obtain ⟨turns, hturns⟩ := normalized_significand hk habs hrange
  refine .inr ⟨turns, ?_⟩
  rw [magnitude_finite, hx, hturns, Option.isSome_some]

/-- **The loops end on every double that is no infinity.** -/
theorem loopsEnd_iff (d : Double) : LoopsEnd (ofBits d) ↔ ¬ IsInf d := by
  by_cases hinf : IsInf d
  · have hd : ofBits d = .inf d.msb := by rw [ofBits, if_pos hinf.1, if_pos hinf.2]
    rw [hd]
    exact iff_of_false (not_loopsEnd_inf _) (not_not.mpr hinf)
  · refine iff_of_true ?_ hinf
    cases hd : ofBits d with
    | finite x =>
        obtain ⟨hgrid, hrange⟩ := onGrid_of_ofBits hd
        exact loopsEnd_finite hgrid hrange
    | inf negative =>
        refine absurd ?_ hinf
        rw [ofBits] at hd
        split at hd
        case isTrue hexp =>
          split at hd
          case isTrue hfrac => exact ⟨hexp, hfrac⟩
          case isFalse => cases hd
        case isFalse => split at hd <;> cases hd
    | nan => exact loopsEnd_nan

/-! ## The word -/

/-- `1LL<<52` and a half is `1LL<<52`, as a `float`. -/
theorem significandFactor_52 : significandFactor 52 = .finite (2 ^ 52) := by
  have hfirst : binary32.nearest (2 ^ 52) = .finite (2 ^ 52) := by
    refine Format.nearest_eq ⟨1, 52, by norm_num [binary32], by norm_num [binary32], by norm_num⟩ ?_
    norm_num [binary32]
  have hlog : Int.log 2 ((2 : ℚ) ^ 52 + 1 / 2) = 52 := by
    have hsum : (2 : ℚ) ^ 52 + 1 / 2 = (1 + 1 / 2 ^ 53) * 2 ^ (52 : ℤ) := by norm_num
    rw [hsum]
    exact log_of_between (by norm_num) (by norm_num) 52
  have hunit : binary32.unit ((2 : ℚ) ^ 52 + 1 / 2) = 29 := by
    rw [Format.unit, abs_of_pos (by positivity), hlog]
    rfl
  have hround : roundEven (((2 : ℚ) ^ 52 + 1 / 2) / 2 ^ (29 : ℤ)) = 2 ^ 23 := by
    have hfloor : ⌊((2 : ℚ) ^ 52 + 1 / 2) / 2 ^ (29 : ℤ)⌋ = 2 ^ 23 := by
      rw [Int.floor_eq_iff]
      norm_num
    rw [roundEven, Int.fract, hfloor, if_pos (by norm_num)]
  rw [significandFactor, hfirst, Format.add, Format.nearest, hunit, hround, if_pos]
  · norm_num
  · norm_num [binary32]

/-- Integers below two to the 52 are in range, and so are their parts. -/
theorem le_range {y : ℚ} (h : y < 2 ^ 52) : y < 2 ^ (1024 : ℤ) := by
  have hrange : (2 : ℚ) ^ 52 ≤ 2 ^ (1024 : ℤ) := by
    rw [← zpow_natCast]
    exact zpow_le_zpow_right₀ (by norm_num) (by norm_num)
  exact h.trans_le hrange

/-- The digits behind the leading bit, as an integer. -/
theorem nearest_digits {k : ℕ} (hk : k < 2 ^ 52) : binary64.nearest k = .finite k := by
  have hint : |(k : ℤ)| < 2 ^ 53 := by
    rw [abs_of_nonneg (by positivity)]
    omega
  refine Format.nearest_eq ⟨k, 0, hint, by norm_num [binary64], by simp⟩ ?_
  rw [abs_of_nonneg (Nat.cast_nonneg k)]
  exact le_range (by exact_mod_cast hk)

/-- The same digits, as a fraction. -/
theorem nearest_fraction {k : ℕ} (hk : k < 2 ^ 52) :
    binary64.nearest (k / 2 ^ 52) = .finite (k / 2 ^ 52) := by
  have hint : |(k : ℤ)| < 2 ^ 53 := by
    rw [abs_of_nonneg (by positivity)]
    omega
  refine Format.nearest_eq ⟨k, -52, hint, by norm_num [binary64], ?_⟩ ?_
  · rw [zpow_neg]
    norm_num [div_eq_mul_inv]
  · rw [abs_of_nonneg (div_nonneg (Nat.cast_nonneg k) (by norm_num))]
    have hle : (k : ℚ) / 2 ^ 52 ≤ k := div_le_self (Nat.cast_nonneg k) (by norm_num)
    exact le_range (hle.trans_lt (by exact_mod_cast hk))

/-- **The digits behind the leading bit**, as a `long long`. -/
theorem trunc_significand {k : ℕ} (hk : k < 2 ^ 52) :
    (binary64.mul (binary64.add (.finite (significand 52 k)) (.finite (-1)))
      (significandFactor 52)).trunc = some (k : ℤ) := by
  have hsub : significand 52 k + -1 = k / 2 ^ 52 := by
    rw [significand]
    ring
  rw [Format.add, hsub, nearest_fraction hk, significandFactor_52, Format.mul,
    div_mul_cancel₀ _ (by norm_num), nearest_digits hk, Number.trunc, if_pos (Nat.cast_nonneg k),
    Int.floor_natCast]

/-- The word of a sign, a biased exponent and the digits behind the leading bit. -/
def packedWord (negative : Bool) (exp : ℤ) (k : ℕ) : BitVec 64 :=
  (if negative then 1 else 0 : BitVec 64) <<< 63 ||| BitVec.ofInt 64 exp <<< 52 ||| BitVec.ofInt 64 k

/-- Two parts of a word that do not overlap. -/
theorem or_eq_add {a b n : ℕ} (h : b < 2 ^ n) : (a * 2 ^ n) ||| b = a * 2 ^ n + b := by
  rw [mul_comm, ← Nat.two_pow_add_eq_or_of_lt h]

theorem toNat_packedWord (negative : Bool) {exp : ℤ} {k : ℕ} (hk : k < 2 ^ 52)
    (hlow : -2048 ≤ exp) (hhigh : exp < 2048) :
    (packedWord negative exp k).toNat = (if negative = true ∨ exp < 0 then 2 ^ 63 else 0) +
      (exp % 2048).toNat * 2 ^ 52 + k := by
  have hexp : (BitVec.ofInt 64 exp <<< 52).toNat =
      ((if exp < 0 then 2048 else 0) + (exp % 2048).toNat) * 2 ^ 52 := by
    rw [BitVec.toNat_shiftLeft, BitVec.toNat_ofInt, Nat.shiftLeft_eq]
    split <;> omega
  have hsign : ((if negative then 1 else 0 : BitVec 64) <<< 63).toNat =
      (if negative then 1 else 0) * 2 ^ 63 := by
    cases negative <;> rfl
  have hdigits : (BitVec.ofInt 64 (k : ℤ)).toNat = k := by
    rw [BitVec.toNat_ofInt]
    omega
  have hrest : (exp % 2048).toNat * 2 ^ 52 + k < 2 ^ 63 := by omega
  -- the bits of the exponent in front of its field are in the place of the sign
  have hwide : ((if exp < 0 then 2048 else 0) + (exp % 2048).toNat) * 2 ^ 52 + k =
      ((if exp < 0 then 1 else 0) * 2 ^ 63) ||| ((exp % 2048).toNat * 2 ^ 52 + k) := by
    rw [or_eq_add hrest]
    split <;> omega
  have hbit : ((if negative then 1 else 0) * 2 ^ 63 ||| (if exp < 0 then 1 else 0) * 2 ^ 63) =
      (if negative = true ∨ exp < 0 then 1 else 0) * 2 ^ 63 := by
    cases negative <;> by_cases hexp : exp < 0 <;> simp [hexp]
  rw [packedWord, BitVec.toNat_or, BitVec.toNat_or, hexp, hsign, hdigits, Nat.or_assoc, or_eq_add hk,
    hwide, ← Nat.or_assoc, hbit, or_eq_add hrest, ite_mul, one_mul, zero_mul, add_assoc]

/-- **What is packed** of a finite number that is not zero. -/
theorem sosBufferPack754_finite {k : ℕ} (hk : k < 2 ^ 52) {s : ℤ} (hne : x ≠ 0)
    (hgrid : binary64.OnGrid x) (hrange : |x| < 2 ^ (1024 : ℤ))
    (hx : |x| = significand 52 k * 2 ^ s) :
    ∃ turns, sosBufferPack754 turns (.finite x) 64 11 =
      some (packedWord (decide (x < 0)) (s + 1023) k) := by
  have habs := hgrid.abs
  rw [hx] at habs hrange
  obtain ⟨turns, hturns⟩ := normalized_significand hk habs hrange
  have hzero : Number.finite x ≠ .finite 0 := fun h => hne (Number.finite.inj h)
  have hsign : (if Number.Below 0 (.finite x) then 1 else 0 : BitVec 64) =
      if decide (x < 0) = true then 1 else 0 := by
    simp only [Number.Below, decide_eq_true_eq]
  refine ⟨turns, ?_⟩
  rw [sosBufferPack754, if_neg hzero, magnitude_finite, hx, hturns]
  simp only [Option.bind_eq_bind, Option.bind_some, trunc_significand hk, hsign]
  rfl

/-- The word does not depend on how many turns the loops may take. -/
theorem sosBufferPack754_unique {turns turns' : ℕ} {f : Number} {bits expbits : ℕ}
    {w w' : BitVec 64} (h : sosBufferPack754 turns f bits expbits = some w)
    (h' : sosBufferPack754 turns' f bits expbits = some w') : w = w' := by
  rw [sosBufferPack754] at h h'
  by_cases hzero : f = .finite 0
  · rw [if_pos hzero] at h h'
    exact Option.some.inj (h.symm.trans h')
  · rw [if_neg hzero] at h h'
    obtain ⟨st, hst, h⟩ := Option.bind_eq_some_iff.mp h
    obtain ⟨st', hst', h'⟩ := Option.bind_eq_some_iff.mp h'
    obtain rfl := normalized_unique hst hst'
    exact Option.some.inj (h.symm.trans h')

/-! ## The way back -/

/-- The number of bits behind the sign and the exponent. -/
theorem toNat_fraction (i : BitVec 64) : (i &&& (1#64 <<< 52 - 1#64)).toNat = fracField i := by
  rw [BitVec.toNat_and, fracField]
  exact Nat.and_two_pow_sub_one_eq_mod _ 52

/-- The exponent without its bias. -/
theorem toInt_exponent (i : BitVec 64) :
    ((i >>> 52 &&& (1#64 <<< 11 - 1#64)) - (1#64 <<< 10 - 1#64)).toInt = expField i - 1023 := by
  have hfield : (i >>> 52 &&& (1#64 <<< 11 - 1#64)).toNat = expField i := by
    rw [BitVec.toNat_and, BitVec.toNat_ushiftRight, Nat.shiftRight_eq_div_pow, expField]
    exact Nat.and_two_pow_sub_one_eq_mod _ 11
  have hlt := expField_lt i
  have hbias : (1#64 <<< 10 - 1#64).toInt = 1023 := rfl
  have hbelow : 2 * (i >>> 52 &&& (1#64 <<< 11 - 1#64)).toNat < 2 ^ 64 := by
    rw [hfield]
    omega
  rw [BitVec.toInt_sub, BitVec.toInt_eq_toNat_of_lt hbelow, hfield, hbias]
  exact Int.bmod_eq_of_le (by omega) (by omega)

/-- The sign bit. -/
theorem sign_bit (i : BitVec 64) : i >>> 63 &&& 1#64 ≠ 0 ↔ i.msb = true := by
  have hbit : (i >>> 63 &&& 1#64).toNat = i.toNat / 2 ^ 63 % 2 := by
    rw [BitVec.toNat_and, BitVec.toNat_ushiftRight, Nat.shiftRight_eq_div_pow]
    exact Nat.and_one_is_mod _
  have hlt := i.isLt
  have hzero : (0 : BitVec 64).toNat = 0 := rfl
  rw [BitVec.msb_eq_decide, decide_eq_true_eq, ne_eq, ← BitVec.toNat_inj, hbit, hzero]
  omega

/-- **What is unpacked** of a word, by its fields. -/
theorem sosBufferUnpack754_eq {i : BitVec 64} (hi : i ≠ 0) :
    sosBufferUnpack754 i 64 11 = binary64.mul
      ((binary64.quot 2)^[1023 - expField i] ((fun r => binary64.mul r (.finite 2))^[expField i - 1023]
        (.finite (significand 52 (fracField i))))) (.finite (signOf i.msb)) := by
  have hk := fracField_lt i
  have hsum : (fracField i : ℚ) / 2 ^ 52 + 1 = significand 52 (fracField i) := add_comm _ _
  have hgrid := significand_onGrid (F := binary64) (s := 0) rfl hk (by simp [binary64])
  rw [zpow_zero, mul_one] at hgrid
  have hbounds := significand_bounds hk
  have hnearest : binary64.nearest (significand 52 (fracField i)) =
      .finite (significand 52 (fracField i)) := by
    refine Format.nearest_eq hgrid ?_
    rw [abs_of_pos (by linarith)]
    exact hbounds.2.trans_le two_le_range
  have hsign : (if i >>> 63 &&& 1#64 ≠ 0 then (-1 : ℚ) else 1) = signOf i.msb := by
    simp only [sign_bit, signOf]
  have hstart : binary64.add (binary64.quot (2 ^ 52) (binary64.nearest (fracField i))) (.finite 1) =
      .finite (significand 52 (fracField i)) := by
    rw [nearest_digits hk, Format.quot, nearest_fraction hk, Format.add, hsum, hnearest]
  have hup : (expField i - 1023 : ℤ).toNat = expField i - 1023 := by omega
  have hdown : (-(expField i - 1023 : ℤ)).toNat = 1023 - expField i := by omega
  rw [sosBufferUnpack754, if_neg hi]
  simp only [Nat.reduceSub, toNat_fraction, toInt_exponent, hstart, hup, hdown, hsign]

/-- A significand at an exponent that the format has. -/
theorem nearest_significand {k : ℕ} (hk : k < 2 ^ 52) {s : ℤ}
    (hgrid : binary64.OnGrid (significand 52 k * 2 ^ s)) (hs : s ≤ 1023) :
    binary64.nearest (significand 52 k * 2 ^ s) = .finite (significand 52 k * 2 ^ s) := by
  obtain ⟨hone, htwo⟩ := significand_bounds hk
  refine Format.nearest_eq hgrid ?_
  rw [abs_of_pos (mul_pos (by linarith) (two_zpow_pos s))]
  calc significand 52 k * 2 ^ s < 2 * 2 ^ s := mul_lt_mul_of_pos_right htwo (two_zpow_pos s)
    _ = 2 ^ (s + 1) := by rw [mul_comm, ← zpow_add_one₀ two_ne_zero]
    _ ≤ 2 ^ (1024 : ℤ) := zpow_le_zpow_right₀ (by norm_num) (by omega)

/-- **Doubling again and again** is exact, up to the largest exponent. -/
theorem doubled_iterate {k j : ℕ} (hk : k < 2 ^ 52) (hj : j ≤ 1023) :
    (fun r => binary64.mul r (.finite 2))^[j] (.finite (significand 52 k)) =
      .finite (significand 52 k * 2 ^ (j : ℤ)) := by
  induction j with
  | zero => simp
  | succ j ih =>
      have hgrid : binary64.OnGrid (significand 52 k * 2 ^ ((j + 1 : ℕ) : ℤ)) :=
        significand_onGrid rfl hk (by simp only [binary64]; omega)
      rw [Function.iterate_succ_apply', ih (by omega), Format.mul, mul_assoc,
        ← zpow_add_one₀ two_ne_zero, ← Nat.cast_succ]
      exact nearest_significand hk hgrid (by omega)

/-- One step more is out of range. -/
theorem doubled_overflow {k : ℕ} (hk : k < 2 ^ 52) :
    (fun r => binary64.mul r (.finite 2))^[1024] (.finite (significand 52 k)) = .inf false := by
  have hbounds := significand_bounds hk
  have hgrid : binary64.OnGrid (significand 52 k * 2 ^ (1024 : ℤ)) :=
    significand_onGrid rfl hk (by norm_num [binary64])
  have hpos : 0 < significand 52 k * 2 ^ (1024 : ℤ) :=
    mul_pos (by linarith) (two_zpow_pos _)
  have hover : ¬ |significand 52 k * 2 ^ (1024 : ℤ)| < 2 ^ binary64.emax := by
    rw [abs_of_pos hpos, not_lt]
    exact le_mul_of_one_le_left (two_zpow_pos _).le hbounds.1
  have hlast : ((1023 : ℕ) : ℤ) + 1 = 1024 := rfl
  rw [Function.iterate_succ_apply', doubled_iterate hk le_rfl, Format.mul, mul_assoc,
    ← zpow_add_one₀ two_ne_zero, hlast, Format.nearest_of_onGrid hgrid, if_neg hover,
    decide_eq_false (not_lt.mpr hpos.le)]

/-- **Halving again and again** is exact, as long as it ends on the grid. -/
theorem halved_iterate {k j : ℕ} (hk : k < 2 ^ 52) (hj : j ≤ 1023)
    (hgrid : binary64.OnGrid (significand 52 k * 2 ^ (-j : ℤ))) :
    (binary64.quot 2)^[j] (.finite (significand 52 k)) =
      .finite (significand 52 k * 2 ^ (-j : ℤ)) := by
  induction j with
  | zero => simp
  | succ j ih =>
      have hbefore : binary64.OnGrid (significand 52 k * 2 ^ (-j : ℤ)) :=
        significand_onGrid rfl hk (by simp only [binary64]; omega)
      have hstep : (-j : ℤ) - 1 = -((j + 1 : ℕ) : ℤ) := by omega
      rw [Function.iterate_succ_apply', ih (by omega) hbefore, Format.quot, mul_div_assoc,
        div_eq_mul_inv, ← zpow_sub_one₀ two_ne_zero, hstep]
      exact nearest_significand hk hgrid (by omega)

/-- The sign is put in front exactly. -/
theorem mul_signOf {k : ℕ} (hk : k < 2 ^ 52) {s : ℤ}
    (hgrid : binary64.OnGrid (significand 52 k * 2 ^ s)) (hs : s ≤ 1023) (negative : Bool) :
    binary64.mul (.finite (significand 52 k * 2 ^ s)) (.finite (signOf negative)) =
      .finite (signOf negative * (significand 52 k * 2 ^ s)) := by
  have hnearest := nearest_significand hk hgrid hs
  rw [Format.mul, mul_comm]
  cases negative with
  | false => simpa [signOf] using hnearest
  | true =>
      have hbounds := significand_bounds hk
      have hpos : 0 < significand 52 k * 2 ^ s := mul_pos (by linarith) (two_zpow_pos s)
      simp only [signOf, if_true, neg_mul, one_mul]
      refine Format.nearest_eq hgrid.neg ?_
      rw [Format.nearest_of_onGrid hgrid] at hnearest
      split at hnearest
      case isTrue hlt => rwa [abs_neg]
      case isFalse => cases hnearest

/-- **A word of a normal number** is read as the number whose bits it is. -/
theorem sosBufferUnpack754_normal {i : BitVec 64} (hlow : expField i ≠ 0)
    (hhigh : expField i ≠ 2047) : sosBufferUnpack754 i 64 11 = ofBits i := by
  have hk := fracField_lt i
  have hexp := expField_lt i
  have hgrid : binary64.OnGrid (significand 52 (fracField i) * 2 ^ (expField i - 1023 : ℤ)) :=
    significand_onGrid rfl hk (by simp only [binary64]; omega)
  have hi : i ≠ 0 := by
    rintro rfl
    exact hlow rfl
  have hloops : (binary64.quot 2)^[1023 - expField i]
      ((fun r => binary64.mul r (.finite 2))^[expField i - 1023]
        (.finite (significand 52 (fracField i)))) =
      .finite (significand 52 (fracField i) * 2 ^ (expField i - 1023 : ℤ)) := by
    by_cases hle : 1023 ≤ expField i
    · have hup : (expField i - 1023 : ℤ) = (expField i - 1023 : ℕ) := by omega
      rw [doubled_iterate hk (by omega), Nat.sub_eq_zero_of_le hle, hup, Function.iterate_zero_apply]
    · have hdown : (expField i - 1023 : ℤ) = -((1023 - expField i : ℕ) : ℤ) := by omega
      rw [Nat.sub_eq_zero_of_le (by omega : expField i ≤ 1023), Function.iterate_zero_apply]
      rw [hdown] at hgrid ⊢
      exact halved_iterate hk (by omega) hgrid
  rw [sosBufferUnpack754_eq hi, hloops, mul_signOf hk hgrid (by omega), ofBits_normal hlow hhigh]

/-- A word without an exponent is read as if it had a leading bit. -/
theorem sosBufferUnpack754_zero {i : BitVec 64} (hi : i ≠ 0) (hexp : expField i = 0)
    (hgrid : binary64.OnGrid (significand 52 (fracField i) * 2 ^ (-1023 : ℤ))) :
    sosBufferUnpack754 i 64 11 =
      .finite (signOf i.msb * (significand 52 (fracField i) * 2 ^ (-1023 : ℤ))) := by
  have hk := fracField_lt i
  have hcast : (-1023 : ℤ) = -((1023 : ℕ) : ℤ) := rfl
  have hloop := halved_iterate hk le_rfl (hcast ▸ hgrid)
  rw [sosBufferUnpack754_eq hi, hexp, Function.iterate_zero_apply, Nat.sub_zero, hloop,
    ← hcast, mul_signOf hk hgrid (by norm_num)]

/-- A word of the largest exponent is read as an infinity. -/
theorem sosBufferUnpack754_top {i : BitVec 64} (hexp : expField i = 2047) :
    ∃ negative, sosBufferUnpack754 i 64 11 = .inf negative := by
  have hi : i ≠ 0 := by
    rintro rfl
    exact absurd hexp (by decide)
  have hsign : signOf i.msb ≠ 0 := by
    cases i.msb <;> norm_num [signOf]
  rw [sosBufferUnpack754_eq hi, hexp, Nat.sub_eq_zero_of_le (by norm_num : 1023 ≤ 2047),
    Function.iterate_zero_apply, doubled_overflow (fracField_lt i), Format.mul, if_neg hsign]
  exact ⟨_, rfl⟩

/-! ## There and back -/

/-- **A number is packed and unpacked exactly.** -/
def CodedExactly (f : Number) : Prop :=
  ∃ turns w, sosBufferPack754 turns f 64 11 = some w ∧ sosBufferUnpack754 w 64 11 = f

/-- Zero is. -/
theorem codedExactly_zero : CodedExactly (.finite 0) := by
  refine ⟨0, 0, ?_, ?_⟩
  · rw [sosBufferPack754, if_pos rfl]
  · rw [sosBufferUnpack754, if_pos rfl]

/-- **The fields of a packed word.** Below the range of the exponent the sign bit is set
and the field has wrapped. -/
theorem fields_packedWord (negative : Bool) {exp : ℤ} {k : ℕ} (hk : k < 2 ^ 52)
    (hlow : -2048 ≤ exp) (hhigh : exp < 2048) :
    (packedWord negative exp k).msb = (negative || decide (exp < 0)) ∧
      expField (packedWord negative exp k) = (exp % 2048).toNat ∧
      fracField (packedWord negative exp k) = k := by
  refine fields_of_toNat (by omega) hk ?_
  rw [toNat_packedWord negative hk hlow hhigh, add_assoc]
  simp only [Bool.or_eq_true, decide_eq_true_eq]

/-- The exponent of a double. -/
theorem exponent_bounds {k : ℕ} (hk : k < 2 ^ 52) {s : ℤ} (hs : binary64.emin ≤ s)
    (hlt : significand 52 k * 2 ^ s < 2 ^ (1024 : ℤ)) : -1074 ≤ s ∧ s ≤ 1023 := by
  refine ⟨hs, ?_⟩
  by_contra hgt
  have hpow : (2 : ℚ) ^ (1024 : ℤ) ≤ 2 ^ s := zpow_le_zpow_right₀ (by norm_num) (by omega)
  have hle := le_mul_of_one_le_left (two_zpow_pos s).le (significand_bounds hk).1
  linarith

/-- The exponent tells how large the number is. -/
theorem pow_le_significand_iff {k : ℕ} (hk : k < 2 ^ 52) (s e : ℤ) :
    2 ^ e ≤ significand 52 k * 2 ^ s ↔ e ≤ s := by
  obtain ⟨hone, htwo⟩ := significand_bounds hk
  have hpos : 0 < significand 52 k * 2 ^ s := mul_pos (by linarith) (two_zpow_pos s)
  have hlog := Int.zpow_le_iff_le_log (b := 2) (x := e) (by norm_num) hpos
  rw [log_of_between hone htwo s] at hlog
  exact_mod_cast hlog

/-- The words of the normal numbers. -/
theorem unpack_packedWord (negative : Bool) {k : ℕ} (hk : k < 2 ^ 52) {s : ℤ} (hlow : -1022 ≤ s)
    (hhigh : s ≤ 1023) : sosBufferUnpack754 (packedWord negative (s + 1023) k) 64 11 =
      .finite (signOf negative * (significand 52 k * 2 ^ s)) := by
  obtain ⟨hmsb, hexp, hfrac⟩ := fields_packedWord negative hk (by omega : -2048 ≤ s + 1023) (by omega)
  have hsign : (negative || decide (s + 1023 < 0)) = negative := by
    rw [decide_eq_false (by omega), Bool.or_false]
  have hcast : (((s + 1023) % 2048).toNat : ℤ) - 1023 = s := by omega
  rw [sosBufferUnpack754_normal (by omega) (by omega), ofBits_normal (by omega) (by omega), hmsb,
    hsign, hfrac, hexp, hcast]

/-- The words of the numbers just below them: all but one are read back. -/
theorem unpack_packedWord_half (negative : Bool) {k : ℕ} (hk : k < 2 ^ 52)
    (hgrid : binary64.OnGrid (significand 52 k * 2 ^ (-1023 : ℤ))) :
    sosBufferUnpack754 (packedWord negative (-1023 + 1023) k) 64 11 =
      if negative = false ∧ k = 0 then .finite 0
      else .finite (signOf negative * (significand 52 k * 2 ^ (-1023 : ℤ))) := by
  obtain ⟨hmsb, hexp, hfrac⟩ := fields_packedWord negative hk (by omega : -2048 ≤ (-1023 + 1023 : ℤ))
    (by omega)
  split
  case isTrue hzero =>
    obtain ⟨rfl, rfl⟩ := hzero
    rfl
  case isFalse hne =>
    have hword : packedWord negative (-1023 + 1023) k ≠ 0 := by
      intro hword
      rw [hword] at hmsb hfrac
      refine hne ⟨?_, hfrac.symm⟩
      cases negative with
      | false => rfl
      | true => exact absurd hmsb (by decide)
    have hsign : (negative || decide ((-1023 + 1023 : ℤ) < 0)) = negative := by
      rw [decide_eq_false (by omega), Bool.or_false]
    rw [sosBufferUnpack754_zero hword (by rw [hexp]; rfl) (by rwa [hfrac]), hmsb, hsign, hfrac]

/-- **The words of smaller numbers** are read as large ones, since the exponent has run
into the sign. -/
theorem unpack_packedWord_small (negative : Bool) {k : ℕ} (hk : k < 2 ^ 52) {s : ℤ}
    (hlow : -1074 ≤ s) (hhigh : s < -1023) {y : ℚ}
    (h : sosBufferUnpack754 (packedWord negative (s + 1023) k) 64 11 = .finite y) : 1 ≤ |y| := by
  obtain ⟨-, hexp, hfrac⟩ := fields_packedWord negative hk (by omega : -2048 ≤ s + 1023) (by omega)
  have hwrapped : ((s + 1023) % 2048).toNat = (s + 3071).toNat := by omega
  by_cases htop : expField (packedWord negative (s + 1023) k) = 2047
  · obtain ⟨sign, hinf⟩ := sosBufferUnpack754_top htop
    rw [hinf] at h
    cases h
  · have hlow : expField (packedWord negative (s + 1023) k) ≠ 0 := by omega
    rw [sosBufferUnpack754_normal hlow htop, ofBits_normal hlow htop, hfrac] at h
    obtain rfl := Number.finite.inj h
    obtain ⟨hone, -⟩ := significand_bounds hk
    rw [abs_mul, abs_signOf, one_mul, abs_of_pos (mul_pos (by linarith) (two_zpow_pos _)),
      ← zpow_zero (2 : ℚ), pow_le_significand_iff hk]
    omega

/-- A number by its sign and its size. -/
theorem signOf_mul_abs (x : ℚ) : signOf (decide (x < 0)) * |x| = x := by
  by_cases h : x < 0
  · rw [decide_eq_true h, abs_of_neg h, signOf, if_pos rfl, neg_mul_neg, one_mul]
  · rw [decide_eq_false h, abs_of_nonneg (not_lt.mp h), signOf, if_neg Bool.false_ne_true, one_mul]

/-- What is packed is one word, so that the number is coded exactly if that word is read
back as it. -/
theorem codedExactly_iff_unpack {f : Number} {turns : ℕ} {w : BitVec 64}
    (h : sosBufferPack754 turns f 64 11 = some w) :
    CodedExactly f ↔ sosBufferUnpack754 w 64 11 = f := by
  constructor
  · rintro ⟨turns', w', hpack, hunpack⟩
    rwa [sosBufferPack754_unique h hpack]
  · exact fun hunpack => ⟨turns, w, h, hunpack⟩

/-- Half of the least normal number. -/
theorem significand_half_iff {k : ℕ} (hk : k < 2 ^ 52) {s : ℤ} :
    significand 52 k * 2 ^ s = 2 ^ (-1023 : ℤ) ↔ s = -1023 ∧ k = 0 := by
  constructor
  · intro h
    have hle := (pow_le_significand_iff hk s (-1023)).mp h.ge
    have hnot : ¬ -1022 ≤ s := by
      rw [← pow_le_significand_iff hk s (-1022), h, not_le]
      exact zpow_lt_zpow_right₀ (by norm_num) (by norm_num)
    obtain rfl : s = -1023 := by omega
    have hone : significand 52 k = 1 := mul_right_cancel₀ (two_zpow_pos (-1023)).ne' (by rw [h, one_mul])
    refine ⟨rfl, ?_⟩
    rw [significand, add_eq_left, div_eq_zero_iff] at hone
    exact_mod_cast hone.resolve_right (by norm_num)
  · rintro ⟨rfl, rfl⟩
    rw [significand, Nat.cast_zero, zero_div, add_zero, one_mul]

/-- **Which doubles are coded exactly**: zero, and those from half the least normal
number on, with the exception of that half itself. -/
theorem codedExactly_iff {d : Double} {x : ℚ} (hd : ofBits d = .finite x) :
    CodedExactly (ofBits d) ↔
      x = 0 ∨ (2 ^ (-1023 : ℤ) ≤ |x| ∧ x ≠ 2 ^ (-1023 : ℤ)) := by
  rw [hd]
  by_cases hne : x = 0
  · subst hne
    exact iff_of_true codedExactly_zero (.inl rfl)
  obtain ⟨hgrid, hrange⟩ := onGrid_of_ofBits hd
  have habs := hgrid.abs
  obtain ⟨k, hk, s, hs, hx⟩ := exists_significand (F := binary64) (p := 52) rfl (abs_pos.mpr hne) habs
  obtain ⟨hslow, hshigh⟩ := exponent_bounds hk hs (hx ▸ hrange)
  obtain ⟨turns, hpack⟩ := sosBufferPack754_finite hk hne hgrid hrange hx
  have hsigned : signOf (decide (x < 0)) * (significand 52 k * 2 ^ s) = x := by
    rw [← hx, signOf_mul_abs]
  have hhalf : x = 2 ^ (-1023 : ℤ) ↔ ¬ x < 0 ∧ s = -1023 ∧ k = 0 := by
    rw [← significand_half_iff hk, ← hx]
    constructor
    · intro h
      have hpos : 0 < x := h ▸ two_zpow_pos _
      exact ⟨hpos.le.not_gt, by rw [abs_of_pos hpos, h]⟩
    · rintro ⟨hnonneg, h⟩
      rwa [abs_of_nonneg (not_lt.mp hnonneg)] at h
  rw [codedExactly_iff_unpack hpack, or_iff_right hne, hx, pow_le_significand_iff hk, ne_eq, hhalf]
  rcases lt_trichotomy s (-1023) with hsmall | rfl | hnormal
  · -- read as a number that is not below one
    refine iff_of_false (fun h => ?_) (by omega)
    have hone := unpack_packedWord_small _ hk hslow hsmall h
    rw [← zpow_zero (2 : ℚ), hx, pow_le_significand_iff hk] at hone
    omega
  · rw [hx] at habs
    rw [unpack_packedWord_half _ hk habs, hsigned]
    by_cases hzero : decide (x < 0) = false ∧ k = 0
    · rw [if_pos hzero]
      refine iff_of_false (fun h => hne (Number.finite.inj h).symm) ?_
      rintro ⟨-, hnot⟩
      exact hnot ⟨of_decide_eq_false hzero.1, rfl, hzero.2⟩
    · rw [if_neg hzero]
      refine iff_of_true rfl ⟨le_rfl, ?_⟩
      rintro ⟨hnonneg, -, hk0⟩
      exact hzero ⟨decide_eq_false hnonneg, hk0⟩
  · rw [unpack_packedWord _ hk (by omega) hshigh, hsigned]
    exact iff_of_true rfl (by omega)

/-- Five, which is halved twice, and minus three eighths, which is doubled twice, come back. -/
theorem codedExactly_iff_five :
    (ofBits 0x4014000000000000 = .finite 5 ∧ CodedExactly (ofBits 0x4014000000000000)) ∧
      ofBits 0xbfd8000000000000 = .finite (-3 / 8) ∧ CodedExactly (ofBits 0xbfd8000000000000) := by
  have hfive : ofBits 0x4014000000000000 = .finite 5 := by
    have hexp : expField 0x4014000000000000 = 1025 := rfl
    have hfrac : fracField 0x4014000000000000 = 2 ^ 50 := rfl
    have hmsb : (0x4014000000000000 : BitVec 64).msb = false := rfl
    rw [ofBits_normal (by omega) (by omega), hexp, hfrac, hmsb]
    norm_num [significand, signOf]
  have heighths : ofBits 0xbfd8000000000000 = .finite (-3 / 8) := by
    have hexp : expField 0xbfd8000000000000 = 1021 := rfl
    have hfrac : fracField 0xbfd8000000000000 = 2 ^ 51 := rfl
    have hmsb : (0xbfd8000000000000 : BitVec 64).msb = true := rfl
    rw [ofBits_normal (by omega) (by omega), hexp, hfrac, hmsb]
    norm_num [significand, signOf]
  -- no number from one eighth on is near the least normal one
  have hleast : (2 : ℚ) ^ (-1023 : ℤ) ≤ 1 / 8 := by
    calc (2 : ℚ) ^ (-1023 : ℤ) ≤ 2 ^ (-3 : ℤ) := zpow_le_zpow_right₀ (by norm_num) (by norm_num)
      _ = 1 / 8 := by norm_num
  refine ⟨⟨hfive, (codedExactly_iff hfive).mpr (.inr ⟨?_, ?_⟩)⟩,
    heighths, (codedExactly_iff heighths).mpr (.inr ⟨?_, ?_⟩)⟩
  · rw [abs_of_pos (by norm_num)]
    linarith
  · linarith
  · rw [abs_of_neg (by norm_num)]
    linarith
  · have hpos := two_zpow_pos (-1023)
    linarith

/-- **The least number above zero** is read back as one below minus one. -/
theorem not_codedExactly_least :
    ofBits 1 = .finite (2 ^ (-1074 : ℤ)) ∧ ¬ CodedExactly (ofBits 1) := by
  have hleast : ofBits 1 = .finite (2 ^ (-1074 : ℤ)) := by
    have hexp : expField 1 = 0 := rfl
    have hfrac : fracField 1 = 1 := rfl
    have hmsb : (1 : BitVec 64).msb = false := rfl
    rw [ofBits, hexp, hfrac, hmsb]
    norm_num [signOf]
  refine ⟨hleast, ?_⟩
  obtain ⟨hgrid, hrange⟩ := onGrid_of_ofBits hleast
  have hx : |(2 : ℚ) ^ (-1074 : ℤ)| = significand 52 0 * 2 ^ (-1074 : ℤ) := by
    rw [abs_of_pos (two_zpow_pos _), significand, Nat.cast_zero, zero_div, add_zero, one_mul]
  obtain ⟨turns, hpack⟩ := sosBufferPack754_finite (by norm_num) (two_zpow_pos _).ne' hgrid hrange hx
  rw [hleast, codedExactly_iff_unpack hpack]
  intro hunpack
  have hone := unpack_packedWord_small _ (by norm_num) (by norm_num) (by norm_num) hunpack
  rw [← zpow_zero (2 : ℚ), hx, pow_le_significand_iff (by norm_num)] at hone
  exact absurd hone (by norm_num)

/-- **On a normal number the codec is its bits.** -/
theorem sosBufferPack754_normal {d : Double} (hlow : expField d ≠ 0) (hhigh : expField d ≠ 2047) :
    (∃ turns, sosBufferPack754 turns (ofBits d) 64 11 = some d) ∧
      sosBufferUnpack754 d 64 11 = ofBits d := by
  refine ⟨?_, sosBufferUnpack754_normal hlow hhigh⟩
  have hk := fracField_lt d
  have hexp := expField_lt d
  have hd := ofBits_normal hlow hhigh
  have hpos : 0 < significand 52 (fracField d) * 2 ^ (expField d - 1023 : ℤ) :=
    mul_pos (by linarith [(significand_bounds hk).1]) (two_zpow_pos _)
  have hsign : signOf d.msb ≠ 0 := by
    cases d.msb <;> norm_num [signOf]
  obtain ⟨hgrid, hrange⟩ := onGrid_of_ofBits hd
  obtain ⟨turns, hpack⟩ := sosBufferPack754_finite hk (mul_ne_zero hsign hpos.ne') hgrid hrange
    (by rw [abs_mul, abs_signOf, one_mul, abs_of_pos hpos])
  have hneg : decide (signOf d.msb * (significand 52 (fracField d) * 2 ^ (expField d - 1023 : ℤ)) < 0) =
      d.msb := by
    cases d.msb with
    | false => exact decide_eq_false (by simpa [signOf] using hpos.le)
    | true => exact decide_eq_true (by simpa [signOf] using hpos)
  have hcast : (expField d - 1023 + 1023 : ℤ) = expField d := by ring
  have hword : packedWord d.msb (expField d) (fracField d) = d := by
    have hmod : ((expField d : ℤ) % 2048).toNat = expField d := by omega
    rw [← BitVec.toNat_inj, toNat_packedWord _ hk (by omega) (by omega), hmod, toNat_eq_fields d,
      add_assoc]
    simp only [Int.not_ofNat_neg, or_false]
  rw [hneg, hcast, hword] at hpack
  exact ⟨turns, by rw [hd, hpack]⟩

end SosFlow
