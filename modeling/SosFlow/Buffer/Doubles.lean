import SosFlow.Buffer.Pack754

/-!
# What becomes of a double

`SOS_buffer_pack` converts every double by `SOS_buffer_pack754_64`, and
`SOS_buffer_unpack` converts it back. `DoubleCodec.sos` is that pair of
functions, from bits to bits.

A double comes back as it was if it is a normal number, a subnormal one in the
upper half of their range, or the positive zero (`kept_iff`). A nan, the
negative zero and the smaller subnormals come back as something else, and an
infinity is never packed at all (`loopsEnd_iff`).
-/

namespace SosFlow

open Binary

/-! ## The turns of the loops -/

variable {k : ℕ} {s shift : ℤ}

/-- The first loop halves `n` times. -/
theorem iterate_halving (hk : k < 2 ^ 52) (n : ℕ) (hn : n ≤ 1023) (shift : ℤ) :
    Loop.iterate halvingTurn (n + 1) (.finite (significand 52 k * 2 ^ (n : ℤ)), shift) =
      some (.finite (significand 52 k), shift + n) := by
  obtain ⟨hone, htwo⟩ := significand_bounds hk
  induction n generalizing shift with
  | zero =>
      have hbelow : ¬ Number.AtLeast 2 (.finite (significand 52 k)) := not_le.mpr htwo
      rw [Nat.cast_zero, zpow_zero, mul_one, add_zero]
      exact Loop.iterate_done (by rw [halvingTurn, if_neg hbelow]) 0
  | succ n ih =>
      have hhalf : significand 52 k * 2 ^ ((n + 1 : ℕ) : ℤ) / 2 = significand 52 k * 2 ^ (n : ℤ) := by
        rw [Nat.cast_add, Nat.cast_one, zpow_add_one₀ two_ne_zero]
        ring
      have hlow : 2 ≤ significand 52 k * 2 ^ ((n + 1 : ℕ) : ℤ) := by
        have hpow : (2 : ℚ) ^ (1 : ℤ) ≤ 2 ^ ((n + 1 : ℕ) : ℤ) :=
          zpow_le_zpow_right₀ (by norm_num) (by omega)
        rw [zpow_one] at hpow
        exact hpow.trans (le_mul_of_one_le_left (two_zpow_pos _).le hone)
      have hhigh : significand 52 k * 2 ^ ((n + 1 : ℕ) : ℤ) < 2 ^ (1024 : ℤ) := by
        calc significand 52 k * 2 ^ ((n + 1 : ℕ) : ℤ) < 2 * 2 ^ ((n + 1 : ℕ) : ℤ) :=
              mul_lt_mul_of_pos_right htwo (two_zpow_pos _)
          _ = 2 ^ ((n + 2 : ℕ) : ℤ) := by rw [mul_comm, ← zpow_add_one₀ two_ne_zero]; rfl
          _ ≤ 2 ^ (1024 : ℤ) := zpow_le_zpow_right₀ (by norm_num) (by omega)
      have hgrid := significand_onGrid (F := binary64) rfl hk (s := ((n + 1 : ℕ) : ℤ))
        (by simp only [binary64]; omega)
      have hturn : Number.AtLeast 2 (.finite (significand 52 k * 2 ^ ((n + 1 : ℕ) : ℤ))) := hlow
      rw [Loop.iterate_next (by rw [halvingTurn, if_pos hturn, (quot_two hgrid hlow hhigh).1, hhalf]),
        ih (by omega)]
      congr 2
      push_cast
      ring

/-- The second loop doubles `n` times. -/
theorem iterate_doubling (hk : k < 2 ^ 52) (n : ℕ)
    (hgrid : binary64.OnGrid (significand 52 k * 2 ^ (-n : ℤ))) (shift : ℤ) :
    Loop.iterate doublingTurn (n + 1) (.finite (significand 52 k * 2 ^ (-n : ℤ)), shift) =
      some (.finite (significand 52 k), shift - n) := by
  obtain ⟨hone, htwo⟩ := significand_bounds hk
  induction n generalizing shift with
  | zero =>
      have habove : ¬ Number.Below 1 (.finite (significand 52 k)) := not_lt.mpr hone
      rw [Nat.cast_zero, neg_zero, zpow_zero, mul_one, sub_zero]
      exact Loop.iterate_done (by rw [doublingTurn, if_neg habove]) 0
  | succ n ih =>
      have hdouble : significand 52 k * 2 ^ (-(n + 1 : ℕ) : ℤ) * 2 =
          significand 52 k * 2 ^ (-n : ℤ) := by
        rw [mul_assoc, ← zpow_add_one₀ two_ne_zero]
        congr 2
        push_cast
        ring
      have hpos : 0 < significand 52 k * 2 ^ (-(n + 1 : ℕ) : ℤ) :=
        mul_pos (by linarith) (two_zpow_pos _)
      have hhigh : significand 52 k * 2 ^ (-(n + 1 : ℕ) : ℤ) < 1 := by
        have hle : (2 : ℚ) ^ (-n : ℤ) ≤ 2 ^ (0 : ℤ) := zpow_le_zpow_right₀ (by norm_num) (by omega)
        rw [zpow_zero] at hle
        have hlt : significand 52 k * 2 ^ (-n : ℤ) < 2 * 1 :=
          (mul_lt_mul_of_pos_right htwo (two_zpow_pos _)).trans_le
            (mul_le_mul_of_nonneg_left hle zero_le_two)
        linarith
      obtain ⟨hmul, hgrid'⟩ := mul_two hgrid hpos hhigh
      have hturn : Number.Below 1 (.finite (significand 52 k * 2 ^ (-(n + 1 : ℕ) : ℤ))) := hhigh
      rw [hdouble] at hmul hgrid'
      rw [Loop.iterate_next (by rw [doublingTurn, if_pos hturn, hmul]), ih hgrid']
      congr 2
      push_cast
      ring

/-- More turns than any finite number takes in either loop. -/
def packTurns : ℕ := 1075

/-- **They are enough** for every finite number. -/
theorem normalized_packTurns (hk : k < 2 ^ 52)
    (hgrid : binary64.OnGrid (significand 52 k * 2 ^ s)) (hlow : -1074 ≤ s) (hhigh : s ≤ 1023) :
    normalized packTurns (.finite (significand 52 k * 2 ^ s)) =
      some (.finite (significand 52 k), s) := by
  rw [normalized]
  rcases le_total 0 s with hup | hdown
  · obtain ⟨n, rfl⟩ := Int.eq_ofNat_of_zero_le hup
    have hbelow := iterate_doubling hk 0 (by
      rw [Nat.cast_zero, neg_zero, zpow_zero, mul_one, ← mul_one (significand _ _), ← zpow_zero 2]
      exact significand_onGrid rfl hk (by simp only [binary64]; omega)) n
    rw [Nat.cast_zero, neg_zero, zpow_zero, mul_one, sub_zero, zero_add] at hbelow
    rw [Loop.iterate_mono (iterate_halving hk n (by omega) 0) (by unfold packTurns; omega),
      Option.bind_some, zero_add, Loop.iterate_mono hbelow (by unfold packTurns; omega)]
  · obtain ⟨n, hn⟩ := Int.eq_ofNat_of_zero_le (neg_nonneg.mpr hdown)
    obtain rfl : s = -(n : ℤ) := by omega
    have hfirst : Loop.iterate halvingTurn packTurns (.finite (significand 52 k * 2 ^ (-n : ℤ)), 0) =
        some (.finite (significand 52 k * 2 ^ (-n : ℤ)), 0) := by
      have hlt : significand 52 k * 2 ^ (-n : ℤ) < 2 := by
        have hle : (2 : ℚ) ^ (-n : ℤ) ≤ 2 ^ (0 : ℤ) := zpow_le_zpow_right₀ (by norm_num) (by omega)
        have hmul := mul_lt_mul_of_pos_right (significand_bounds hk).2 (two_zpow_pos (-n))
        rw [zpow_zero] at hle
        linarith
      have hbelow : ¬ Number.AtLeast 2 (.finite (significand 52 k * 2 ^ (-n : ℤ))) := not_le.mpr hlt
      exact Loop.iterate_done (by rw [halvingTurn, if_neg hbelow]) 1074
    rw [hfirst, Option.bind_some,
      Loop.iterate_mono (iterate_doubling hk n hgrid 0) (by unfold packTurns; omega), zero_sub]

/-! ## The two conversions -/

/-- **`SOS_buffer_pack754_64`.** There is no word for an infinity, on which the loops do not
end, and none for a nan, whose conversion to a `long long` is undefined. -/
def word754 (d : Double) : Option (BitVec 64) := sosBufferPack754 packTurns (ofBits d) 64 11

/-- **The codec of the program.** Where there is no word it says nothing about the
program. -/
@[reducible] def DoubleCodec.sos : DoubleCodec where
  pack754 d := (word754 d).getD 0
  unpack754 w := toBits (sosBufferUnpack754 w 64 11)

/-- What is read of what was packed. -/
theorem sos_unpack_pack (d : Double) : DoubleCodec.sos.unpack754 (DoubleCodec.sos.pack754 d) =
    toBits (sosBufferUnpack754 ((word754 d).getD 0) 64 11) := rfl

/-- **The doubles that come back**: the zero, the normal numbers, and the subnormal ones
from half the least normal number on, without the positive half itself. -/
def Codable (d : Double) : Prop :=
  d = 0 ∨ expField d ≠ 2047 ∧ (expField d ≠ 0 ∨ 2 ^ 51 ≤ fracField d) ∧ d ≠ 0x0008000000000000

instance : DecidablePred Codable := fun d => by
  unfold Codable
  infer_instance

/-- The words of the finite numbers. -/
theorem word754_finite {d : Double} {x : ℚ} (hd : ofBits d = .finite x) (hne : x ≠ 0) :
    ∃ k < 2 ^ 52, ∃ s : ℤ, -1074 ≤ s ∧ s ≤ 1023 ∧ |x| = significand 52 k * 2 ^ s ∧
      word754 d = some (packedWord (decide (x < 0)) (s + 1023) k) := by
  obtain ⟨hgrid, hrange⟩ := onGrid_of_ofBits hd
  have habs := hgrid.abs
  obtain ⟨k, hk, s, hs, hx⟩ := exists_significand (F := binary64) (p := 52) rfl (abs_pos.mpr hne) habs
  obtain ⟨hlow, hhigh⟩ := exponent_bounds hk hs (hx ▸ hrange)
  refine ⟨k, hk, s, hlow, hhigh, hx, ?_⟩
  obtain ⟨turns, hpack⟩ := sosBufferPack754_finite hk hne hgrid hrange hx
  have hzero : Number.finite x ≠ .finite 0 := fun h => hne (Number.finite.inj h)
  rw [hx] at habs
  have hword : ∃ w, word754 d = some w := by
    rw [word754, hd, sosBufferPack754, if_neg hzero, magnitude_finite, hx,
      normalized_packTurns hk habs hlow hhigh]
    simp only [Option.bind_eq_bind, Option.bind_some, trunc_significand hk, Option.some.injEq,
      exists_eq']
  obtain ⟨w, hw⟩ := hword
  have hw' := hw
  rw [word754, hd] at hw'
  rw [hw, sosBufferPack754_unique hw' hpack]

/-- An infinity and a nan have none. -/
theorem word754_top {d : Double} (htop : expField d = 2047) : word754 d = none := by
  rw [word754, ofBits, if_pos htop]
  split
  case isTrue hfrac =>
    have hloops := not_loopsEnd_inf d.msb
    rw [sosBufferPack754, if_neg (fun h => by cases h)]
    cases hnorm : normalized packTurns (magnitude (.inf d.msb)) with
    | none => rfl
    | some st => exact absurd (.inr ⟨packTurns, by rw [hnorm]; rfl⟩) hloops
  case isFalse => rfl

/-- A finite number is zero exactly if both its fields are. -/
theorem finite_zero_iff {d : Double} {x : ℚ} (hd : ofBits d = .finite x) :
    x = 0 ↔ expField d = 0 ∧ fracField d = 0 := by
  have hsign : signOf d.msb ≠ 0 := by
    cases d.msb <;> norm_num [signOf]
  have hpow := fun e : ℤ => (two_zpow_pos e).ne'
  have hplaces : (2 ^ 52 + fracField d : ℚ) ≠ 0 := by positivity
  rw [ofBits] at hd
  split at hd
  case isTrue => split at hd <;> cases hd
  case isFalse =>
    split at hd
    case isTrue hlow =>
      obtain rfl := Number.finite.inj hd
      simp only [mul_eq_zero, hsign, hpow, or_false, false_or, Nat.cast_eq_zero, hlow, true_and]
    case isFalse hlow =>
      obtain rfl := Number.finite.inj hd
      simp only [mul_eq_zero, hsign, hpow, hplaces, or_self, hlow, false_and]

/-- **`Codable` in terms of the number**, if it is not zero. -/
theorem codable_iff {d : Double} {x : ℚ} (hd : ofBits d = .finite x) (hne : x ≠ 0) :
    Codable d ↔ 2 ^ (-1023 : ℤ) ≤ |x| ∧ x ≠ 2 ^ (-1023 : ℤ) := by
  have htop : expField d ≠ 2047 := by
    intro htop
    rw [ofBits, if_pos htop] at hd
    split at hd <;> cases hd
  have hzero : d ≠ 0 := by
    rintro rfl
    exact hne ((finite_zero_iff hd).mpr ⟨by decide, by decide⟩)
  have hnumber := hd
  rw [ofBits, if_neg htop] at hnumber
  rw [Codable, or_iff_right hzero, and_iff_right htop]
  by_cases hlow : expField d = 0
  · rw [if_pos hlow] at hnumber
    obtain rfl := Number.finite.inj hnumber
    have hscale : (2 : ℚ) ^ (-1023 : ℤ) = (2 ^ 51 : ℕ) * 2 ^ (-1074 : ℤ) := by
      rw [Nat.cast_pow, Nat.cast_ofNat, ← zpow_natCast, ← zpow_add₀ two_ne_zero]
      rfl
    have hpow := two_zpow_pos (-1074)
    rw [abs_mul, abs_signOf, one_mul, abs_of_nonneg (mul_nonneg (Nat.cast_nonneg _) hpow.le), hscale,
      mul_le_mul_iff_left₀ hpow, Nat.cast_le]
    refine and_congr (by simp [hlow]) (not_congr ?_)
    constructor
    · rintro rfl
      have hmsb : (0x0008000000000000 : BitVec 64).msb = false := by decide
      have hfrac : fracField 0x0008000000000000 = 2 ^ 51 := by decide
      rw [hmsb, hfrac, signOf, if_neg Bool.false_ne_true, one_mul]
    · intro h
      have hmsb : d.msb = false := by
        by_contra hmsb
        rw [Bool.not_eq_false] at hmsb
        rw [hmsb, signOf, if_pos rfl, neg_one_mul] at h
        have hnonneg : 0 ≤ (fracField d : ℚ) * 2 ^ (-1074 : ℤ) :=
          mul_nonneg (Nat.cast_nonneg _) hpow.le
        have hpos : (0 : ℚ) < (2 ^ 51 : ℕ) * 2 ^ (-1074 : ℤ) := mul_pos (by norm_num) hpow
        linarith
      rw [hmsb, signOf, if_neg Bool.false_ne_true, one_mul] at h
      have hfrac : fracField d = 2 ^ 51 := by exact_mod_cast mul_right_cancel₀ hpow.ne' h
      have hbits := toNat_eq_fields d
      rw [hmsb, hlow, hfrac] at hbits
      exact BitVec.eq_of_toNat_eq hbits
  · have hlarge : (2 : ℚ) ^ (-1022 : ℤ) ≤ |x| := by
      rw [ofBits_normal hlow htop] at hd
      obtain rfl := Number.finite.inj hd
      have hfrac := fracField_lt d
      rw [abs_mul, abs_signOf, one_mul,
        abs_of_pos (mul_pos (by linarith [(significand_bounds hfrac).1]) (two_zpow_pos _)),
        pow_le_significand_iff hfrac]
      omega
    have hless : (2 : ℚ) ^ (-1023 : ℤ) < 2 ^ (-1022 : ℤ) :=
      zpow_lt_zpow_right₀ (by norm_num) (by norm_num)
    refine iff_of_true ⟨.inl hlow, ?_⟩ ⟨hless.le.trans hlarge, ?_⟩
    · rintro rfl
      exact hlow (by decide)
    · rintro rfl
      rw [abs_of_pos (two_zpow_pos _)] at hlarge
      exact absurd hlarge (not_le.mpr hless)

/-- **What comes back as it was.** -/
theorem kept_iff (d : Double) :
    DoubleCodec.sos.unpack754 (DoubleCodec.sos.pack754 d) = d ↔ Codable d := by
  have hzero : toBits (sosBufferUnpack754 0 64 11) = 0 := rfl
  by_cases htop : expField d = 2047
  · have hd : d ≠ 0 := by
      rintro rfl
      exact absurd htop (by decide)
    rw [sos_unpack_pack, word754_top htop, Option.getD_none]
    refine iff_of_false (fun h => hd (h.symm.trans hzero)) ?_
    rintro (h | ⟨h, -⟩)
    · exact hd h
    · exact h htop
  obtain ⟨x, hd⟩ : ∃ x, ofBits d = .finite x := by
    rw [ofBits, if_neg htop]
    split <;> exact ⟨_, rfl⟩
  by_cases hne : x = 0
  · -- one of the two zeros
    obtain ⟨hexp, hfrac⟩ := (finite_zero_iff hd).mp hne
    have hword : word754 d = some 0 := by
      rw [word754, hd, hne, sosBufferPack754, if_pos rfl]
    have hsmall : ¬ (expField d ≠ 0 ∨ 2 ^ 51 ≤ fracField d) := by
      rw [hexp, hfrac]
      norm_num
    rw [sos_unpack_pack, hword, Option.getD_some, hzero, Codable, eq_comm]
    exact (or_iff_left fun h => hsmall h.2.1).symm
  have hback : toBits (ofBits d) = d := by
    refine toBits_ofBits htop ?_
    rintro rfl
    exact hne ((finite_zero_iff hd).mpr ⟨by decide, by decide⟩)
  obtain ⟨k, hk, s, hlow, hhigh, hx, hword⟩ := word754_finite hd hne
  have hgrid := (onGrid_of_ofBits hd).1.abs
  have hsigned : signOf (decide (x < 0)) * (significand 52 k * 2 ^ s) = x := by
    rw [← hx, signOf_mul_abs]
  have hcoded := codedExactly_iff hd
  rw [or_iff_right hne, ← codable_iff hd hne, codedExactly_iff_unpack hword] at hcoded
  rw [← hcoded, sos_unpack_pack, hword, Option.getD_some]
  refine ⟨fun h => ?_, fun h => by rw [h, hback]⟩
  -- the bits are those of the number that was packed only if the number is
  rcases lt_trichotomy s (-1023) with hsmall | rfl | hnormal
  · obtain ⟨-, hexp, -⟩ :=
      fields_packedWord (decide (x < 0)) hk (by omega : -2048 ≤ s + 1023) (by omega)
    by_cases hend : expField (packedWord (decide (x < 0)) (s + 1023) k) = 2047
    · obtain ⟨negative, hinf⟩ := sosBufferUnpack754_top hend
      rw [hinf] at h
      refine absurd ?_ htop
      rw [← h]
      cases negative <;> decide
    · have hstart : expField (packedWord (decide (x < 0)) (s + 1023) k) ≠ 0 := by omega
      rw [sosBufferUnpack754_normal hstart hend] at h ⊢
      rw [toBits_ofBits hend (fun hword => by rw [hword] at hstart; exact hstart (by decide))] at h
      rw [h]
  · rw [hx] at hgrid
    rw [unpack_packedWord_half _ hk hgrid, hsigned] at h ⊢
    split at h
    case isTrue hhalf =>
      have hnil : (0 : Double) = d := h
      rw [← hnil] at hd
      exact absurd ((finite_zero_iff hd).mpr ⟨by decide, by decide⟩) hne
    case isFalse hhalf => rw [if_neg hhalf, hd]
  · rw [unpack_packedWord _ hk (by omega) hhigh, hsigned, hd]

end SosFlow
