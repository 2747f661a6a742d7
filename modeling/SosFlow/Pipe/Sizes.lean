import SosFlow.Pipe.Buffer

/-!
# The sizes of a buffer

A pipe grows to a power of two of elements when a push does not fit, and is
cut in half when a pop leaves it three quarters empty. `resize_buffer` does
nothing for a size that is not above `min_cap`, so the growth must lead
above it. It does when `min_cap` is no power of two itself: that is the one
thing `Sound` asks of the constants, and with it every resize keeps the
contents and gives the push its room (`growFor_spec`, `trim_spec`).
-/

namespace SosFlow

open Cyclic

/-! ## The next power of two -/

/-- The bits of `m` are those of `n`, each spread over the `w` places below it. -/
def Spread (w n m : ℕ) : Prop := ∀ i, m.testBit i = true ↔ ∃ j < w, n.testBit (i + j) = true

theorem spread_one (n : ℕ) : Spread 1 n n := by
  intro i
  constructor
  · exact fun h => ⟨0, Nat.one_pos, h⟩
  · rintro ⟨j, hj, h⟩
    obtain rfl : j = 0 := by omega
    exact h

/-- **One turn of the loop** spreads the bits over twice as many places. -/
theorem Spread.double {w n m : ℕ} (h : Spread w n m) : Spread (2 * w) n (m ||| m >>> w) := by
  intro i
  rw [Nat.testBit_or, Nat.testBit_shiftRight, Bool.or_eq_true, h i, h (w + i)]
  constructor
  · rintro (⟨j, hj, hbit⟩ | ⟨j, hj, hbit⟩)
    · exact ⟨j, by omega, hbit⟩
    · refine ⟨w + j, by omega, ?_⟩
      rwa [show i + (w + j) = w + i + j by omega]
  · rintro ⟨j, hj, hbit⟩
    by_cases hlow : j < w
    · exact .inl ⟨j, hlow, hbit⟩
    · refine .inr ⟨j - w, by omega, ?_⟩
      rwa [show w + i + (j - w) = i + j by omega]

/-- Bits that are spread over all places below make a number one less than a power. -/
theorem Spread.add_one {w n m : ℕ} (h : Spread w n m) (hn : n ≠ 0) (hw : n < 2 ^ w) :
    m + 1 = 2 ^ (n.log2 + 1) := by
  have hlog : n.log2 < w := (Nat.log2_lt hn).mpr hw
  suffices hm : m = 2 ^ (n.log2 + 1) - 1 by
    rw [hm, Nat.sub_add_cancel Nat.one_le_two_pow]
  refine Nat.eq_of_testBit_eq fun i => ?_
  rw [Nat.testBit_two_pow_sub_one, Bool.eq_iff_iff, h i, decide_eq_true_iff]
  constructor
  · rintro ⟨j, -, hbit⟩
    have hle := (Nat.le_log2 hn).mpr (Nat.ge_two_pow_of_testBit hbit)
    omega
  · intro hi
    refine ⟨n.log2 - i, by omega, ?_⟩
    rw [Nat.add_sub_cancel' (by omega)]
    exact Nat.testBit_log2 hn

/-- **`next_pow2` rounds up to a power of two**, by less than it doubles. -/
theorem nextPow2_spec {n : ℕ} (hpos : 0 < n) (hn : n ≤ 2 ^ 63) :
    ∃ k, nextPow2 n = 2 ^ k ∧ n ≤ 2 ^ k ∧ 2 ^ k < 2 * n := by
  unfold nextPow2
  by_cases htop : 2 ^ 63 ≤ n
  · obtain rfl : n = 2 ^ 63 := by omega
    exact ⟨63, if_pos htop, le_rfl, by omega⟩
  · rw [if_neg htop]
    by_cases hone : n = 1
    · subst hone
      exact ⟨0, rfl, le_rfl, by norm_num⟩
    · have hspread := (spread_one (n - 1)).double.double.double.double.double.double
      have hlt := Nat.lt_log2_self (n := n - 1)
      refine ⟨(n - 1).log2 + 1, hspread.add_one (by omega) (by omega), by omega, ?_⟩
      have hle := Nat.log2_self_le (n := n - 1) (by omega)
      rw [pow_succ]
      omega

theorem le_nextPow2 {n : ℕ} (hpos : 0 < n) : n ≤ nextPow2 n := by
  by_cases hn : n ≤ 2 ^ 63
  · obtain ⟨k, hk, hle, -⟩ := nextPow2_spec hpos hn
    rw [hk]
    exact hle
  · rw [nextPow2, if_pos (by omega)]

namespace PipeT

variable {α : Type} {p p' : PipeT α} {n : ℕ}

/-! ## Sound pipes -/

/-- **A pipe that is sound**: its pointers lie in the buffer, the sizes are powers of
two but for `min_cap`, and the buffer is as `pipe_new` made it or has grown. -/
structure Sound (p : PipeT α) : Prop where
  placed : p.makeSnapshot.Placed
  elem : ∃ k, p.elemSize = 2 ^ k
  dvd_min : p.elemSize ∣ p.minCap
  min_pos : 0 < p.minCap
  min_ne : ∀ k, p.minCap ≠ 2 ^ k
  max : ∃ m ≤ 63, p.maxCap = 2 ^ m
  min_le : p.minCap ≤ p.maxCap
  capacity_le : p.capacity ≤ p.maxCap
  size : p.buffer.length = p.minCap ∨ p.minCap < p.capacity ∧ ∃ j, p.capacity = 2 ^ j

theorem Sound.min_lt (h : p.Sound) : p.minCap < p.maxCap := by
  obtain ⟨m, -, hm⟩ := h.max
  exact Nat.lt_of_le_of_ne h.min_le (hm ▸ h.min_ne m)

theorem Sound.length_eq (h : p.Sound) : p.buffer.length = p.capacity + p.elemSize := by
  have hbegin : p.beginPtr + p.elemSize ≤ p.buffer.length := h.placed.begin_add_le
  show p.buffer.length = p.buffer.length - p.elemSize + p.elemSize
  omega

theorem Sound.bytesInUse_le (h : p.Sound) : p.bytesInUse ≤ p.capacity := h.placed.bytesInUse_le

theorem Sound.length_contents (h : p.Sound) : p.contents.length = p.bytesInUse := by
  have hle := h.bytesInUse_le
  have hlength := h.length_eq
  exact length_window (by omega)

/-- The element size divides every larger power of two. -/
theorem Sound.dvd_pow (h : p.Sound) {j : ℕ} (hlt : p.minCap < 2 ^ j) : p.elemSize ∣ 2 ^ j := by
  obtain ⟨k, hk⟩ := h.elem
  have hle := Nat.le_of_dvd h.min_pos h.dvd_min
  rw [hk] at hle ⊢
  have hpow : 2 ^ k < 2 ^ j := Nat.lt_of_le_of_lt hle hlt
  exact pow_dvd_pow 2 ((Nat.pow_lt_pow_iff_right (by norm_num)).mp hpow).le

/-! ## Resizing -/

/-- **What is copied** is the sentinel and the bytes in use, in their order. -/
theorem Sound.copyPipeIntoNewBuf_eq (h : p.Sound) :
    p.copyPipeIntoNewBuf = window p.buffer p.beginPtr (p.elemSize + p.bytesInUse) := by
  have hadd : p.beginPtr + (p.bytesInUse + p.elemSize) =
    if p.makeSnapshot.WrapsAround then p.endPtr + p.buffer.length else p.endPtr :=
      h.placed.bytesInUse_add
  have hend : p.endPtr < p.buffer.length := h.placed.end_lt
  have hbegin : p.beginPtr < p.buffer.length := h.placed.begin_lt
  have hle := h.bytesInUse_le
  have hlength := h.length_eq
  unfold copyPipeIntoNewBuf
  by_cases hwrap : p.makeSnapshot.WrapsAround
  · rw [if_pos hwrap] at hadd ⊢
    rw [window_eq_append hbegin.le (by omega) (by omega)]
    congr 2
    omega
  · rw [if_neg hwrap] at hadd ⊢
    rw [window_eq_take (by omega)]
    congr 1
    omega

/-- **A resize keeps the contents**, when the new size is a power of two above
`min_cap` with room for them. -/
theorem Sound.resized (h : p.Sound) {j : ℕ} (hmin : p.minCap < 2 ^ j) (hmax : 2 ^ j ≤ p.maxCap)
    (hused : p.bytesInUse < 2 ^ j) :
    ∃ p', p.resizeBuffer (2 ^ j) = some p' ∧ p'.Sound ∧ p'.capacity = 2 ^ j ∧
      p'.bytesInUse = p.bytesInUse ∧ p'.contents = p.contents ∧
      p'.elemSize = p.elemSize ∧ p'.minCap = p.minCap ∧ p'.maxCap = p.maxCap := by
  have hpos : 0 < p.elemSize := h.placed.elem_pos
  have hdvd := h.dvd_pow hmin
  have hle := h.bytesInUse_le
  have hlength := h.length_eq
  have hcopied : p.copyPipeIntoNewBuf.length = p.elemSize + p.bytesInUse := by
    rw [h.copyPipeIntoNewBuf_eq, length_window (by omega)]
  have hsize : (if p.maxCap ≤ 2 ^ j then p.maxCap else 2 ^ j) = 2 ^ j := by
    split <;> omega
  have hfits : p.elemSize + p.bytesInUse + (2 ^ j + p.elemSize - (p.elemSize + p.bytesInUse)) =
      2 ^ j + p.elemSize := by omega
  let p' : PipeT α :=
    { p with
      block := p.block + 1
      buffer := p.copyPipeIntoNewBuf ++
        List.replicate (2 ^ j + p.elemSize - p.copyPipeIntoNewBuf.length) none
      beginPtr := 0
      endPtr := p.copyPipeIntoNewBuf.length }
  have hlength' : p'.buffer.length = 2 ^ j + p.elemSize := by
    rw [List.length_append, List.length_replicate, hcopied, hfits]
  have hcapacity : p'.capacity = 2 ^ j := by
    show p'.buffer.length - p.elemSize = 2 ^ j
    omega
  have hplaced : p'.makeSnapshot.Placed :=
    { elem_pos := hpos
      dvd_bufend := by
        show p.elemSize ∣ p'.buffer.length
        rw [hlength']
        exact Nat.dvd_add hdvd (Nat.dvd_refl _)
      dvd_begin := Nat.dvd_zero _
      dvd_end := by
        show p.elemSize ∣ p.copyPipeIntoNewBuf.length
        rw [hcopied]
        exact Nat.dvd_add (Nat.dvd_refl _) h.placed.dvd_bytesInUse
      begin_lt := by
        show 0 < p'.buffer.length
        omega
      end_lt := by
        show p.copyPipeIntoNewBuf.length < p'.buffer.length
        omega }
  have hused' : p'.bytesInUse = p.bytesInUse := by
    refine hplaced.bytesInUse_unique ?_ ?_
    · show p.bytesInUse ≤ p'.capacity
      omega
    · show p.copyPipeIntoNewBuf.length = (0 + p.elemSize + p.bytesInUse) % p'.buffer.length
      rw [hcopied, Nat.zero_add, Nat.mod_eq_of_lt (by omega)]
  refine ⟨p', ?_, ?_, hcapacity, hused', ?_, rfl, rfl, rfl⟩
  · simp only [resizeBuffer, hsize]
    rw [if_neg (by omega), if_pos (by omega)]
  · exact
      { placed := hplaced
        elem := h.elem
        dvd_min := h.dvd_min
        min_pos := h.min_pos
        min_ne := h.min_ne
        max := h.max
        min_le := h.min_le
        capacity_le := by
          rw [hcapacity]
          exact hmax
        size := .inr ⟨by rw [hcapacity]; exact hmin, j, hcapacity⟩ }
  · have hfront : p.contents = p.copyPipeIntoNewBuf.drop p.elemSize := by
      rw [h.copyPipeIntoNewBuf_eq, window_drop (by omega) (by omega), Nat.add_sub_cancel_left]
      rfl
    show window p'.buffer (0 + p.elemSize) p'.bytesInUse = p.contents
    rw [hused', hfront, window_eq_take (by omega), Nat.zero_add,
      List.drop_append_of_le_length (by omega), List.take_append_of_le_length
        (by rw [List.length_drop]; omega), List.take_of_length_le
        (by rw [List.length_drop]; omega)]

/-- **A size that is too large** is cut to `max_cap`. -/
theorem resizeBuffer_of_max_le (h : p.maxCap ≤ n) :
    p.resizeBuffer n = p.resizeBuffer p.maxCap := by
  simp only [resizeBuffer, if_pos h, if_pos (Nat.le_refl p.maxCap)]

/-- A size that is not above `min_cap` changes nothing. -/
theorem resizeBuffer_of_le_min (hmin : n ≤ p.minCap) (hmax : n < p.maxCap) :
    p.resizeBuffer n = some p := by
  simp only [resizeBuffer, if_neg (Nat.not_le.mpr hmax), if_pos hmin]

/-- **The same sizes**: what no call changes. -/
structure SameSizes (p p' : PipeT α) : Prop where
  elemSize : p'.elemSize = p.elemSize
  minCap : p'.minCap = p.minCap
  maxCap : p'.maxCap = p.maxCap

theorem SameSizes.refl (p : PipeT α) : SameSizes p p := ⟨rfl, rfl, rfl⟩

theorem SameSizes.trans {p'' : PipeT α} (h : p.SameSizes p') (h' : p'.SameSizes p'') :
    p.SameSizes p'' :=
  ⟨h'.elemSize.trans h.elemSize, h'.minCap.trans h.minCap, h'.maxCap.trans h.maxCap⟩

/-- **A resize** changes nothing, or the size of the buffer. -/
theorem resizeBuffer_cases (h : p.resizeBuffer n = some p') :
    p' = p ∨ p.SameSizes p' ∧ p.minCap < p'.capacity := by
  have hsize : (if p.maxCap ≤ n then p.maxCap else n) = min n p.maxCap := by
    split <;> omega
  simp only [resizeBuffer, hsize] at h
  split at h
  case isTrue => exact .inl (Option.some.inj h).symm
  case isFalse hlarge =>
    obtain ⟨hfits, heq⟩ := Option.ite_none_right_eq_some.mp h
    obtain rfl := Option.some.inj heq
    refine .inr ⟨⟨rfl, rfl, rfl⟩, ?_⟩
    show p.minCap < List.length _ - p.elemSize
    rw [List.length_append, List.length_replicate]
    omega

/-- **What a resize may change**: the place of the bytes, not the bytes. -/
structure SameQueue (p p' : PipeT α) : Prop where
  contents : p'.contents = p.contents
  bytesInUse : p'.bytesInUse = p.bytesInUse
  elemSize : p'.elemSize = p.elemSize
  minCap : p'.minCap = p.minCap
  maxCap : p'.maxCap = p.maxCap

theorem SameQueue.refl (p : PipeT α) : SameQueue p p := ⟨rfl, rfl, rfl, rfl, rfl⟩

theorem SameQueue.sizes (h : p.SameQueue p') : p.SameSizes p' := ⟨h.elemSize, h.minCap, h.maxCap⟩

/-- **The growth**: after it a push of `n` bytes fits, or as much of it as `max_cap`
allows. -/
theorem Sound.growFor_spec (h : p.Sound) (hn : p.elemSize ∣ n) (hroom : p.bytesInUse < p.maxCap) :
    ∃ p', p.growFor n = some p' ∧ p'.Sound ∧ SameQueue p p' ∧
      min (p.bytesInUse + n) p.maxCap ≤ p'.capacity := by
  have hpos : 0 < p.elemSize := h.placed.elem_pos
  have hdvd : p.elemSize ∣ p.bytesInUse + n := Nat.dvd_add h.placed.dvd_bytesInUse hn
  have hlength := h.length_eq
  unfold growFor
  by_cases hneeded : p.capacity < p.bytesInUse + n
  · rw [if_pos hneeded]
    obtain ⟨i, hi⟩ := hdvd
    obtain ⟨m, hm63, hm⟩ := h.max
    obtain ⟨k, hk⟩ := h.elem
    rw [hi, Nat.mul_div_cancel_left _ hpos]
    have hipos : 0 < i := Nat.pos_of_ne_zero fun hzero => by
      rw [hzero, Nat.mul_zero] at hi
      omega
    -- the buffer is at least as large as `min_cap` says, and so is what is needed
    have hmin : p.minCap ≤ p.elemSize * i := by
      rcases h.size with hsize | ⟨hlt, -⟩
      · have hcapacity : p.elemSize ∣ p.capacity := h.placed.dvd_capacity
        have hstep := add_le_of_dvd_of_lt hcapacity (Dvd.intro i rfl) (hi ▸ hneeded)
        omega
      · omega
    -- either it is cut to `max_cap`, or it is a power of two above what is needed
    obtain ⟨j, hresize, hjmin, hjmax, hjroom⟩ : ∃ j,
        p.resizeBuffer (nextPow2 i * p.elemSize) = p.resizeBuffer (2 ^ j) ∧
          p.minCap < 2 ^ j ∧ 2 ^ j ≤ p.maxCap ∧ min (p.elemSize * i) p.maxCap ≤ 2 ^ j := by
      by_cases hcut : p.maxCap ≤ nextPow2 i * p.elemSize
      · refine ⟨m, ?_, hm ▸ h.min_lt, hm.ge, ?_⟩
        · rw [resizeBuffer_of_max_le hcut, hm]
        · omega
      · have hmaxle : p.maxCap ≤ 2 ^ 63 := hm ▸ Nat.pow_le_pow_right (by norm_num) hm63
        have hile := le_nextPow2 hipos
        have hmul := Nat.le_mul_of_pos_right (nextPow2 i) hpos
        obtain ⟨l, hl, hil, -⟩ := nextPow2_spec hipos (by omega)
        have hsize : nextPow2 i * p.elemSize = 2 ^ (l + k) := by rw [hl, hk, pow_add]
        have hneed : p.elemSize * i ≤ 2 ^ (l + k) := by
          rw [← hsize, Nat.mul_comm]
          exact Nat.mul_le_mul_right _ hile
        refine ⟨l + k, by rw [hsize], ?_, by omega, by omega⟩
        exact Nat.lt_of_le_of_ne (Nat.le_trans hmin hneed) (h.min_ne _)
    have hfits : p.bytesInUse < min (p.elemSize * i) p.maxCap :=
      Nat.lt_min.mpr ⟨by have hle := h.bytesInUse_le; omega, hroom⟩
    obtain ⟨p', hp', hsound, hcapacity, hused, hcontents, helem, hminCap, hmaxCap⟩ :=
      h.resized hjmin hjmax (Nat.lt_of_lt_of_le hfits hjroom)
    refine ⟨p', hresize.trans hp', hsound, ⟨hcontents, hused, helem, hminCap, hmaxCap⟩, ?_⟩
    omega
  · rw [if_neg hneeded]
    exact ⟨p, rfl, h, SameQueue.refl p, by omega⟩

/-- **The trim**: the contents stay. -/
theorem Sound.trim_spec (h : p.Sound) : ∃ p', p.trim = some p' ∧ p'.Sound ∧ SameQueue p p' := by
  unfold trim
  by_cases hfew : p.bytesInUse ≤ p.capacity / 4
  · rw [if_pos hfew]
    have hmaxlt : p.capacity / 2 < p.maxCap := by
      have hlt := h.min_lt
      have hle := h.capacity_le
      omega
    by_cases hmin : p.capacity / 2 ≤ p.minCap
    · exact ⟨p, resizeBuffer_of_le_min hmin hmaxlt, h, SameQueue.refl p⟩
    -- a buffer of `min_cap` is not twice as large as that, so it has grown
    · rcases h.size with hsize | ⟨-, j, hj⟩
      · have hlength := h.length_eq
        omega
      · obtain ⟨i, rfl⟩ : ∃ i, j = i + 1 := by
          refine ⟨j - 1, (Nat.sub_add_cancel (Nat.pos_of_ne_zero fun hzero => ?_)).symm⟩
          rw [hzero] at hj
          omega
        have hhalf : p.capacity / 2 = 2 ^ i := by
          rw [hj, pow_succ, Nat.mul_div_cancel _ (by norm_num)]
        rw [hhalf] at hmin hmaxlt ⊢
        obtain ⟨p', hp', hsound, -, hused, hcontents, helem, hminCap, hmaxCap⟩ :=
          h.resized (Nat.lt_of_not_le hmin) hmaxlt.le (by omega)
        exact ⟨p', hp', hsound, ⟨hcontents, hused, helem, hminCap, hmaxCap⟩⟩
  · rw [if_neg hfew]
    exact ⟨p, rfl, h, SameQueue.refl p⟩

/-! ## A new pipe -/

/-- What is no power of two is none after it is multiplied by one. -/
theorem mul_two_pow_ne {a k : ℕ} (h : ∀ j, a ≠ 2 ^ j) (j : ℕ) : a * 2 ^ k ≠ 2 ^ j := by
  intro heq
  have hle : k ≤ j := (Nat.pow_dvd_pow_iff_le_right (by norm_num)).mp (Dvd.intro_left a heq)
  rw [← Nat.sub_add_cancel hle, pow_add] at heq
  exact h (j - k) (Nat.eq_of_mul_eq_mul_right (Nat.two_pow_pos k) heq)

/-- **`pipe_new`** makes a sound pipe, with nothing in it, when `DEFAULT_MINCAP` is no
power of two and the sizes are those of objects in memory. -/
theorem pipeNew_sound {mincap k limit : ℕ} (hmincap : 0 < mincap) (hne : ∀ j, mincap ≠ 2 ^ j)
    (hcap : mincap * 2 ^ k ≤ 2 ^ 63) (hlimit : (limit + 1) * 2 ^ k ≤ 2 ^ 63) :
    ∃ p, pipeNew α mincap (2 ^ k) limit = some p ∧ p.Sound ∧ p.contents = [] ∧
      p.elemSize = 2 ^ k ∧ p.minCap = mincap * 2 ^ k ∧
      p.maxCap = nextPow2 (max ((limit + 1) * 2 ^ k) (mincap * 2 ^ k)) := by
  have hpow : 0 < 2 ^ k := Nat.two_pow_pos k
  have hcappos : 0 < mincap * 2 ^ k := Nat.mul_pos hmincap hpow
  have hlimitpos : 0 < (limit + 1) * 2 ^ k := Nat.mul_pos (Nat.succ_pos _) hpow
  have htwo : 2 ≤ mincap := by
    have h1 := hne 0
    omega
  have hwide : 2 ^ k + 2 ^ k ≤ mincap * 2 ^ k := by
    calc 2 ^ k + 2 ^ k = 2 * 2 ^ k := by ring
      _ ≤ mincap * 2 ^ k := Nat.mul_le_mul_right _ htwo
  have hmod : (limit + 1) * 2 ^ k % 2 ^ 64 = (limit + 1) * 2 ^ k :=
    Nat.mod_eq_of_lt (by omega)
  obtain ⟨m, hm, hle, hlt⟩ := nextPow2_spec
    (n := max ((limit + 1) * 2 ^ k) (mincap * 2 ^ k)) (by omega) (by omega)
  have hm63 : m ≤ 63 := by
    have hpow64 : 2 ^ m < 2 ^ 64 := by omega
    have hm64 := (Nat.pow_lt_pow_iff_right (by norm_num)).mp hpow64
    omega
  let p : PipeT α :=
    { elemSize := 2 ^ k
      minCap := mincap * 2 ^ k
      maxCap := nextPow2 (max ((limit + 1) * 2 ^ k) (mincap * 2 ^ k))
      block := 0
      buffer := List.replicate (mincap * 2 ^ k) none
      beginPtr := 0
      endPtr := 2 ^ k }
  have hlength : p.buffer.length = mincap * 2 ^ k := List.length_replicate
  have hplaced : p.makeSnapshot.Placed :=
    { elem_pos := hpow
      dvd_bufend := by
        show 2 ^ k ∣ p.buffer.length
        rw [hlength]
        exact Nat.dvd_mul_left _ _
      dvd_begin := Nat.dvd_zero _
      dvd_end := Nat.dvd_refl _
      begin_lt := by
        show 0 < p.buffer.length
        omega
      end_lt := by
        show 2 ^ k < p.buffer.length
        omega }
  have hused : p.bytesInUse = 0 := by
    refine hplaced.bytesInUse_unique (Nat.zero_le _) ?_
    show 2 ^ k = (0 + 2 ^ k + 0) % p.buffer.length
    rw [Nat.add_zero, Nat.zero_add, Nat.mod_eq_of_lt (by omega)]
  refine ⟨p, ?_, ?_, ?_, rfl, rfl, rfl⟩
  · simp only [pipeNew, hmod]
    rw [if_neg (by omega), if_pos (by omega)]
  · exact
      { placed := hplaced
        elem := ⟨k, rfl⟩
        dvd_min := Nat.dvd_mul_left _ _
        min_pos := hcappos
        min_ne := mul_two_pow_ne hne
        max := ⟨m, hm63, hm⟩
        min_le := by
          show mincap * 2 ^ k ≤ nextPow2 _
          omega
        capacity_le := by
          show p.buffer.length - 2 ^ k ≤ nextPow2 _
          omega
        size := .inl hlength }
  · rw [contents, hused, window_zero]

end PipeT

end SosFlow
