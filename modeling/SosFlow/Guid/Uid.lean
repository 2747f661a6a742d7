import SosFlow.Basic

/-!
# Pools of guids

A pool is a `SOS_uid`: the next value to hand out, and the last. A client
takes its values one by one and asks for a new block when it has taken the
last. A daemon takes values from its pool one by one for its own pubs, and
whole blocks for its clients.
-/

namespace SosFlow

/-- `SOS_uid`. -/
structure SosUid where
  next : SosGuid
  last : SosGuid
deriving DecidableEq

/-- `SOS_DEFAULT_UID_MAX`, as a guid. -/
def uidMax : SosGuid := BitVec.ofNat 64 llongMax

/-- `SOS_uid_init`. -/
def sosUidInit (setFrom setTo : SosGuid) : SosUid where
  next := if setFrom > 0 then setFrom else 1
  last := if setTo < uidMax then setTo else uidMax

namespace SosUid

/-- `id->next++`. -/
def advance (id : SosUid) : SosUid := { id with next := id.next + 1 }

/-- `id->next > id->last`, the test behind the increment of `SOS_uid_next`. -/
def spent (id : SosUid) : Bool := id.next > id.last

end SosUid

/-- `SOS_uid_next` of a daemon, which exits when the pool is spent. -/
def sosUidNextDaemon (id : SosUid) : Option (SosGuid × SosUid) :=
  if id.advance.spent then none else some (id.next, id.advance)

/-- What `SOS_uid_next` of a client does before it looks at the daemon's
answer: return, or wait for a new block with the value in hand. -/
inductive ClientNext where
  | done (serial : SosGuid) (id : SosUid)
  | refresh (serial : SosGuid)
deriving DecidableEq

/-- `SOS_uid_next` of a client, up to its request. -/
def sosUidNextClient (id : SosUid) : ClientNext :=
  if id.advance.spent then .refresh id.next else .done id.next id.advance

/-- The `else` of `SOSD_claim_guid_block` is not taken. -/
def claimFails (id : SosUid) (size : SosGuid) : Bool := id.next + size > id.last

/-- `SOSD_claim_guid_block`: the block, and the pool without it. -/
def sosdClaimGuidBlock (id : SosUid) (size : SosGuid) : (SosGuid × SosGuid) × SosUid :=
  if claimFails id size then ((id.next, id.last), { id with next := id.last + 1 })
  else ((id.next, id.next + size), { id with next := id.next + size + 1 })

/-- `SOS_DEFAULT_GUID_BLOCK`, as it is passed for the size of a block. -/
def guidBlock : SosGuid := BitVec.ofNat 64 sosDefaultGuidBlock

/-- `guid_block_size` of `SOSD_init`. -/
def guidBlockSize (commSize : CInt) : SosGuid := uidMax / commSize.signExtend 64

/-- The pool `SOSD_init` gives a daemon. -/
def sosdInitGuid (commSize commRank : CInt) : SosUid :=
  let guidMyFirst := commRank.signExtend 64 * guidBlockSize commSize
  sosUidInit guidMyFirst (guidMyFirst + (guidBlockSize commSize - 1))

/-! ## The pools in numbers -/

namespace SosUid

/-- **The pool counts without wrapping**: it starts above zero, and ends at
most at `LLONG_MAX`, with the cursor at most one past the end. -/
structure Bounded (id : SosUid) : Prop where
  pos : 0 < id.next.toNat
  next_le : id.next.toNat ≤ id.last.toNat + 1
  last_le : id.last.toNat ≤ llongMax

variable {id : SosUid} {size : SosGuid}

/-- An increment below the top of the range. -/
theorem toNat_add_one {g : SosGuid} (h : g.toNat ≤ llongMax + 1) :
    (g + 1).toNat = g.toNat + 1 := by
  have hone : (1 : SosGuid).toNat = 1 := rfl
  unfold llongMax at h
  rw [BitVec.toNat_add, hone, Nat.mod_eq_of_lt]
  omega

theorem toNat_advance (h : id.Bounded) : id.advance.next.toNat = id.next.toNat + 1 := by
  have hnext := h.next_le
  have hlast := h.last_le
  exact toNat_add_one (by omega)

theorem spent_iff : id.spent = true ↔ id.last.toNat < id.next.toNat := by
  rw [spent, decide_eq_true_iff]
  exact BitVec.lt_def

/-- **What a daemon's pool hands out** is its next value. -/
theorem sosUidNextDaemon_some {serial : SosGuid} {id' : SosUid} (h : id.Bounded)
    (hnext : sosUidNextDaemon id = some (serial, id')) :
    serial = id.next ∧ id.next.toNat < id.last.toNat ∧
      id'.next.toNat = id.next.toNat + 1 ∧ id'.last = id.last := by
  have hadvance := toNat_advance h
  unfold sosUidNextDaemon at hnext
  split at hnext
  case isTrue => cases hnext
  case isFalse hspent =>
    obtain ⟨rfl, rfl⟩ := Prod.mk.inj (Option.some.inj hnext)
    rw [spent_iff] at hspent
    refine ⟨rfl, ?_, hadvance, rfl⟩
    change ¬ id.last.toNat < _ at hspent
    omega

/-- **What a client's pool hands out** is its next value, the last one after a
refresh. -/
theorem sosUidNextClient_cases (h : id.Bounded) (hne : id.next.toNat ≤ id.last.toNat) :
    (id.next.toNat < id.last.toNat ∧ sosUidNextClient id = .done id.next id.advance) ∨
      (id.next.toNat = id.last.toNat ∧ sosUidNextClient id = .refresh id.next) := by
  have hadvance := toNat_advance h
  have hlast : id.advance.last = id.last := rfl
  unfold sosUidNextClient
  split
  case isTrue hspent =>
    rw [spent_iff, hadvance, hlast] at hspent
    exact .inr ⟨by omega, rfl⟩
  case isFalse hspent =>
    rw [spent_iff, hadvance, hlast] at hspent
    exact .inl ⟨by omega, rfl⟩

/-- **A claim that does not fail** cuts the block off the front of the pool. -/
theorem sosdClaimGuidBlock_eq (h : id.Bounded) (hsize : size.toNat ≤ intMax)
    (hclaim : claimFails id size = false) :
    ∃ blockTo id', sosdClaimGuidBlock id size = ((id.next, blockTo), id') ∧
      blockTo.toNat = id.next.toNat + size.toNat ∧ blockTo.toNat ≤ id.last.toNat ∧
      id'.next.toNat = blockTo.toNat + 1 ∧ id'.last = id.last := by
  obtain ⟨_, hnext, hlast⟩ := h
  unfold llongMax at hlast
  unfold intMax at hsize
  have hto : (id.next + size).toNat = id.next.toNat + size.toNat := by
    rw [BitVec.toNat_add, Nat.mod_eq_of_lt]
    omega
  have hin : ¬ id.last.toNat < (id.next + size).toNat := by
    rw [claimFails, decide_eq_false_iff_not] at hclaim
    exact fun hlt => hclaim (BitVec.lt_def.mpr hlt)
  refine ⟨id.next + size, { id with next := id.next + size + 1 }, ?_, hto, by omega, ?_, rfl⟩
  · rw [sosdClaimGuidBlock, hclaim]
    rfl
  · refine toNat_add_one ?_
    unfold llongMax
    omega

end SosUid

/-! ## The pools `SOSD_init` makes -/

/-- The number a rank or a size is, read as a guid. -/
theorem toNat_signExtend_ofNat {n : ℕ} (h : n ≤ intMax) :
    ((BitVec.ofNat 32 n : CInt).signExtend 64).toNat = n := by
  unfold intMax at h
  have hmsb : (BitVec.ofNat 32 n).msb = false := by
    rw [BitVec.msb_eq_false_iff_two_mul_lt, BitVec.toNat_ofNat]
    omega
  rw [BitVec.signExtend_eq_setWidth_of_msb_false hmsb, BitVec.toNat_setWidth, BitVec.toNat_ofNat]
  omega

theorem toNat_uidMax : uidMax.toNat = llongMax := rfl

/-- What `SOS_uid_init` makes of a range that starts above zero. -/
theorem sosUidInit_of_pos {setFrom setTo : SosGuid} (hpos : 0 < setFrom.toNat)
    (hle : setTo.toNat ≤ llongMax) : sosUidInit setFrom setTo = ⟨setFrom, setTo⟩ := by
  have hfrom : setFrom > 0 := BitVec.lt_def.mpr hpos
  have hto : (if setTo < uidMax then setTo else uidMax) = setTo := by
    split
    case isTrue => rfl
    case isFalse hlt =>
      apply BitVec.eq_of_toNat_eq
      rw [BitVec.lt_def, toNat_uidMax] at hlt
      rw [toNat_uidMax]
      omega
  rw [sosUidInit, if_pos hfrom, hto]

/-- The number of guids a daemon has, of `n` daemons. -/
def rangeSize (n : ℕ) : ℕ := llongMax / n

theorem toNat_guidBlockSize {n : ℕ} (h : n ≤ intMax) :
    (guidBlockSize (BitVec.ofNat 32 n)).toNat = rangeSize n := by
  rw [guidBlockSize, BitVec.toNat_udiv, toNat_uidMax, toNat_signExtend_ofNat h, rangeSize]

/-- There are guids for every daemon. -/
theorem rangeSize_pos {n : ℕ} (hpos : 0 < n) (h : n ≤ intMax) : 0 < rangeSize n := by
  apply Nat.div_pos _ hpos
  unfold intMax at h
  unfold llongMax
  omega

/-- All the ranges end below `LLONG_MAX`. -/
theorem mul_rangeSize_le {n r : ℕ} (hr : r < n) :
    r * rangeSize n + rangeSize n ≤ llongMax := by
  have hall : n * rangeSize n ≤ llongMax := Nat.mul_div_le _ _
  have hmono : (r + 1) * rangeSize n ≤ n * rangeSize n := Nat.mul_le_mul_right _ hr
  rw [Nat.succ_mul] at hmono
  omega

/-- **A daemon's pool is its range**, without the zero. -/
theorem sosdInitGuid_eq {n r : ℕ} (hn : n ≤ intMax) (hr : r < n) :
    (sosdInitGuid (BitVec.ofNat 32 n) (BitVec.ofNat 32 r)).next.toNat =
        max 1 (r * rangeSize n) ∧
      (sosdInitGuid (BitVec.ofNat 32 n) (BitVec.ofNat 32 r)).last.toNat + 1 =
        r * rangeSize n + rangeSize n := by
  have hsize := toNat_guidBlockSize hn
  have hpos := rangeSize_pos (by omega) hn
  have hle := mul_rangeSize_le hr
  have hfirst : ((BitVec.ofNat 32 r : CInt).signExtend 64 *
      guidBlockSize (BitVec.ofNat 32 n)).toNat = r * rangeSize n := by
    unfold llongMax at hle
    rw [BitVec.toNat_mul, toNat_signExtend_ofNat (by omega), hsize, Nat.mod_eq_of_lt]
    omega
  have hwidth : (guidBlockSize (BitVec.ofNat 32 n) - 1).toNat = rangeSize n - 1 := by
    have hone : (1 : SosGuid).toNat = 1 := rfl
    have hlt := (guidBlockSize (BitVec.ofNat 32 n)).isLt
    rw [BitVec.toNat_sub, hone, hsize]
    omega
  have hlast : ((BitVec.ofNat 32 r : CInt).signExtend 64 * guidBlockSize (BitVec.ofNat 32 n) +
      (guidBlockSize (BitVec.ofNat 32 n) - 1)).toNat = r * rangeSize n + (rangeSize n - 1) := by
    unfold llongMax at hle
    rw [BitVec.toNat_add, hfirst, hwidth, Nat.mod_eq_of_lt]
    omega
  rw [sosdInitGuid, sosUidInit]
  constructor
  · simp only [gt_iff_lt, BitVec.lt_def]
    split
    case isTrue hlt =>
      rw [hfirst] at hlt ⊢
      change 0 < _ at hlt
      omega
    case isFalse hlt =>
      rw [hfirst] at hlt
      change ¬ 0 < _ at hlt
      change 1 = _
      omega
  · have hbelow : (BitVec.ofNat 32 r : CInt).signExtend 64 * guidBlockSize (BitVec.ofNat 32 n) +
        (guidBlockSize (BitVec.ofNat 32 n) - 1) < uidMax := by
      rw [BitVec.lt_def, toNat_uidMax, hlast]
      omega
    simp only [if_pos hbelow, hlast]
    omega

end SosFlow
