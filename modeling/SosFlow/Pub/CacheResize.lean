import SosFlow.Pub.Cache
import Mathlib.Data.List.Rotate

/-!
# A cache of another size

A CACHE_SIZE message is to change how many frames a pub keeps, and the
frames that still fit should stay. A cache that grows is copied from the
snapshot its slots point to, not from the slots, and one that does not grow
starts empty. So nothing stays, and the newest slots are what they were only
where they were empty.
-/

namespace SosFlow

namespace SosPub

/-- **The ring from the head on**: the newest slot first. -/
def ringOrder (pub : SosPub) : List CacheSlot := pub.slots.rotate pub.cacheHead.toNat

/-- **A cache that is allocated**: as many slots as the depth says, and the head
among them if there are any. -/
structure Allocated (pub : SosPub) : Prop where
  length : (pub.slots.length : ℤ) = pub.cacheDepth
  nonneg : 0 ≤ pub.cacheHead
  head : pub.cacheHead < pub.cacheDepth ∨ pub.cacheHead = 0

/-- **The newest slots stay**: there are as many slots as were asked for, and from
the head on they are the newest of the old ones, and then empty. -/
structure KeepsNewest (pub pub' : SosPub) (size : ℕ) : Prop where
  length : pub'.slots.length = size
  depth : pub'.cacheDepth = size
  ring : pub'.ringOrder =
    pub.ringOrder.take size ++ List.replicate (size - pub.slots.length) .null

/-- **The size keeps nothing**: it is not larger than the depth, and as many of the
newest slots are empty. -/
def NothingKept (pub : SosPub) (size : ℕ) : Prop :=
  size ≤ pub.slots.length ∧ ∀ s ∈ pub.ringOrder.take size, s = .null

instance (pub : SosPub) (size : ℕ) : Decidable (pub.NothingKept size) := by
  unfold NothingKept
  infer_instance

end SosPub

variable {pub pub' : SosPub} {size : ℕ}

/-- The rest of what a copy leaves is what was there. -/
theorem memcpySlots_some {array array' : List CacheSlot} {source : CacheSlot} {pos count : ℤ}
    (hcount : 0 < count) (h : memcpySlots array pos source count = .ok array') :
    source.snaps ≠ [] ∧ array' = array.take pos.toNat ++
      List.replicate count.toNat ⟨[], .stray⟩ ++ array.drop (pos + count).toNat := by
  unfold memcpySlots at h
  rw [if_neg (by omega), if_neg (by omega)] at h
  obtain ⟨snaps, last⟩ := source
  cases snaps with
  | nil =>
      split at h
      case h_1 => cases h
      case h_2 => cases h
      case h_3 hsnaps => cases hsnaps
  | cons snap rest =>
      dsimp only at h
      split at h
      · cases h
      split at h
      · cases h
      · exact ⟨List.cons_ne_nil _ _, (Except.ok.inj h).symm⟩

/-- **The slots of a cache that grew**: the first is what was read through the head,
and no pointer. -/
theorem growSlots_head {array : List CacheSlot} (hhead : pub.cacheHead < pub.cacheDepth)
    (h : growSlots pub size = .ok array) :
    (∃ top, pub.slot pub.cacheHead = .ok top ∧ top.snaps ≠ []) ∧
      array.head? = some ⟨[], .stray⟩ := by
  obtain ⟨top, htop, h⟩ := Outcome.bind_eq_ok.mp h
  obtain ⟨first, hfirst, h⟩ := Outcome.bind_eq_ok.mp h
  obtain ⟨hsnaps, hcopied⟩ := memcpySlots_some (by omega) hfirst
  obtain ⟨k, hk⟩ : ∃ k, (pub.cacheDepth - pub.cacheHead).toNat = k + 1 :=
    ⟨(pub.cacheDepth - pub.cacheHead).toNat - 1, by omega⟩
  have hstray : first.head? = some ⟨[], .stray⟩ := by
    rw [hcopied, hk]
    rfl
  refine ⟨⟨top, htop, hsnaps⟩, ?_⟩
  split at h
  case isTrue hpos =>
    obtain ⟨zero, -, h⟩ := Outcome.bind_eq_ok.mp h
    obtain ⟨-, hsecond⟩ := memcpySlots_some hpos h
    -- the second copy starts behind the first slot
    obtain ⟨m, hm⟩ : ∃ m, ((pub.cacheDepth - pub.cacheHead) * 8).toNat = m + 1 :=
      ⟨((pub.cacheDepth - pub.cacheHead) * 8).toNat - 1, by omega⟩
    cases first with
    | nil => cases hstray
    | cons s rest =>
        rw [hsecond, hm]
        exact hstray
  case isFalse =>
    obtain rfl := Except.ok.inj h
    exact hstray

namespace SosPub

/-- The ring has the slots of the array. -/
@[simp] theorem length_ringOrder (pub : SosPub) : pub.ringOrder.length = pub.slots.length :=
  List.length_rotate ..

/-- The ring starts with the slot at the head. -/
theorem Allocated.head_ringOrder (h : pub.Allocated) (hpos : 0 < pub.cacheDepth) {top : CacheSlot}
    (htop : pub.slot pub.cacheHead = .ok top) : pub.ringOrder.head? = some top := by
  have hlength := h.length
  have hnonneg := h.nonneg
  have hlt : pub.cacheHead.toNat < pub.slots.length := by
    rcases h.head with hlt | hzero
    · omega
    · omega
  rw [slot, if_neg (by omega), List.getElem?_eq_getElem hlt] at htop
  rw [ringOrder, List.rotate_eq_drop_append_take hlt.le, List.drop_eq_getElem_cons hlt]
  exact congrArg some (Except.ok.inj htop)

/-- A cache whose head is its first slot is in the order of its ring. -/
theorem ringOrder_of_head_zero (h : pub.cacheHead = 0) : pub.ringOrder = pub.slots := by
  rw [ringOrder, h]
  exact List.rotate_zero _

/-- **A growth keeps nothing.** -/
theorem Allocated.not_keepsNewest_grown (h : pub.Allocated) {toSize : CInt}
    (hgrow : pub.cacheDepth < toSize.toInt.toNat) (hresize : sosdResizeCache pub toSize = .ok pub') :
    ¬ pub.KeepsNewest pub' toSize.toInt.toNat := by
  intro hkeeps
  obtain ⟨array, harray, hpub'⟩ := Outcome.bind_eq_ok.mp hresize
  obtain rfl := Except.ok.inj hpub'
  rw [resizeSlots, if_pos hgrow] at harray
  have hlength := h.length
  have hnonneg := h.nonneg
  by_cases hpos : 0 < pub.cacheDepth
  · have hhead : pub.cacheHead < pub.cacheDepth := by
      rcases h.head with hlt | hzero
      · exact hlt
      · omega
    obtain ⟨⟨top, htop, hsnaps⟩, hfirst⟩ := growSlots_head hhead harray
    have hring := hkeeps.ring
    rw [ringOrder_of_head_zero rfl] at hring
    have hold := h.head_ringOrder hpos htop
    cases hcons : pub.ringOrder with
    | nil =>
        rw [hcons] at hold
        cases hold
    | cons s rest =>
        rw [hcons] at hold hring
        obtain rfl := Option.some.inj hold
        obtain ⟨n, hn⟩ : ∃ n, toSize.toInt.toNat = n + 1 := ⟨toSize.toInt.toNat - 1, by omega⟩
        rw [hn, List.take_succ_cons] at hring
        have hsame := congrArg List.head? hring
        change array.head? = some s at hsame
        rw [hfirst] at hsame
        obtain rfl := Option.some.inj hsame
        exact hsnaps rfl
  · -- there is no slot to copy from
    obtain ⟨top, htop, -⟩ := Outcome.bind_eq_ok.mp harray
    rw [slot_outside (.inr (by omega))] at htop
    cases htop

end SosPub

/-- **The newest slots stay exactly where there is nothing to keep**: the size asked
for is not larger, and the slots that should stay are empty. -/
theorem cacheResize_keeps_iff (h : pub.Allocated) (toSize : CInt) :
    (∃ pub', sosdResizeCache pub toSize = .ok pub' ∧ pub.KeepsNewest pub' toSize.toInt.toNat) ↔
      pub.NothingKept toSize.toInt.toNat := by
  have hlength := h.length
  by_cases hgrow : pub.cacheDepth < toSize.toInt.toNat
  · constructor
    · rintro ⟨pub', hresize, hkeeps⟩
      exact absurd hkeeps (h.not_keepsNewest_grown hgrow hresize)
    · rintro ⟨hle, -⟩
      omega
  · have hle : toSize.toInt.toNat ≤ pub.slots.length := by omega
    have hzero : toSize.toInt.toNat - pub.slots.length = 0 := by omega
    have hresize : sosdResizeCache pub toSize = .ok { pub with
        cache := some (List.replicate toSize.toInt.toNat .null)
        cacheHead := 0
        cacheDepth := toSize.toInt.toNat } :=
      Outcome.bind_eq_ok.mpr ⟨_, if_neg hgrow, rfl⟩
    have htake : pub.ringOrder.take toSize.toInt.toNat =
        List.replicate toSize.toInt.toNat .null ↔
          ∀ s ∈ pub.ringOrder.take toSize.toInt.toNat, s = .null := by
      rw [List.eq_replicate_iff, List.length_take, SosPub.length_ringOrder]
      exact and_iff_right (min_eq_left hle)
    constructor
    · rintro ⟨pub', hresize', hkeeps⟩
      obtain rfl := Except.ok.inj (hresize.symm.trans hresize')
      have hring := hkeeps.ring
      rw [SosPub.ringOrder_of_head_zero rfl, hzero, List.replicate_zero, List.append_nil] at hring
      exact ⟨hle, htake.mp hring.symm⟩
    · rintro ⟨-, hempty⟩
      refine ⟨_, hresize, List.length_replicate, rfl, ?_⟩
      rw [SosPub.ringOrder_of_head_zero rfl, hzero, List.replicate_zero, List.append_nil]
      exact (htake.mpr hempty).symm

/-- Two empty slots, of which one is kept. -/
theorem cacheResize_keeps_empty :
    ∃ pub, SosPub.Allocated pub ∧ ∃ pub', sosdResizeCache pub 1 = .ok pub' ∧
      pub.KeepsNewest pub' 1 := by
  have h : SosPub.Allocated { (default : SosPub) with
      cache := some [.null, .null]
      cacheHead := 1
      cacheDepth := 2 } := ⟨rfl, by decide, by decide⟩
  exact ⟨_, h, (cacheResize_keeps_iff h 1).mpr (by decide)⟩

/-- **A request for the depth there is empties the cache.** -/
theorem not_cacheResize_keeps :
    ∃ (pub : SosPub) (toSize : CInt), pub.Allocated ∧ pub.cacheDepth = toSize.toInt ∧
      ¬ ∃ pub', sosdResizeCache pub toSize = .ok pub' ∧
        pub.KeepsNewest pub' toSize.toInt.toNat := by
  refine ⟨{ (default : SosPub) with
    cache := some [⟨[default], .null⟩]
    cacheHead := 0
    cacheDepth := 1 }, 1, ⟨rfl, by decide, by decide⟩, by decide, ?_⟩
  rintro ⟨pub', hresize, hkeeps⟩
  obtain rfl := Except.ok.inj hresize
  have hring := congrArg (List.map CacheSlot.snaps) hkeeps.ring
  exact absurd hring (by decide)

end SosFlow
