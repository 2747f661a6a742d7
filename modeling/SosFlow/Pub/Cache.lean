import SosFlow.Pub.Types
import SosFlow.Lib.Outcome
import Mathlib.Data.List.Basic

/-!
# The frame cache of a publication

`pub->cache` is a ring of snapshot lists: `cache_depth` slots, the newest
list at `cache_head`, and each new list put one slot in front of it. Five
operations use it. An ANNOUNCE allocates it, a list of received snapshots
goes in front, a daemon links its own snapshots into the newest list, a
CACHE_SIZE message replaces the array, and a query walks the ring from the
head.

A call on the cache may stop in a fault. The one this file is about is
`outside`: the use of a slot that the array does not have.
-/

namespace SosFlow

open Outcome

/-- What stops a call on a cache: a slot outside the array, a snapshot read
through `NULL`, a chain that does not end in `NULL`, or a read behind the end
of a snapshot. -/
inductive CacheFault where
  | outside
  | nullSnap
  | badChain
  | pastSnap
deriving DecidableEq

namespace CacheSlot

/-- `cache[i]->frame`. -/
def frame (s : CacheSlot) : Except CacheFault CLong :=
  match s.snaps, s.last with
  | snap :: _, _ => .ok snap.frame
  | [], .null => .error .nullSnap
  | [], _ => .error .badChain

end CacheSlot

namespace SosPub

/-- The slots that are allocated. -/
def slots (pub : SosPub) : List CacheSlot := pub.cache.getD []

/-- `pub->cache[pos]`. -/
def slot (pub : SosPub) (pos : ℤ) : Except CacheFault CacheSlot :=
  if pos < 0 then .error .outside
  else match pub.slots[pos.toNat]? with
    | some s => .ok s
    | none => .error .outside

/-- `pub->cache[pos] = s`. -/
def setSlot (pub : SosPub) (pos : ℤ) (s : CacheSlot) : SosPub :=
  { pub with cache := pub.cache.map fun slots => slots.set pos.toNat s }

/-- `calloc(depth, sizeof(SOS_val_snap *))`, which fails when the size of a
negative depth wraps. -/
def callocSlots (depth : ℤ) : Option (List CacheSlot) :=
  if depth < 0 then none else some (List.replicate depth.toNat .null)

/-- What `SOS_announce_from_buffer` does to the cache: it takes the depth it
reads, and allocates an array only if there is none. -/
def announceCache (pub : SosPub) (depth : ℤ) : SosPub :=
  { pub with cacheDepth := depth, cache := pub.cache.or (callocSlots depth) }

/-- The slot in front of the head, around the end of the ring. -/
def insertPos (pub : SosPub) : ℤ :=
  if pub.cacheHead = 0 then pub.cacheDepth - 1 else pub.cacheHead - 1

end SosPub

/-- **`SOS_pack_snap_list_into_pub_cache`.** The list in the way is
destroyed first, snapshot by snapshot. -/
def sosPackSnapListIntoPubCache (pub : SosPub) (list : List SosValSnap) :
    Except CacheFault SosPub :=
  if pub.cacheDepth < 1 then .ok pub
  else match list with
    | [] => .ok pub
    | first :: rest =>
      if pub.pubMeta.nature = natureSos then .ok pub
      else do
        let old ← pub.slot pub.insertPos
        if old.last = .null then
          .ok { pub.setSlot pub.insertPos ⟨first :: rest, .null⟩ with
            frame := if pub.frame.toInt < first.frame.toInt then first.frame else pub.frame
            cacheHead := pub.insertPos }
        else .error .badChain

/-- The newest list behind `snap`, when `snap` is linked in front of it. A
list that was just made of `snap` alone is `snap` itself. -/
def CacheSlot.link (top : CacheSlot) (snap : SosValSnap) (alone : Bool) : CacheSlot :=
  if alone then ⟨[snap], .loop⟩ else ⟨snap :: top.snaps, top.last⟩

/-- A snapshot of another frame than the one in slot 0 starts a list. -/
def startFrame (pub : SosPub) (snap : SosValSnap) (frame : CLong) : Except CacheFault SosPub :=
  if frame = snap.frame then .ok pub else sosPackSnapListIntoPubCache pub [snap]

/-- **`SOS_pack_snap_add_to_pub_cache`** of a daemon. -/
def sosPackSnapAddToPubCache (pub : SosPub) (snap : SosValSnap) : Except CacheFault SosPub :=
  if pub.cacheDepth < 1 then .ok pub
  else do
    let first ← pub.slot 0
    let frame ← first.frame
    let pub' ← startFrame pub snap frame
    let top ← pub'.slot pub'.cacheHead
    .ok (pub'.setSlot pub'.cacheHead
      (top.link snap (frame ≠ snap.frame ∧ pub.pubMeta.nature ≠ natureSos)))

/-- How many pointers' worth of bytes a snapshot has:
`sizeof(SOS_val_snap) / sizeof(SOS_val_snap *)`. -/
def snapSlots : ℤ := 13

/-- `memcpy` of `count` pointers' worth of bytes into an array of slots. Its
source is the one snapshot that a slot points to, so what arrives are no
pointers, and there are no more of them than the snapshot has bytes for. -/
def memcpySlots (array : List CacheSlot) (pos : ℤ) (source : CacheSlot) (count : ℤ) :
    Except CacheFault (List CacheSlot) :=
  if count = 0 then .ok array
  else if count < 0 then .error .outside
  else match source.snaps, source.last with
    | [], .null => .error .nullSnap
    | [], _ => .error .badChain
    | _ :: _, _ =>
      if array.length < pos + count then .error .outside
      else if snapSlots < count then .error .pastSnap
      else .ok (array.take pos.toNat ++ List.replicate count.toNat ⟨[], .stray⟩ ++
        array.drop (pos + count).toNat)

/-- The new array of a cache that grows: the slots from the head on, and the
others that many bytes, not slots, behind the first. The two numbers of bytes
are an `int` in the source, which holds them for caches of less than 2^28
slots. -/
def growSlots (pub : SosPub) (size : ℕ) : Except CacheFault (List CacheSlot) := do
  let headCount := pub.cacheDepth - pub.cacheHead
  let top ← pub.slot pub.cacheHead
  let array ← memcpySlots (List.replicate size .null) 0 top headCount
  if 0 < pub.cacheHead then do
    let zero ← pub.slot 0
    memcpySlots array (headCount * 8) zero pub.cacheHead
  else .ok array

/-- The new array of a cache of another size: one that does not grow starts
empty. -/
def resizeSlots (pub : SosPub) (size : ℕ) : Except CacheFault (List CacheSlot) :=
  if pub.cacheDepth < size then growSlots pub size else .ok (List.replicate size .null)

/-- **`SOSD_handle_cache_size`**, on the pub it found. -/
def sosdResizeCache (pub : SosPub) (toSize : CInt) : Except CacheFault SosPub := do
  let array ← resizeSlots pub toSize.toInt.toNat
  .ok { pub with cache := some array, cacheHead := 0, cacheDepth := toSize.toInt.toNat }

/-- The position behind `pos`, around the end of the ring. -/
def SosPub.nextPos (pub : SosPub) (pos : ℤ) : ℤ :=
  if pos + 1 = pub.cacheDepth then 0 else pos + 1

/-- The list in a slot is newer than a query wants, which `-1` never is. -/
def CacheSlot.newerThan (s : CacheSlot) (frameHead : ℤ) : Except CacheFault Bool :=
  if frameHead = -1 then .ok false
  else do
    let frame ← s.frame
    .ok (decide (frameHead < frame.toInt))

/-- **The walk of `SOSA_cache_to_results`** through one pub's cache: the
lists it grabs. `stopPos` is `-1` until the first round is under way. -/
def cacheWalk (pub : SosPub) (frameHead depthLimit : ℤ) :
    ℕ → ℤ → ℤ → ℤ → Except CacheFault (List CacheSlot)
  | 0, _, _, _ => .ok []
  | rounds + 1, readPos, stopPos, grabbed =>
    if readPos ≠ stopPos ∧ (grabbed < depthLimit ∨ depthLimit = -1) then do
      let s ← pub.slot readPos
      let newer ← s.newerThan frameHead
      if newer then
        cacheWalk pub frameHead depthLimit rounds (pub.nextPos readPos) pub.cacheHead grabbed
      else match s.snaps, s.last with
        | [], .null => .ok []
        | _, .null => do
          let others ← cacheWalk pub frameHead depthLimit rounds (pub.nextPos readPos)
            pub.cacheHead (grabbed + 1)
          .ok (s :: others)
        | _, _ => .error .badChain
    else .ok []

/-- **`SOSA_cache_to_results`** on one pub whose title matches. -/
def sosaCacheToResults (pub : SosPub) (frameHead depthLimit : ℤ) (rounds : ℕ) :
    Except CacheFault (List CacheSlot) :=
  if 0 < pub.cacheDepth then cacheWalk pub frameHead depthLimit rounds pub.cacheHead (-1) 0
  else .ok []

/-! ## The shape of a cache -/

/-- **The depth is what it says**: a pub that caches has that many slots, and
its head is one of them. -/
def SosPub.CacheShape (pub : SosPub) : Prop :=
  0 < pub.cacheDepth → ∃ slots, pub.cache = some slots ∧ (slots.length : ℤ) = pub.cacheDepth ∧
    0 ≤ pub.cacheHead ∧ pub.cacheHead < pub.cacheDepth

/-- **The shape, as an invariant**: the head of an array is in it also while
the depth says that nothing is cached. -/
structure SosPub.CacheSound (pub : SosPub) : Prop where
  depth : 0 < pub.cacheDepth → (pub.slots.length : ℤ) = pub.cacheDepth
  nonneg : 0 ≤ pub.cacheHead
  head_lt : pub.cacheHead = 0 ∨ pub.cacheHead < pub.slots.length

/-- A call that stays inside the arrays it uses. -/
abbrev Inside {α : Type} (post : α → Prop) : Except CacheFault α → Prop :=
  Leaves (· ≠ .outside) post

namespace SosPub

variable {pub : SosPub} {pos : ℤ}

theorem CacheSound.head (h : pub.CacheSound) (hpos : 0 < pub.cacheDepth) :
    pub.cacheHead < pub.cacheDepth := by
  have hdepth := h.depth hpos
  rcases h.head_lt with hzero | hlt
  · omega
  · omega

theorem CacheSound.shape (h : pub.CacheSound) : pub.CacheShape := by
  intro hpos
  have hdepth := h.depth hpos
  cases hcache : pub.cache with
  | none =>
      rw [slots, hcache] at hdepth
      simp only [Option.getD_none, List.length_nil] at hdepth
      omega
  | some slots =>
      rw [SosPub.slots, hcache, Option.getD_some] at hdepth
      exact ⟨slots, rfl, hdepth, h.nonneg, h.head hpos⟩

/-- A slot the array has can be read. -/
theorem slot_inside (hnonneg : 0 ≤ pos) (hlt : pos < pub.slots.length) :
    Inside (fun _ => True) (pub.slot pos) := by
  have hget : pos.toNat < pub.slots.length := by omega
  rw [slot, if_neg (by omega), List.getElem?_eq_getElem hget]
  trivial

/-- **Reading any other slot is the fault.** -/
theorem slot_outside (h : pos < 0 ∨ (pub.slots.length : ℤ) ≤ pos) :
    pub.slot pos = .error .outside := by
  rcases h with hneg | hle
  · rw [slot, if_pos hneg]
  · rw [slot, if_neg (by omega), List.getElem?_eq_none (by omega)]

@[simp] theorem length_slots_setSlot (s : CacheSlot) :
    (pub.setSlot pos s).slots.length = pub.slots.length := by
  unfold slots setSlot
  cases pub.cache with
  | none => rfl
  | some slots => exact List.length_set

theorem insertPos_mem (h : pub.CacheSound) (hpos : 0 < pub.cacheDepth) :
    0 ≤ pub.insertPos ∧ pub.insertPos < pub.cacheDepth := by
  have hnonneg := h.nonneg
  have hlt := h.head hpos
  unfold insertPos
  split
  · omega
  · omega

end SosPub

section

variable {pub : SosPub}

/-- A pub as it is made has a sound cache if its depth does not say
otherwise. -/
theorem cacheSound_init {config : SosConfig} {guid : SosGuid} {title : CString} {nature : CInt}
    {newSize : ℕ} (h : config.pubCacheDepth = 0) :
    (sosPubInitSized config guid title nature newSize).CacheSound where
  depth hpos := by simp [sosPubInitSized, h] at hpos
  nonneg := le_refl 0
  head_lt := .inl rfl

/-- Only the three cache fields matter. -/
theorem SosPub.CacheSound.congr {pub' : SosPub} (h : pub.CacheSound) (hcache : pub'.cache = pub.cache)
    (hhead : pub'.cacheHead = pub.cacheHead) (hdepth : pub'.cacheDepth = pub.cacheDepth) :
    pub'.CacheSound := by
  have hslots : pub'.slots = pub.slots := by rw [SosPub.slots, hcache, SosPub.slots]
  constructor
  · rw [hslots, hdepth]
    exact h.depth
  · rw [hhead]
    exact h.nonneg
  · rw [hslots, hhead]
    exact h.head_lt

/-- **A first ANNOUNCE** gives a pub without an array the one its depth says. -/
theorem SosPub.cacheSound_announce (hcache : pub.cache = none) (hhead : pub.cacheHead = 0)
    (depth : ℤ) : (pub.announceCache depth).CacheSound := by
  refine ⟨?_, hhead.ge, .inl hhead⟩
  intro hpos
  have hpos' : 0 < depth := hpos
  simp only [SosPub.slots, announceCache, hcache, Option.none_or, callocSlots,
    if_neg (not_lt.mpr hpos'.le), Option.getD_some, List.length_replicate]
  omega

/-- **Another ANNOUNCE keeps the cache sound** unless it gives an array that
is there another depth. -/
theorem SosPub.CacheSound.announce (h : pub.CacheSound) {depth : ℤ}
    (hdepth : pub.cache = none ∨ depth ≤ 0 ∨ depth = pub.slots.length) :
    (pub.announceCache depth).CacheSound := by
  cases hcache : pub.cache with
  | none =>
      refine SosPub.cacheSound_announce hcache ?_ depth
      have hnonneg := h.nonneg
      have hlt := h.head_lt
      rw [SosPub.slots, hcache, Option.getD_none, List.length_nil] at hlt
      omega
  | some slots =>
      have hslots : (pub.announceCache depth).slots = pub.slots := by
        simp only [SosPub.slots, announceCache, hcache, Option.some_or]
      refine ⟨?_, h.nonneg, hslots ▸ h.head_lt⟩
      intro hpos
      have hpos' : 0 < depth := hpos
      rcases hdepth with hnone | hle | heq
      · exact absurd (hcache.symm.trans hnone) (by simp)
      · omega
      · rw [hslots]
        exact heq.symm

theorem SosPub.CacheSound.setSlot (h : pub.CacheSound) (pos : ℤ) (s : CacheSlot) :
    (pub.setSlot pos s).CacheSound where
  depth hpos := (congrArg Nat.cast (SosPub.length_slots_setSlot s)).trans (h.depth hpos)
  nonneg := h.nonneg
  head_lt := by
    rw [SosPub.length_slots_setSlot]
    exact h.head_lt

/-- **Putting a list in front stays inside a sound cache**, and keeps it
sound. -/
theorem sosPackSnapListIntoPubCache_inside (h : pub.CacheSound) (list : List SosValSnap) :
    Inside (fun pub' => pub'.CacheSound ∧ pub'.cacheDepth = pub.cacheDepth)
      (sosPackSnapListIntoPubCache pub list) := by
  unfold sosPackSnapListIntoPubCache
  by_cases hdepth : pub.cacheDepth < 1
  · rw [if_pos hdepth]
    exact ⟨h, rfl⟩
  rw [if_neg hdepth]
  cases list with
  | nil => exact ⟨h, rfl⟩
  | cons first rest =>
      by_cases hnature : pub.pubMeta.nature = natureSos
      · simp only [if_pos hnature]
        exact ⟨h, rfl⟩
      simp only [if_neg hnature]
      obtain ⟨hnonneg, hlt⟩ := SosPub.insertPos_mem h (by omega)
      have hlen := h.depth (by omega)
      refine (SosPub.slot_inside hnonneg (by omega)).bind fun old _ => ?_
      split
      case isTrue =>
        have hset := h.setSlot pub.insertPos ⟨first :: rest, .null⟩
        refine ⟨⟨hset.depth, hnonneg, .inr ?_⟩, rfl⟩
        change pub.insertPos < ((pub.setSlot pub.insertPos _).slots.length : ℤ)
        rw [SosPub.length_slots_setSlot]
        omega
      case isFalse => simp

/-- The slot a list goes into is in the array, and the list that is there ends. -/
def SosPub.TakesList (pub : SosPub) : Prop :=
  ∃ old, pub.slot pub.insertPos = .ok old ∧ old.last = .null

instance (pub : SosPub) : Decidable pub.TakesList :=
  match h : pub.slot pub.insertPos with
  | .ok old => decidable_of_iff (old.last = .null)
      ⟨fun hlast => ⟨old, h, hlast⟩, fun ⟨_, hslot, hlast⟩ => by cases h.symm.trans hslot; exact hlast⟩
  | .error _ => isFalse fun ⟨_, hslot, _⟩ => by cases h.symm.trans hslot

/-- **A cache that takes what it receives**: it is sound, and every list in it ends. -/
structure SosPub.CacheReady (pub : SosPub) : Prop where
  sound : pub.CacheSound
  ended : ∀ s ∈ pub.slots, s.last = .null

theorem SosPub.CacheReady.takesList (h : pub.CacheReady) (hpos : 0 < pub.cacheDepth) :
    pub.TakesList := by
  obtain ⟨hnonneg, hlt⟩ := SosPub.insertPos_mem h.sound hpos
  have hlen := h.sound.depth hpos
  have hget : pub.insertPos.toNat < pub.slots.length := by omega
  refine ⟨pub.slots[pub.insertPos.toNat], ?_, h.ended _ (List.getElem_mem hget)⟩
  rw [SosPub.slot, if_neg (by omega), List.getElem?_eq_getElem hget]

/-- **A pub that can receive**: if it keeps lists, there is a slot for another. A sound
cache whose lists end always has one. -/
def SosPub.CanReceive (pub : SosPub) : Prop :=
  0 < pub.cacheDepth → pub.pubMeta.nature ≠ natureSos → pub.TakesList

instance (pub : SosPub) : Decidable pub.CanReceive := by
  unfold SosPub.CanReceive
  infer_instance

/-- A cache that is ready has one. -/
theorem SosPub.CacheReady.canReceive (h : pub.CacheReady) : pub.CanReceive :=
  fun hpos _ => h.takesList hpos

/-- A list that ends may replace another one. -/
theorem SosPub.ended_setSlot (h : ∀ s ∈ pub.slots, s.last = .null) (pos : ℤ)
    (snaps : List SosValSnap) : ∀ s ∈ (pub.setSlot pos ⟨snaps, .null⟩).slots, s.last = .null := by
  intro s hmem
  unfold SosPub.slots SosPub.setSlot at *
  cases hcache : pub.cache with
  | none =>
      rw [hcache] at hmem
      exact absurd hmem List.not_mem_nil
  | some slots =>
      rw [hcache] at hmem h
      rcases List.mem_or_eq_of_mem_set hmem with hold | rfl
      · exact h s hold
      · rfl

/-- **Putting a list in front returns** where there is a slot for it. -/
theorem sosPackSnapListIntoPubCache_returns (h : 0 < pub.cacheDepth → pub.TakesList)
    (list : List SosValSnap) : ∃ pub', sosPackSnapListIntoPubCache pub list = .ok pub' ∧
      ((∀ s ∈ pub.slots, s.last = .null) → ∀ s ∈ pub'.slots, s.last = .null) := by
  unfold sosPackSnapListIntoPubCache
  by_cases hdepth : pub.cacheDepth < 1
  · rw [if_pos hdepth]
    exact ⟨pub, rfl, id⟩
  rw [if_neg hdepth]
  cases list with
  | nil => exact ⟨pub, rfl, id⟩
  | cons first rest =>
      by_cases hnature : pub.pubMeta.nature = natureSos
      · simp only [if_pos hnature]
        exact ⟨pub, rfl, id⟩
      simp only [if_neg hnature]
      obtain ⟨old, hold, hlast⟩ := h (by omega)
      refine ⟨_, bind_eq_ok.mpr ⟨old, hold, if_pos hlast⟩, fun hended => ?_⟩
      exact SosPub.ended_setSlot hended pub.insertPos (first :: rest)

/-- **A ready cache takes every list**, and stays ready. -/
theorem SosPub.CacheReady.pack (h : pub.CacheReady) (list : List SosValSnap) :
    ∃ pub', sosPackSnapListIntoPubCache pub list = .ok pub' ∧ pub'.CacheReady := by
  obtain ⟨pub', hpub', hended⟩ := sosPackSnapListIntoPubCache_returns h.takesList list
  exact ⟨pub', hpub', ((sosPackSnapListIntoPubCache_inside h.sound list).of_ok hpub').1,
    hended h.ended⟩

/-- Reading a frame uses no slot. -/
theorem CacheSlot.frame_inside (s : CacheSlot) : Inside (fun _ => True) s.frame := by
  unfold CacheSlot.frame
  split <;> simp

/-- **Linking a snapshot of the daemon's own** stays inside as well. -/
theorem sosPackSnapAddToPubCache_inside (h : pub.CacheSound) (snap : SosValSnap) :
    Inside SosPub.CacheSound (sosPackSnapAddToPubCache pub snap) := by
  unfold sosPackSnapAddToPubCache
  by_cases hdepth : pub.cacheDepth < 1
  · rw [if_pos hdepth]
    exact h
  rw [if_neg hdepth]
  have hlen := h.depth (by omega)
  refine (SosPub.slot_inside le_rfl (by omega)).bind fun first _ => ?_
  refine first.frame_inside.bind fun frame _ => ?_
  have hlist : Inside (fun pub' => pub'.CacheSound ∧ pub'.cacheDepth = pub.cacheDepth)
      (startFrame pub snap frame) := by
    unfold startFrame
    split
    case isTrue => exact ⟨h, rfl⟩
    case isFalse => exact sosPackSnapListIntoPubCache_inside h [snap]
  refine hlist.bind fun pub' ⟨hsound, hsame⟩ => ?_
  have hlt := hsound.head (by omega)
  have hlen' := hsound.depth (by omega)
  refine (SosPub.slot_inside hsound.nonneg (by omega)).bind fun top _ => ?_
  exact hsound.setSlot pub'.cacheHead _

/-! ## What is no cache -/

/-- **The same pub with another cache**: nothing else but the frame may have changed. -/
def SosPub.Recached (pub pub' : SosPub) : Prop :=
  { pub' with cache := pub.cache, cacheHead := pub.cacheHead, frame := pub.frame } = pub

namespace SosPub.Recached

theorem refl : pub.Recached pub := rfl

theorem trans {pub' pub'' : SosPub} (h : pub.Recached pub') (h' : pub'.Recached pub'') :
    pub.Recached pub'' := by
  have hfields := congrArg (fun p : SosPub =>
    { p with cache := pub.cache, cacheHead := pub.cacheHead, frame := pub.frame }) h'
  exact hfields.trans h

variable {pub' : SosPub}

theorem data (h : pub.Recached pub') : pub'.data = pub.data := by
  have hfield := congrArg SosPub.data h
  exact hfield

theorem spare (h : pub.Recached pub') : pub'.spare = pub.spare := by
  have hfield := congrArg SosPub.spare h
  exact hfield

theorem cacheDepth (h : pub.Recached pub') : pub'.cacheDepth = pub.cacheDepth := by
  have hfield := congrArg SosPub.cacheDepth h
  exact hfield

end SosPub.Recached

/-- **Putting a list in front** changes the cache and the frame. -/
theorem sosPackSnapListIntoPubCache_recached (pub : SosPub) (list : List SosValSnap) :
    Leaves (fun _ => True) pub.Recached (sosPackSnapListIntoPubCache pub list) := by
  have hslot : Leaves (fun _ => True) (fun _ => True) (pub.slot pub.insertPos) := by
    cases pub.slot pub.insertPos <;> trivial
  unfold sosPackSnapListIntoPubCache
  split
  case isTrue => exact .refl
  case isFalse =>
    cases list with
    | nil => exact SosPub.Recached.refl
    | cons first rest =>
        dsimp only
        split
        case isTrue => exact .refl
        case isFalse =>
          refine hslot.bind fun old _ => ?_
          split
          case isTrue => exact (rfl : pub.Recached _)
          case isFalse => trivial

/-- **So does linking a snapshot of the daemon's own.** -/
theorem sosPackSnapAddToPubCache_recached (pub : SosPub) (snap : SosValSnap) :
    Leaves (fun _ => True) pub.Recached (sosPackSnapAddToPubCache pub snap) := by
  have hany : ∀ {α : Type} (r : Except CacheFault α), Leaves (fun _ => True) (fun _ => True) r := by
    intro α r
    cases r <;> trivial
  unfold sosPackSnapAddToPubCache
  split
  case isTrue => exact .refl
  case isFalse =>
    refine (hany (pub.slot 0)).bind fun first _ => ?_
    refine (hany first.frame).bind fun frame _ => ?_
    have hstart : Leaves (fun _ => True) pub.Recached (startFrame pub snap frame) := by
      unfold startFrame
      split
      case isTrue => exact .refl
      case isFalse => exact sosPackSnapListIntoPubCache_recached pub [snap]
    refine hstart.bind fun pub' hpub' => ?_
    exact (hany (pub'.slot pub'.cacheHead)).bind fun top _ => hpub'.trans (rfl : pub'.Recached _)

/-! ## Growth -/

/-- A copy that ends in the array it goes to stays inside. -/
theorem memcpySlots_inside {array : List CacheSlot} {pos count : ℤ} (source : CacheSlot)
    (hpos : 0 ≤ pos) (hcount : 0 ≤ count) (h : pos + count ≤ array.length) :
    Inside (fun array' => array'.length = array.length) (memcpySlots array pos source count) := by
  unfold memcpySlots
  split
  case isTrue => exact rfl
  case isFalse hne =>
    rw [if_neg (by omega)]
    split
    · simp
    · simp
    · rw [if_neg (by omega)]
      split
      · simp
      change List.length _ = _
      simp only [List.length_append, List.length_take, List.length_replicate, List.length_drop]
      omega

/-- **Where the growth of a cache stays inside**: its head is a slot, and the
slots in front of the head, which go that many bytes further, still have room. -/
def SosPub.GrowthFits (pub : SosPub) (size : ℤ) : Prop :=
  pub.cacheHead < pub.slots.length ∧ pub.cacheHead ≤ pub.cacheDepth ∧
    (pub.cacheHead = 0 ∨ (pub.cacheDepth - pub.cacheHead) * 8 + pub.cacheHead ≤ size)

instance (pub : SosPub) (size : ℤ) : Decidable (pub.GrowthFits size) := by
  unfold SosPub.GrowthFits
  infer_instance

theorem growSlots_inside (h : pub.CacheSound) {size : ℕ} (hsize : pub.cacheDepth < size)
    (hfits : pub.GrowthFits size) :
    Inside (fun array => array.length = size) (growSlots pub size) := by
  obtain ⟨hhead, hle, hroom⟩ := hfits
  have hnonneg := h.nonneg
  unfold growSlots
  refine (SosPub.slot_inside hnonneg hhead).bind fun top _ => ?_
  have hfirst : Inside (fun array => array.length = size)
      (memcpySlots (List.replicate size .null) 0 top (pub.cacheDepth - pub.cacheHead)) := by
    refine (memcpySlots_inside top le_rfl (by omega) ?_).mono fun array hlen => ?_
    · rw [List.length_replicate]
      omega
    · exact hlen.trans List.length_replicate
  refine hfirst.bind fun array hlen => ?_
  split
  case isTrue hpos =>
    refine (SosPub.slot_inside le_rfl (by omega)).bind fun zero _ => ?_
    refine (memcpySlots_inside zero (by omega) hnonneg (by omega)).mono ?_
    intro array' hlen'
    exact hlen'.trans hlen
  case isFalse => exact hlen

/-- The slot at a position holds a snapshot. -/
def SosPub.HoldsSnap (pub : SosPub) (pos : ℤ) : Prop := (pub.slots[pos.toNat]?.getD .null).snaps ≠ []

/-- **Where the growth of a cache returns**: it fits, each slot that a copy reads
through holds a snapshot to read, and no copy is longer than that. -/
structure SosPub.Growable (pub : SosPub) (size : ℤ) : Prop where
  fits : pub.GrowthFits size
  nonneg : 0 ≤ pub.cacheHead
  short : pub.cacheDepth - pub.cacheHead ≤ snapSlots ∧ pub.cacheHead ≤ snapSlots
  top : pub.cacheHead < pub.cacheDepth → pub.HoldsSnap pub.cacheHead
  zero : 0 < pub.cacheHead → pub.HoldsSnap 0

instance (pub : SosPub) (size : ℤ) : Decidable (pub.Growable size) :=
  decidable_of_iff (pub.GrowthFits size ∧ 0 ≤ pub.cacheHead ∧
    (pub.cacheDepth - pub.cacheHead ≤ snapSlots ∧ pub.cacheHead ≤ snapSlots) ∧
    (pub.cacheHead < pub.cacheDepth → (pub.slots[pub.cacheHead.toNat]?.getD .null).snaps ≠ []) ∧
    (0 < pub.cacheHead → (pub.slots[(0 : ℤ).toNat]?.getD .null).snaps ≠ []))
    ⟨fun h => ⟨h.1, h.2.1, h.2.2.1, h.2.2.2.1, h.2.2.2.2⟩,
      fun h => ⟨h.fits, h.nonneg, h.short, h.top, h.zero⟩⟩

/-- A slot of the array is read. -/
theorem SosPub.slot_eq_ok {pos : ℤ} (hpos : 0 ≤ pos) (hlt : pos < pub.slots.length) :
    pub.slot pos = .ok (pub.slots[pos.toNat]?.getD .null) := by
  have hlt' : pos.toNat < pub.slots.length := by omega
  rw [SosPub.slot, if_neg (not_lt.mpr hpos), List.getElem?_eq_getElem hlt']
  rfl

/-- A copy of nothing, or one through a snapshot into the array, returns. -/
theorem memcpySlots_returns {array : List CacheSlot} {pos count : ℤ} {source : CacheSlot}
    (hpos : 0 ≤ pos) (hcount : 0 ≤ count) (hshort : count ≤ snapSlots)
    (hsource : 0 < count → source.snaps ≠ []) (hroom : pos + count ≤ array.length) :
    ∃ array', memcpySlots array pos source count = .ok array' ∧ array'.length = array.length := by
  have hinside := memcpySlots_inside source hpos hcount hroom
  by_cases hzero : count = 0
  · exact ⟨array, if_pos hzero, rfl⟩
  · obtain ⟨snaps, last⟩ := source
    cases snaps with
    | nil => exact absurd rfl (hsource (by omega))
    | cons snap rest =>
        unfold memcpySlots at hinside ⊢
        rw [if_neg hzero, if_neg (not_lt.mpr hcount)] at hinside ⊢
        dsimp only at hinside ⊢
        rw [if_neg (not_lt.mpr hroom), if_neg (not_lt.mpr hshort)] at hinside ⊢
        exact ⟨_, rfl, hinside⟩

theorem growSlots_returns {size : ℕ} (hsize : pub.cacheDepth < size) (h : pub.Growable size) :
    ∃ array, growSlots pub size = .ok array := by
  obtain ⟨hhead, hle, hroom⟩ := h.fits
  have hnonneg := h.nonneg
  have hlen : (List.replicate size CacheSlot.null).length = size := List.length_replicate
  have htop : ∃ array, memcpySlots (List.replicate size .null) 0
      (pub.slots[pub.cacheHead.toNat]?.getD .null) (pub.cacheDepth - pub.cacheHead) = .ok array ∧
      array.length = (List.replicate size CacheSlot.null).length := by
    refine memcpySlots_returns le_rfl (by omega) h.short.1 (fun hpos => h.top (by omega)) ?_
    rw [hlen]
    omega
  obtain ⟨first, hfirst, hfirstlen⟩ := htop
  unfold growSlots
  rw [SosPub.slot_eq_ok hnonneg hhead]
  by_cases hpos : 0 < pub.cacheHead
  · have hzero : ∃ array, memcpySlots first ((pub.cacheDepth - pub.cacheHead) * 8)
        (pub.slots[(0 : ℤ).toNat]?.getD .null) pub.cacheHead = .ok array ∧
        array.length = first.length := by
      refine memcpySlots_returns (by omega) hnonneg h.short.2 h.zero ?_
      rw [hfirstlen, hlen]
      omega
    obtain ⟨array, harray, -⟩ := hzero
    refine ⟨array, ?_⟩
    refine bind_eq_ok.mpr ⟨_, rfl, bind_eq_ok.mpr ⟨first, hfirst, ?_⟩⟩
    rw [if_pos hpos, SosPub.slot_eq_ok le_rfl (by omega)]
    exact harray
  · refine ⟨first, bind_eq_ok.mpr ⟨_, rfl, bind_eq_ok.mpr ⟨first, hfirst, ?_⟩⟩⟩
    rw [if_neg hpos]

/-- **A CACHE_SIZE that returns** leaves the depth it asks for, which is no longer
negative, and the elements as they are. -/
theorem sosdResizeCache_returns (toSize : CInt)
    (h : pub.cacheDepth < toSize.toInt.toNat → pub.Growable toSize.toInt.toNat) :
    ∃ pub', sosdResizeCache pub toSize = .ok pub' ∧ pub'.cacheDepth = toSize.toInt.toNat ∧
      pub'.data = pub.data := by
  have harray : ∃ array, resizeSlots pub toSize.toInt.toNat = .ok array := by
    unfold resizeSlots
    split
    case isTrue hgrow => exact growSlots_returns hgrow (h hgrow)
    case isFalse => exact ⟨_, rfl⟩
  obtain ⟨array, harray⟩ := harray
  exact ⟨_, bind_eq_ok.mpr ⟨array, harray, rfl⟩, rfl, rfl⟩

/-- **A CACHE_SIZE message keeps the cache sound** when it does not grow it,
or the growth fits. -/
theorem sosdResizeCache_inside (h : pub.CacheSound) (toSize : CInt)
    (hfits : pub.cacheDepth < toSize.toInt.toNat → pub.GrowthFits toSize.toInt.toNat) :
    Inside SosPub.CacheSound (sosdResizeCache pub toSize) := by
  unfold sosdResizeCache
  have harray : Inside (fun array : List CacheSlot => array.length = toSize.toInt.toNat)
      (resizeSlots pub toSize.toInt.toNat) := by
    unfold resizeSlots
    split
    case isTrue hgrow => exact growSlots_inside h hgrow (hfits hgrow)
    case isFalse => exact List.length_replicate
  refine harray.bind fun array hlen => ?_
  refine ⟨?_, le_rfl, .inl rfl⟩
  intro _
  exact congrArg Nat.cast hlen

/-- **The walk of a query stays inside**, however long it goes on. -/
theorem cacheWalk_inside (h : pub.CacheSound) (hpos : 0 < pub.cacheDepth)
    (frameHead depthLimit : ℤ) (rounds : ℕ) {readPos : ℤ} (stopPos grabbed : ℤ)
    (hnonneg : 0 ≤ readPos) (hlt : readPos < pub.cacheDepth) :
    Inside (fun _ => True) (cacheWalk pub frameHead depthLimit rounds readPos stopPos grabbed) := by
  induction rounds generalizing readPos stopPos grabbed with
  | zero => trivial
  | succ rounds ih =>
      have hlen := h.depth hpos
      have hnext : 0 ≤ pub.nextPos readPos ∧ pub.nextPos readPos < pub.cacheDepth := by
        unfold SosPub.nextPos
        split <;> omega
      unfold cacheWalk
      split
      case isFalse => trivial
      case isTrue =>
        refine (SosPub.slot_inside hnonneg (by omega)).bind fun s _ => ?_
        have hnewer : Inside (fun _ => True) (s.newerThan frameHead) := by
          unfold CacheSlot.newerThan
          split
          case isTrue => trivial
          case isFalse => exact s.frame_inside.bind fun frame _ => trivial
        refine hnewer.bind fun newer _ => ?_
        split
        case isTrue => exact ih _ _ hnext.1 hnext.2
        case isFalse =>
          split
          · trivial
          · exact (ih _ _ hnext.1 hnext.2).bind fun others _ => trivial
          · simp

/-- **A query stays inside a sound cache.** -/
theorem sosaCacheToResults_inside (h : pub.CacheSound) (frameHead depthLimit : ℤ) (rounds : ℕ) :
    Inside (fun _ => True) (sosaCacheToResults pub frameHead depthLimit rounds) := by
  unfold sosaCacheToResults
  split
  case isTrue hpos =>
    exact cacheWalk_inside h hpos frameHead depthLimit rounds (-1) 0 h.nonneg (h.head hpos)
  case isFalse => trivial

end

end SosFlow
