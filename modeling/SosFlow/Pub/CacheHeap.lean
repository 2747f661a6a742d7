import SosFlow.Pub.CacheResize
import SosFlow.Lib.Linked
import SosFlow.Lib.Ring

/-!
# The snapshots behind a cache

A slot of `pub->cache` is a pointer to a snapshot, and the snapshots of a list
are linked by `next_snap`. Here they are objects in memory, each named by when
it was allocated, so that one that was freed is not taken for another.

`Holds` says which objects each slot leads to. Putting a list in front
destroys the objects of the oldest slot, each once, and no others
(`packList_holds`), and on the lists it is the call on a cache of lists.
-/

namespace SosFlow

open Linked Outcome

/-- **A snapshot in memory**: which object it is, and what is in it. -/
abbrev SnapObject := ℕ × SosValSnap

/-- **A pub with its cache in memory.** `pub` is read for everything but the slots;
`destroyed` are the objects `SOS_val_snap_destroy` was called on. -/
structure HeapPub where
  pub : SosPub
  cache : List (Option ℕ)
  mem : Memory ℕ SosValSnap
  fresh : ℕ
  destroyed : List ℕ

/-- The pub when a list with a frame has been put in front. -/
def SosPub.withFront (pub : SosPub) (frame : CLong) : SosPub :=
  { pub with
    frame := if pub.frame.toInt < frame.toInt then frame else pub.frame
    cacheHead := pub.insertPos }

/-- A list is put into the slot in front. -/
theorem sosPackSnapListIntoPubCache_eq {pub : SosPub} {first : SosValSnap}
    {rest old : List SosValSnap} (hdepth : ¬ pub.cacheDepth < 1)
    (hnature : pub.pubMeta.nature ≠ natureSos)
    (hslot : pub.slot pub.insertPos = .ok ⟨old, .null⟩) :
    sosPackSnapListIntoPubCache pub (first :: rest) = .ok
      { pub.withFront first.frame with
        cache := (pub.setSlot pub.insertPos ⟨first :: rest, .null⟩).cache } := by
  rw [sosPackSnapListIntoPubCache, if_neg hdepth, if_neg hnature]
  exact bind_eq_ok.mpr ⟨⟨old, .null⟩, hslot, if_pos rfl⟩

namespace HeapPub

/-- `calloc` of a snapshot, with what is written to it. -/
def alloc (h : HeapPub) (snap : SosValSnap) : HeapPub :=
  { h with mem := Function.update h.mem h.fresh (some ⟨snap, none⟩), fresh := h.fresh + 1 }

/-- `SOS_val_snap_destroy`. -/
def sosValSnapDestroy (h : HeapPub) (a : ℕ) : HeapPub :=
  { h with mem := release h.mem a, destroyed := h.destroyed ++ [a] }

/-- `pub->cache[pos]`. -/
def slot (h : HeapPub) (pos : ℤ) : Except CacheFault (Option ℕ) :=
  if pos < 0 then .error .outside else ofOption .outside h.cache[pos.toNat]?

/-- The snapshot behind a pointer. -/
def deref (h : HeapPub) : Option ℕ → Except CacheFault (Cell ℕ SosValSnap)
  | none => .error .nullSnap
  | some a => ofOption .badChain (h.mem a)

/-- The loop that destroys a list, for at most as many rounds as there were
objects. -/
def destroyList : ℕ → HeapPub → Option ℕ → Except CacheFault HeapPub
  | _, h, none => .ok h
  | 0, _, some _ => .error .badChain
  | rounds + 1, h, some a => do
    let cell ← h.deref (some a)
    destroyList rounds (h.sosValSnapDestroy a) cell.next

/-- **`SOS_pack_snap_list_into_pub_cache`**, with the first entry of the list. -/
def sosPackSnapListIntoPubCache (h : HeapPub) (first : Option ℕ) : Except CacheFault HeapPub :=
  if h.pub.cacheDepth < 1 then .ok h
  else match first with
    | none => .ok h
    | some a =>
      if h.pub.pubMeta.nature = natureSos then .ok h
      else do
        let old ← h.slot h.pub.insertPos
        let h ← destroyList h.fresh h old
        let cell ← h.deref (some a)
        .ok { h with
          cache := h.cache.set h.pub.insertPos.toNat (some a)
          pub := h.pub.withFront cell.val.frame }

/-- **The slots lead to lists**, of objects that are all different, and allocated by
now. -/
structure Holds (h : HeapPub) (lists : List (List SnapObject)) : Prop where
  segments : List.Forall₂ (fun p list => Segment h.mem p list none) h.cache lists
  nodup : (lists.flatten.map Prod.fst).Nodup
  allocated : ∀ object ∈ lists.flatten, object.1 < h.fresh

/-- The pub with the lists themselves in its cache. -/
def view (h : HeapPub) (lists : List (List SnapObject)) : SosPub :=
  { h.pub with cache := some (lists.map fun list => ⟨list.map Prod.snd, .null⟩) }

/-- A slot of the view is set with its list. -/
theorem setSlot_view (h : HeapPub) (lists : List (List SnapObject)) (pos : ℤ)
    (list : List SnapObject) :
    (h.view lists).setSlot pos ⟨list.map Prod.snd, .null⟩ = h.view (lists.set pos.toNat list) := by
  simp only [view, SosPub.setSlot, Option.map_some, List.map_set]

/-! ## Destroying a list -/

variable {h h' : HeapPub} {p : Option ℕ} {a : ℕ} {list : List SnapObject}
  {lists : List (List SnapObject)}

/-- **Destroyed, one after the other**: the objects of a list, and nothing else has
changed. -/
structure Destroyed (h h' : HeapPub) (list : List SnapObject) : Prop where
  pub : h'.pub = h.pub
  cache : h'.cache = h.cache
  fresh : h'.fresh = h.fresh
  destroyed : h'.destroyed = h.destroyed ++ list.map Prod.fst
  mem : ∀ a, a ∉ list.map Prod.fst → h'.mem a = h.mem a

/-- **A list is destroyed to its end.** -/
theorem destroyList_of_segment {rounds : ℕ} (hsegment : Segment h.mem p list none)
    (hrounds : list.length ≤ rounds) :
    ∃ h', destroyList rounds h p = .ok h' ∧ Destroyed h h' list := by
  induction list generalizing h p rounds with
  | nil =>
      obtain rfl : p = none := hsegment
      refine ⟨h, by cases rounds <;> rfl, rfl, rfl, rfl, (List.append_nil _).symm, fun _ _ => rfl⟩
  | cons object list ih =>
      have hnodup := hsegment.nodup
      rw [List.map_cons, List.nodup_cons] at hnodup
      obtain ⟨rfl, next, hcell, hrest⟩ := hsegment
      obtain ⟨rounds, rfl⟩ : ∃ n, rounds = n + 1 :=
        ⟨rounds - 1, by rw [List.length_cons] at hrounds; omega⟩
      -- the object is read before it is freed, and the others are not it
      have hkept : Segment (h.sosValSnapDestroy object.1).mem next list none := by
        refine hrest.release fun other hother hsame => hnodup.1 ?_
        rw [← hsame]
        exact List.mem_map_of_mem hother
      obtain ⟨h', hloop, hdone⟩ := ih hkept (Nat.le_of_succ_le_succ hrounds)
      refine ⟨h', ?_, hdone.pub, hdone.cache, hdone.fresh, ?_, ?_⟩
      · rw [destroyList, deref, hcell]
        exact hloop
      · rw [hdone.destroyed, List.map_cons]
        exact List.append_assoc ..
      · intro a ha
        rw [List.map_cons, List.mem_cons, not_or] at ha
        rw [hdone.mem a ha.2]
        exact release_of_ne h.mem ha.1

/-- As many rounds as there are objects are enough. -/
theorem Holds.length_le (hholds : h.Holds lists) (hmem : list ∈ lists) : list.length ≤ h.fresh := by
  have hsub : list.map Prod.fst ⊆ List.range h.fresh := by
    intro a ha
    obtain ⟨object, hobject, rfl⟩ := List.mem_map.mp ha
    exact List.mem_range.mpr
      (hholds.allocated object (List.mem_flatten.mpr ⟨list, hmem, hobject⟩))
  have hnodup : (list.map Prod.fst).Nodup := by
    have hflat := hholds.nodup
    rw [List.map_flatten, List.nodup_flatten] at hflat
    exact hflat.1 _ (List.mem_map_of_mem hmem)
  have hle := (hnodup.subperm hsub).length_le
  rwa [List.length_map, List.length_range] at hle

/-! ## Putting a list in front -/

/-- **A list that is not in the cache yet**: its objects are allocated, and no slot
leads to them. -/
structure Loose (h : HeapPub) (lists : List (List SnapObject)) (a : ℕ)
    (list : List SnapObject) : Prop where
  segment : Segment h.mem (some a) list none
  allocated : ∀ object ∈ list, object.1 < h.fresh
  apart : ∀ object ∈ list, object.1 ∉ lists.flatten.map Prod.fst

/-- The first object of a list is the one that leads to it. -/
theorem Loose.cons (hlist : Loose h lists a list) :
    ∃ snap rest, list = (a, snap) :: rest ∧ ∃ next, h.mem a = some ⟨snap, next⟩ := by
  have hsegment := hlist.segment
  cases list with
  | nil => cases hsegment
  | cons object rest =>
      obtain ⟨haddr, next, hcell⟩ := hsegment.head
      obtain rfl := Option.some.inj haddr
      exact ⟨object.2, rest, rfl, next, hcell⟩

/-- **A cache in use**: as many slots as its depth says, and the head is one of them. -/
structure InUse (h : HeapPub) : Prop where
  depth : (h.cache.length : ℤ) = h.pub.cacheDepth
  nonneg : 0 ≤ h.pub.cacheHead
  head : h.pub.cacheHead < h.pub.cacheDepth

/-- The place in front of the head is the one in front of it in the ring. -/
theorem InUse.insertPos_eq (huse : h.InUse) :
    h.pub.insertPos = Ring.before h.cache.length h.pub.cacheHead.toNat := by
  obtain ⟨hdepth, hnonneg, hhead⟩ := huse
  unfold SosPub.insertPos Ring.before
  by_cases hzero : h.pub.cacheHead = 0
  · rw [if_pos hzero, if_pos (by omega)]
    omega
  · rw [if_neg hzero, if_neg (by omega)]
    omega

theorem InUse.insertPos_lt (huse : h.InUse) : h.pub.insertPos.toNat < h.cache.length := by
  have hlt : h.pub.cacheHead.toNat < h.cache.length := by
    obtain ⟨hdepth, hnonneg, hhead⟩ := huse
    omega
  rw [huse.insertPos_eq, Int.toNat_natCast]
  exact Ring.before_lt hlt

/-- A cache in use stays so when the head moves to the place in front. -/
theorem InUse.withFront (huse : h.InUse) {frame : CLong} (hpub : h'.pub = h.pub.withFront frame)
    (hcache : h'.cache.length = h.cache.length) : h'.InUse := by
  have hpos := huse.insertPos_eq
  have hlt := huse.insertPos_lt
  obtain ⟨hdepth, hnonneg, hhead⟩ := huse
  refine ⟨?_, ?_, ?_⟩
  · rw [hcache, hdepth, hpub]
    rfl
  · rw [hpub]
    change 0 ≤ h.pub.insertPos
    omega
  · rw [hpub]
    change h.pub.insertPos < h.pub.cacheDepth
    omega

/-- On the lists, a list goes into the slot in front. -/
theorem sosPackSnapListIntoPubCache_view {old rest : List SnapObject} {snap : SosValSnap}
    (hdepth : ¬ h.pub.cacheDepth < 1) (hnature : h.pub.pubMeta.nature ≠ natureSos)
    (hpos : 0 ≤ h.pub.insertPos) (hget : lists[h.pub.insertPos.toNat]? = some old) :
    SosFlow.sosPackSnapListIntoPubCache (h.view lists) (((a, snap) :: rest).map Prod.snd) =
      .ok { h.pub.withFront snap.frame with
        cache := (h.view (lists.set h.pub.insertPos.toNat ((a, snap) :: rest))).cache } := by
  have hview : (h.view lists).slot h.pub.insertPos = .ok ⟨old.map Prod.snd, .null⟩ := by
    rw [SosPub.slot, if_neg (by omega)]
    simp only [view, SosPub.slots, Option.getD_some, List.getElem?_map, hget, Option.map_some]
  have hdepth' : ¬ (h.view lists).cacheDepth < 1 := hdepth
  refine (sosPackSnapListIntoPubCache_eq hdepth' hnature hview).trans (congrArg Except.ok ?_)
  have hcache := congrArg SosPub.cache (setSlot_view h lists h.pub.insertPos ((a, snap) :: rest))
  exact congrArg (fun cache => { h.pub.withFront snap.frame with cache := cache }) hcache

/-- **What putting a list in front does**: the objects of the list in the way are
destroyed, the new list takes its slot, and that is the head. -/
structure PutInFront (h h' : HeapPub) (lists : List (List SnapObject)) (old list : List SnapObject) :
    Prop where
  evicted : lists[h.pub.insertPos.toNat]? = some old
  holds : h'.Holds (lists.set h.pub.insertPos.toNat list)
  inUse : h'.InUse
  destroyed : h'.destroyed = h.destroyed ++ old.map Prod.fst
  pub : ∃ frame, h'.pub = h.pub.withFront frame
  fresh : h'.fresh = h.fresh

/-- The slots of the cache and their lists, with another list in one place. -/
theorem Holds.set {front back : List (List SnapObject)} {old : List SnapObject}
    (hholds : h.Holds (front ++ old :: back)) (hlist : Loose h (front ++ old :: back) a list)
    (hmem : ∀ b, b ∉ old.map Prod.fst → h'.mem b = h.mem b) (hfresh : h'.fresh = h.fresh)
    (hcache : h'.cache = h.cache.set front.length (some a)) :
    h'.Holds (front ++ list :: back) := by
  obtain ⟨hsegments, hnodup, hallocated⟩ := hholds
  obtain ⟨hsegment, hnew, hapart⟩ := hlist
  simp only [List.flatten_append, List.flatten_cons, List.map_append, List.mem_append, not_or,
    List.nodup_append', List.disjoint_append_right] at hnodup hapart hallocated
  obtain ⟨hfront, ⟨hold, hback, holdback⟩, hfrontold, hfrontback⟩ := hnodup
  obtain ⟨fronts, p, backs, hsplit, hlen, hfronts, -, hbacks⟩ := Ring.forall₂_split hsegments
  -- no object of another list is one of the old list
  have hkept : ∀ (p : Option ℕ) (other : List SnapObject),
      (∀ object ∈ other, object.1 ∉ old.map Prod.fst) →
      Segment h.mem p other none → Segment h'.mem p other none :=
    fun p other hother hp => hp.congr fun object hobject => hmem _ (hother object hobject)
  have hids : ∀ (lists : List (List SnapObject)), ∀ other ∈ lists, ∀ object ∈ other,
      object.1 ∈ lists.flatten.map Prod.fst := fun lists other hother object hobject =>
    List.mem_map_of_mem (List.mem_flatten.mpr ⟨other, hother, hobject⟩)
  refine ⟨?_, ?_, ?_⟩
  · rw [hcache, hsplit, ← hlen, List.set_append_right _ _ le_rfl, Nat.sub_self, List.set_cons_zero]
    refine List.rel_append ?_ (List.Forall₂.cons ?_ ?_)
    · refine Ring.forall₂_imp_mem hfronts fun p other hother => ?_
      refine hkept p other fun object hobject => ?_
      exact hfrontold (hids front other hother object hobject)
    · exact hkept _ list (fun object hobject => (hapart object hobject).2.1) hsegment
    · refine Ring.forall₂_imp_mem hbacks fun p other hother => hkept p other fun object hobject => ?_
      exact fun hmem => holdback hmem (hids back other hother object hobject)
  · simp only [List.flatten_append, List.flatten_cons, List.map_append, List.nodup_append',
      List.disjoint_append_right]
    have hnot : ∀ {ids : List ℕ}, (∀ object ∈ list, object.1 ∉ ids) →
        List.Disjoint (list.map Prod.fst) ids := by
      intro ids hids b hb
      obtain ⟨object, hobject, rfl⟩ := List.mem_map.mp hb
      exact hids object hobject
    refine ⟨hfront, ⟨hsegment.nodup, hback, hnot fun object hobject => (hapart object hobject).2.2⟩,
      (hnot fun object hobject => (hapart object hobject).1).symm, hfrontback⟩
  · intro object hobject
    rw [hfresh]
    simp only [List.flatten_append, List.flatten_cons, List.mem_append] at hobject
    rcases hobject with hobject | hobject | hobject
    · exact hallocated object (.inl hobject)
    · exact hnew object hobject
    · exact hallocated object (.inr (.inr hobject))

/-- **A list is put in front**: the call returns, destroys what was in the way, and on
the lists it is the call on a cache of lists. -/
theorem putInFront_of_loose (hholds : h.Holds lists) (huse : h.InUse)
    (hnature : h.pub.pubMeta.nature ≠ natureSos) (hlist : Loose h lists a list) :
    ∃ h' old, h.sosPackSnapListIntoPubCache (some a) = .ok h' ∧ PutInFront h h' lists old list ∧
      SosFlow.sosPackSnapListIntoPubCache (h.view lists) (list.map Prod.snd) =
        .ok (h'.view (lists.set h.pub.insertPos.toNat list)) := by
  have hlen := hholds.segments.length_eq
  have hlt := huse.insertPos_lt
  have hpos := huse.insertPos_eq
  obtain ⟨front, old, back, rfl, hfront, hget⟩ := Ring.exists_split (hlen ▸ hlt)
  obtain ⟨fronts, p, backs, hsplit, hfronts, -, hold, -⟩ := Ring.forall₂_split hholds.segments
  obtain ⟨h₁, hdestroy, hdone⟩ := destroyList_of_segment hold
    (hholds.length_le (List.mem_append_right _ List.mem_cons_self))
  obtain ⟨snap, rest, rfl, next, hcell⟩ := hlist.cons
  have hnotOld : a ∉ old.map Prod.fst := by
    have hnot := hlist.apart (a, snap) List.mem_cons_self
    simp only [List.flatten_append, List.flatten_cons, List.map_append, List.mem_append,
      not_or] at hnot
    exact hnot.2.1
  have hslot : h.slot h.pub.insertPos = .ok p := by
    rw [slot, if_neg (by omega), hsplit, ← hfront, ← hfronts, List.getElem?_append_right le_rfl,
      Nat.sub_self]
    rfl
  have hderef : h₁.deref (some a) = .ok ⟨snap, next⟩ := by
    rw [deref, hdone.mem a hnotOld, hcell]
    rfl
  have hset : (front ++ old :: back).set h.pub.insertPos.toNat ((a, snap) :: rest) =
      front ++ ((a, snap) :: rest) :: back := by
    rw [← hfront, List.set_append_right _ _ le_rfl, Nat.sub_self, List.set_cons_zero]
  have hdepth : ¬ h.pub.cacheDepth < 1 := by
    have hhead := huse.head
    have hnonneg := huse.nonneg
    omega
  refine ⟨{ h₁ with
    cache := h₁.cache.set h₁.pub.insertPos.toNat (some a)
    pub := h₁.pub.withFront snap.frame }, old, ?_,
    ⟨hget, ?_, ?_, hdone.destroyed, ?_, hdone.fresh⟩, ?_⟩
  · rw [sosPackSnapListIntoPubCache, if_neg hdepth, if_neg hnature]
    exact bind_eq_ok.mpr ⟨p, hslot, bind_eq_ok.mpr ⟨h₁, hdestroy,
      bind_eq_ok.mpr ⟨⟨snap, next⟩, hderef, rfl⟩⟩⟩
  · rw [hset]
    refine hholds.set hlist hdone.mem hdone.fresh ?_
    rw [hdone.cache, hdone.pub, hfront]
  · have hfront : h₁.pub.withFront snap.frame = h.pub.withFront snap.frame := by rw [hdone.pub]
    exact huse.withFront hfront (by rw [List.length_set, hdone.cache])
  · exact ⟨snap.frame, by rw [hdone.pub]⟩
  · rw [sosPackSnapListIntoPubCache_view hdepth hnature (by omega) hget, hdone.pub]
    rfl

end HeapPub

end SosFlow
