import SosFlow.Pub.CacheHeap
import SosFlow.Daemon.CacheShape

/-!
# The copy that a daemon's pack makes

`SOS_pack` of a daemon is to put a copy of the snapshot into the cache, since
the snapshot itself goes into a queue whose consumer frees it. The copy is
made, and the snapshot is linked in its place. So the newest list of the
cache starts with an object of the queue, after every pack that gets this
far (`not_copyCached`), and when it was just put in front of the cache it is
its own successor (`sosPackSnapAddToPubCache_loops`).
-/

namespace SosFlow

open Linked Outcome

namespace HeapPub

/-- A copy of an object, with the time it was made. -/
def copyObject (h : HeapPub) (cell : Cell ℕ SosValSnap) (recv : Double) : HeapPub :=
  { h with
    mem := Function.update h.mem h.fresh
      (some ⟨{ cell.val with time := { cell.val.time with recv } }, cell.next⟩)
    fresh := h.fresh + 1 }

/-- The object is pushed down into the newest list. -/
def linkInto (h : HeapPub) (a : ℕ) (top : Option ℕ) : HeapPub :=
  { h with
    mem := setNext h.mem a top
    cache := h.cache.set h.pub.cacheHead.toNat (some a) }

/-- A snapshot of another frame than the one in slot 0 starts a list. -/
def startFrame (h : HeapPub) (a : ℕ) (frame frame' : CLong) : Except CacheFault HeapPub :=
  if frame = frame' then .ok h else h.sosPackSnapListIntoPubCache (some a)

/-- **`SOS_pack_snap_add_to_pub_cache`** of a daemon, with the object of the snapshot. The
copy is made, and no longer used. -/
def sosPackSnapAddToPubCache (h : HeapPub) (a : ℕ) (recv : Double) : Except CacheFault HeapPub :=
  if h.pub.cacheDepth < 1 then .ok h
  else do
    let zero ← h.slot 0
    let first ← h.deref zero
    let snap ← h.deref (some a)
    let h ← h.startFrame a first.val.frame snap.val.frame
    let snap ← h.deref (some a)
    let h := h.copyObject snap recv
    let top ← h.slot h.pub.cacheHead
    .ok (h.linkInto a top)

/-- **`SOS_pack`** of a daemon, into a pub whose queue is set. -/
def sosPack (h : HeapPub) (queue : List ℕ) (args : PackArgs) (recv : Double) :
    Except PackFault (HeapPub × List ℕ) := do
  let placed ← sosPackSnapSituateInPub h.pub args
  let renewed ← sosPackSnapRenewPubData placed.1 placed.2 args.now
  let cached ← (sosPackSnapAddToPubCache ({ h with pub := renewed.1 }.alloc renewed.2) h.fresh
    recv).mapError .cache
  .ok (cached, queue ++ [h.fresh])

/-- **The copy is in the cache**: the newest list starts with a snapshot of what was
packed, before what there was of its frame, in a slot in front if there was
another frame. All lists end, and no object is in two slots, or in a slot and
in the queue. -/
structure CopyCached (h h' : HeapPub) (queue' : List ℕ) (args : PackArgs)
    (lists : List (List SnapObject)) : Prop where
  holds : ∃ lists', h'.Holds lists' ∧ ∀ list ∈ lists', ∀ object ∈ list, object.1 ∉ queue'
  newest : ∃ a snap earlier, h'.cache[h'.pub.cacheHead.toNat]? = some (some a) ∧
    Segment h'.mem (some a) ((a, snap) :: earlier) none ∧
    snap.elem = h.pub.elemPos args.name ∧ snap.val = args.val ∧ snap.frame = h.pub.frame ∧
    earlier = (lists.getD h.pub.cacheHead.toNat []).filter (·.2.frame = h.pub.frame)
  slot : (∃ object ∈ lists.getD h.pub.cacheHead.toNat [], object.2.frame ≠ h.pub.frame) →
    h'.pub.cacheHead = h.pub.insertPos

/-! ## What is where -/

variable {h h' : HeapPub} {queue queue' : List ℕ} {args : PackArgs} {recv : Double} {a : ℕ}

/-- A call with its fault renamed. -/
theorem mapError_eq_ok {ε ε' α : Type} {f : ε → ε'} {r : Except ε α} {x : α} :
    r.mapError f = .ok x ↔ r = .ok x := by
  cases r with
  | ok y => exact ⟨fun hok => congrArg Except.ok (Except.ok.inj hok), fun hok => congrArg _ hok⟩
  | error e => exact ⟨fun hok => (by cases hok), fun hok => (by cases hok)⟩

/-- **The object itself is linked**, in front of whatever the head led to. -/
theorem sosPackSnapAddToPubCache_eq_ok (hdepth : 1 ≤ h.pub.cacheDepth)
    (hpack : h.sosPackSnapAddToPubCache a recv = .ok h') :
    ∃ middle top, h' = linkInto middle a top ∧ middle.slot middle.pub.cacheHead = .ok top := by
  rw [sosPackSnapAddToPubCache, if_neg (by omega)] at hpack
  obtain ⟨zero, -, hpack⟩ := bind_eq_ok.mp hpack
  obtain ⟨first, -, hpack⟩ := bind_eq_ok.mp hpack
  obtain ⟨snap, -, hpack⟩ := bind_eq_ok.mp hpack
  obtain ⟨placed, -, hpack⟩ := bind_eq_ok.mp hpack
  obtain ⟨again, -, hpack⟩ := bind_eq_ok.mp hpack
  obtain ⟨top, htop, hpack⟩ := bind_eq_ok.mp hpack
  exact ⟨placed.copyObject again recv, top, (Except.ok.inj hpack).symm, htop⟩

/-- A slot that can be read is one of the array. -/
theorem slot_eq_ok {pos : ℤ} {p : Option ℕ} (hslot : h.slot pos = .ok p) :
    pos.toNat < h.cache.length ∧ h.cache[pos.toNat]? = some p := by
  rw [slot] at hslot
  split at hslot
  case isTrue => cases hslot
  case isFalse =>
    have hget := ofOption_eq_ok.mp hslot
    exact ⟨(List.getElem?_eq_some_iff.mp hget).1, hget⟩

/-- What comes before the cache leaves its fields. -/
theorem sameCache_renewed {pub : SosPub} {placed renewed : SosPub × SosValSnap}
    (hplaced : sosPackSnapSituateInPub pub args = .ok placed)
    (hrenewed : sosPackSnapRenewPubData placed.1 placed.2 args.now = .ok renewed) :
    SosPub.SameCache pub renewed.1 :=
  ((sosPackSnapSituateInPub_inside pub args).of_ok hplaced).trans
    ((sosPackSnapRenewPubData_inside placed.1 placed.2 args.now).of_ok hrenewed)

/-- **The packed object is in the cache and in the queue.** -/
theorem sosPack_shares (hdepth : 1 ≤ h.pub.cacheDepth)
    (hpack : h.sosPack queue args recv = .ok (h', queue')) :
    h'.cache[h'.pub.cacheHead.toNat]? = some (some h.fresh) ∧ h.fresh ∈ queue' := by
  obtain ⟨placed, hplaced, hpack⟩ := bind_eq_ok.mp hpack
  obtain ⟨renewed, hrenewed, hpack⟩ := bind_eq_ok.mp hpack
  obtain ⟨cached, hcached, hpack⟩ := bind_eq_ok.mp hpack
  obtain ⟨rfl, rfl⟩ := Prod.mk.inj (Except.ok.inj hpack)
  refine ⟨?_, List.mem_append_right _ List.mem_cons_self⟩
  have hsame := sameCache_renewed hplaced hrenewed
  obtain ⟨middle, top, rfl, htop⟩ := sosPackSnapAddToPubCache_eq_ok
    (hsame.depth.symm ▸ hdepth) (mapError_eq_ok.mp hcached)
  have hlt := (slot_eq_ok htop).1
  exact List.getElem?_set_self hlt

/-- An object at the head of the cache and in the queue is in both. -/
theorem not_copyCached_of_shares {lists : List (List SnapObject)}
    (hcached : h'.cache[h'.pub.cacheHead.toNat]? = some (some a)) (hqueued : a ∈ queue') :
    ¬ CopyCached h h' queue' args lists := by
  intro hcopy
  obtain ⟨lists', hholds, hapart⟩ := hcopy.holds
  obtain ⟨hlt, hget⟩ := List.getElem?_eq_some_iff.mp hcached
  have hlt' : h'.pub.cacheHead.toNat < lists'.length := hholds.segments.length_eq ▸ hlt
  have hsegment : Segment h'.mem h'.cache[h'.pub.cacheHead.toNat]
      lists'[h'.pub.cacheHead.toNat] none := hholds.segments.get hlt hlt'
  rw [hget] at hsegment
  -- the list of the head has a first object, and that is it
  have hne : lists'[h'.pub.cacheHead.toNat] ≠ [] := by
    intro hnil
    rw [hnil] at hsegment
    cases hsegment
  obtain ⟨object, hobject, haddr⟩ := hsegment.start_mem hne
  obtain rfl := Option.some.inj haddr
  exact hapart _ (List.getElem_mem hlt') object hobject hqueued

/-- **No pack of a daemon leaves the copy in the cache**, whatever is there and whatever
is packed. -/
theorem not_copyCached (hdepth : 1 ≤ h.pub.cacheDepth) (lists : List (List SnapObject)) :
    ¬ ∃ h' queue', h.sosPack queue args recv = .ok (h', queue') ∧
      CopyCached h h' queue' args lists := by
  rintro ⟨h', queue', hpack, hcopy⟩
  obtain ⟨hcached, hqueued⟩ := sosPack_shares hdepth hpack
  exact not_copyCached_of_shares hcached hqueued hcopy

/-- A pub of one slot, whose list has one snapshot of the frame that is packed. -/
def oneSlot : HeapPub where
  pub := { (default : SosPub) with cacheDepth := 1, cacheHead := 0, spare := [.blank] }
  cache := [some 0]
  mem a := if a = 0 then some ⟨default, none⟩ else none
  fresh := 1
  destroyed := []

theorem holds_oneSlot : oneSlot.Holds [[(0, default)]] where
  segments := List.Forall₂.cons ⟨rfl, none, rfl, rfl⟩ List.Forall₂.nil
  nodup := List.nodup_singleton 0
  allocated object hobject := by
    obtain rfl := List.mem_singleton.mp hobject
    exact Nat.zero_lt_one

/-- A number under a new name, with nothing in the queue. -/
theorem not_copyCached_oneSlot :
    ¬ ∃ h' queue', oneSlot.sosPack [] ⟨.empty, .int 5, 0, 9, 0⟩ 0 = .ok (h', queue') ∧
      CopyCached oneSlot h' queue' ⟨.empty, .int 5, 0, 9, 0⟩ [[(0, default)]] :=
  not_copyCached (by decide) _

/-- **A pack that returns and shares its snapshot**: everything was in order before. -/
theorem copyCached_fails :
    ∃ (h : HeapPub) (lists : List (List SnapObject)) (args : PackArgs) (h' : HeapPub)
      (queue' : List ℕ), h.Holds lists ∧ h.InUse ∧ args.val.type ≠ .bytes ∧
      h.sosPack [] args 0 = .ok (h', queue') ∧ ¬ CopyCached h h' queue' args lists := by
  obtain ⟨⟨h', queue'⟩, hpack⟩ : ∃ r, oneSlot.sosPack [] ⟨.empty, .int 5, 0, 9, 0⟩ 0 = .ok r :=
    ⟨_, rfl⟩
  obtain ⟨hcached, hqueued⟩ := sosPack_shares (by decide) hpack
  exact ⟨oneSlot, [[(0, default)]], ⟨.empty, .int 5, 0, 9, 0⟩, h', queue', holds_oneSlot,
    ⟨rfl, by decide, by decide⟩, by decide, hpack, not_copyCached_of_shares hcached hqueued⟩

/-! ## A list of another frame -/

theorem destroyList_cache {rounds : ℕ} {p : Option ℕ} (hdestroy : destroyList rounds h p = .ok h') :
    h'.cache = h.cache ∧ h'.pub = h.pub := by
  induction rounds generalizing h p with
  | zero =>
      cases p with
      | none => exact (Except.ok.inj hdestroy) ▸ ⟨rfl, rfl⟩
      | some a => cases hdestroy
  | succ rounds ih =>
      cases p with
      | none => exact (Except.ok.inj hdestroy) ▸ ⟨rfl, rfl⟩
      | some a =>
          obtain ⟨cell, -, hrest⟩ := bind_eq_ok.mp hdestroy
          obtain ⟨hcache, hpub⟩ := ih hrest
          exact ⟨hcache, hpub⟩

/-- The slot at the head leads to what was put in front. -/
theorem head_of_putInFront (hdepth : 1 ≤ h.pub.cacheDepth)
    (hnature : h.pub.pubMeta.nature ≠ natureSos)
    (hput : h.sosPackSnapListIntoPubCache (some a) = .ok h') :
    h'.slot h'.pub.cacheHead = .ok (some a) := by
  rw [sosPackSnapListIntoPubCache, if_neg (by omega), if_neg hnature] at hput
  obtain ⟨old, hold, hput⟩ := bind_eq_ok.mp hput
  obtain ⟨h₁, hdestroy, hput⟩ := bind_eq_ok.mp hput
  obtain ⟨cell, -, hput⟩ := bind_eq_ok.mp hput
  obtain rfl := Except.ok.inj hput
  obtain ⟨hcache, hpub⟩ := destroyList_cache hdestroy
  have hlt := (slot_eq_ok hold).1
  have hpos : ¬ h.pub.insertPos < 0 := by
    intro hneg
    rw [slot, if_pos hneg] at hold
    cases hold
  rw [slot]
  change (if h₁.pub.insertPos < 0 then _ else _) = _
  rw [hpub, if_neg hpos]
  refine ofOption_eq_ok.mpr ?_
  change (h₁.cache.set h.pub.insertPos.toNat (some a))[h.pub.insertPos.toNat]? = _
  rw [hcache]
  exact List.getElem?_set_self hlt

/-- **An object that is its own successor is in no list.** -/
theorem not_segment_of_self {mem : Memory ℕ SosValSnap} {cell : Cell ℕ SosValSnap}
    (hcell : mem a = some cell) (hnext : cell.next = some a) (list : List SnapObject) :
    ¬ Segment mem (some a) list none := by
  intro hsegment
  cases list with
  | nil => cases hsegment
  | cons object rest =>
      have hall := hsegment
      obtain ⟨haddr, next, hobject, hrest⟩ := hsegment
      obtain rfl := Option.some.inj haddr
      rw [hcell, Option.some_inj] at hobject
      rw [hobject] at hnext
      obtain rfl : next = some object.1 := hnext
      have hsame := congrArg List.length (hall.unique hrest)
      exact Nat.succ_ne_self _ hsame

/-- **A snapshot that starts a list is its own successor**: it is put in front, and then
linked in front of itself. -/
theorem sosPackSnapAddToPubCache_loops {zero : Option ℕ} {first snap : Cell ℕ SosValSnap}
    (hdepth : 1 ≤ h.pub.cacheDepth) (hnature : h.pub.pubMeta.nature ≠ natureSos)
    (hzero : h.slot 0 = .ok zero) (hfirst : h.deref zero = .ok first)
    (hsnap : h.deref (some a) = .ok snap) (hframe : first.val.frame ≠ snap.val.frame)
    (hpack : h.sosPackSnapAddToPubCache a recv = .ok h') (list : List SnapObject) :
    ¬ Segment h'.mem (some a) list none := by
  rw [sosPackSnapAddToPubCache, if_neg (by omega)] at hpack
  obtain ⟨zero', hzero', hpack⟩ := bind_eq_ok.mp hpack
  obtain rfl := Except.ok.inj (hzero.symm.trans hzero')
  obtain ⟨first', hfirst', hpack⟩ := bind_eq_ok.mp hpack
  obtain rfl := Except.ok.inj (hfirst.symm.trans hfirst')
  obtain ⟨snap', hsnap', hpack⟩ := bind_eq_ok.mp hpack
  obtain rfl := Except.ok.inj (hsnap.symm.trans hsnap')
  obtain ⟨placed, hplaced, hpack⟩ := bind_eq_ok.mp hpack
  obtain ⟨again, hagain, hpack⟩ := bind_eq_ok.mp hpack
  obtain ⟨top, htop, hpack⟩ := bind_eq_ok.mp hpack
  obtain rfl := Except.ok.inj hpack
  rw [startFrame, if_neg hframe] at hplaced
  have hhead := head_of_putInFront hdepth hnature hplaced
  -- the copy leaves the slot at the head what it is
  obtain rfl : top = some a := Except.ok.inj (htop.symm.trans hhead)
  obtain ⟨cell, hcell⟩ : ∃ cell, (placed.copyObject again recv).mem a = some cell := by
    have hat := ofOption_eq_ok.mp hagain
    by_cases hfresh : a = placed.fresh
    · exact ⟨_, by rw [hfresh]; exact Function.update_self ..⟩
    · exact ⟨again, (Function.update_of_ne hfresh ..).trans hat⟩
  exact not_segment_of_self (setNext_self (some a) hcell) rfl list

end HeapPub

end SosFlow
