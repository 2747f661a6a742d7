import SosFlow.Pub.CacheHeap
import SosFlow.Daemon.Receive
import SosFlow.Lib.Trace

/-!
# What the cache of a pub holds

The daemon makes two objects of each snapshot in a VAL_SNAPS: one goes into
the queue for the database, and the other, which is a copy, into the list for
the cache. The list is linked when all of it is there, and takes the place in
front of the head.

So at any time the ring holds the lists of the newest messages, newest first,
and what it lost was destroyed, list by list, in the order it came
(`cache_ring`).
-/

namespace SosFlow

open Linked Outcome

/-- **A VAL_SNAPS message**: the snapshots that are read from it, and what the clock
says at each copy. -/
structure SnapsMessage where
  snaps : List SosValSnap
  clock : ℕ → Double

/-- **The daemon's objects for one pub.** `log` has the copies that were made for each
message, with what is in them. -/
structure CacheRun where
  heap : HeapPub
  queue : Option (List ℕ)
  log : List (List SnapObject)

namespace HeapPub

/-- The loop of `SOS_val_snap_queue_from_buffer` that makes the objects: those for the
queue, and the copies for the cache if there is one. -/
def readObjects (copies : Bool) (clock : ℕ → Double) (h : HeapPub) :
    ℕ → List SosValSnap → List ℕ × List ℕ × HeapPub
  | _, [] => ([], [], h)
  | i, snap :: rest =>
    let snap := snap.taggedFor h.pub
    let read := h.alloc snap
    if copies then
      let r := readObjects copies clock
        (read.alloc { snap with time := { snap.time with recv := clock i } }) (i + 1) rest
      (h.fresh :: r.1, read.fresh :: r.2.1, r.2.2)
    else
      let r := readObjects copies clock read (i + 1) rest
      (h.fresh :: r.1, r.2.1, r.2.2)

/-- The pub keeps a cache. -/
def caches (h : HeapPub) : Bool := 0 < h.pub.cacheDepth ∧ h.pub.pubMeta.nature ≠ natureSos

/-- The copies are linked and go into the cache. -/
def cacheObjects (h : HeapPub) (copies : List ℕ) : Except CacheFault HeapPub :=
  { h with mem := link h.mem copies }.sosPackSnapListIntoPubCache copies.head?

end HeapPub

namespace CacheRun

/-- **`SOS_val_snap_queue_from_buffer`**, on objects. -/
def valSnaps (s : CacheRun) (m : SnapsMessage) : Except CacheFault CacheRun :=
  if m.snaps = [] then .ok s
  else do
    let r := s.heap.readObjects s.heap.caches m.clock 0 m.snaps
    let heap ← if s.heap.caches then r.2.2.cacheObjects r.2.1 else .ok r.2.2
    .ok
      { heap
        queue := s.queue.map (· ++ r.1)
        log := s.log ++ [r.2.1.zip
          (receivedCopies m.clock (m.snaps.map (·.taggedFor s.heap.pub)))] }

/-- One message, in a run. -/
def step (s : CacheRun) (m : SnapsMessage) : Option CacheRun := (s.valSnaps m).toOption

/-- A pub whose first ANNOUNCE gave it a cache of a depth. -/
def announced (pub : SosPub) (depth : CInt) (queue : Option (List ℕ)) : CacheRun where
  heap :=
    { pub := { pub with cacheDepth := depth.toInt }
      cache := List.replicate depth.toInt.toNat none
      mem := fun _ => none
      fresh := 0
      destroyed := [] }
  queue := queue
  log := []

/-- **The cache has what it should**: from the head on, the lists of the newest messages
and then nothing, each with the snapshots of its message. What was in lists
that are gone was destroyed once, and what is in the others never. -/
structure Content (s : CacheRun) (pub : SosPub) (depth : ℕ) (messages : List SnapsMessage) :
    Prop where
  copies : s.log.map (·.map Prod.snd) =
    messages.map fun m => receivedCopies m.clock (m.snaps.map (·.taggedFor pub))
  ring : List.Forall₂ (fun p list => Segment s.heap.mem p list none)
    (s.heap.cache.rotate s.heap.pub.cacheHead.toNat)
    (s.log.reverse.take depth ++ List.replicate (depth - messages.length) [])
  evicted : ∀ list ∈ s.log.take (messages.length - depth), ∀ object ∈ list,
    s.heap.destroyed.count object.1 = 1
  kept : ∀ list ∈ s.log.drop (messages.length - depth), ∀ object ∈ list,
    object.1 ∉ s.heap.destroyed

end CacheRun

/-! ## Making the objects -/

namespace HeapPub

variable {h h' : HeapPub} {clock : ℕ → Double} {lists : List (List SnapObject)}

/-- **Objects were made**, and nothing that was there has changed. -/
structure Grown (h h' : HeapPub) : Prop where
  pub : h'.pub = h.pub
  cache : h'.cache = h.cache
  destroyed : h'.destroyed = h.destroyed
  fresh : h.fresh ≤ h'.fresh
  mem : ∀ a < h.fresh, h'.mem a = h.mem a

theorem Grown.refl : h.Grown h := ⟨rfl, rfl, rfl, le_rfl, fun _ _ => rfl⟩

theorem Grown.trans {h'' : HeapPub} (hfirst : h.Grown h') (hsecond : h'.Grown h'') :
    h.Grown h'' where
  pub := hsecond.pub.trans hfirst.pub
  cache := hsecond.cache.trans hfirst.cache
  destroyed := hsecond.destroyed.trans hfirst.destroyed
  fresh := hfirst.fresh.trans hsecond.fresh
  mem a ha := (hsecond.mem a (ha.trans_le hfirst.fresh)).trans (hfirst.mem a ha)

theorem grown_alloc (h : HeapPub) (snap : SosValSnap) : h.Grown (h.alloc snap) :=
  ⟨rfl, rfl, rfl, Nat.le_succ _, fun _ ha => Function.update_of_ne (Nat.ne_of_lt ha) ..⟩

/-- The lists stay what they are. -/
theorem Holds.grown (hholds : h.Holds lists) (hgrown : h.Grown h') : h'.Holds lists := by
  obtain ⟨hsegments, hnodup, hallocated⟩ := hholds
  refine ⟨?_, hnodup, fun object hobject => (hallocated object hobject).trans_le hgrown.fresh⟩
  rw [hgrown.cache]
  refine Ring.forall₂_imp_mem hsegments fun p list hlist hp => hp.congr fun object hobject => ?_
  exact hgrown.mem _ (hallocated object (List.mem_flatten.mpr ⟨list, hlist, hobject⟩))

/-- **The copies are new objects** with the snapshots of the message, each with the
time it was received. -/
theorem readObjects_copies (h : HeapPub) (i : ℕ) (snaps : List SosValSnap) :
    h.Grown (h.readObjects true clock i snaps).2.2 ∧
      ∃ objects : List SnapObject, (h.readObjects true clock i snaps).2.1 = objects.map Prod.fst ∧
        objects.map Prod.snd = ((snaps.map (·.taggedFor h.pub)).zipIdx i).map
          (fun p => { p.1 with time := { p.1.time with recv := clock p.2 } }) ∧
        (objects.map Prod.fst).Nodup ∧
        ∀ object ∈ objects, h.fresh ≤ object.1 ∧
          object.1 < (h.readObjects true clock i snaps).2.2.fresh ∧
          (h.readObjects true clock i snaps).2.2.mem object.1 = some ⟨object.2, none⟩ := by
  induction snaps generalizing h i with
  | nil =>
      refine ⟨.refl, [], rfl, rfl, List.nodup_nil, ?_⟩
      exact fun _ hobject => absurd hobject List.not_mem_nil
  | cons snap snaps ih =>
      have hread := grown_alloc h (snap.taggedFor h.pub)
      have hcopied := grown_alloc (h.alloc (snap.taggedFor h.pub))
        { snap.taggedFor h.pub with
          time := { (snap.taggedFor h.pub).time with recv := clock i } }
      obtain ⟨hgrown, objects, hcopies, hvals, hnodup, hobjects⟩ := ih _ (i + 1)
      refine ⟨(hread.trans hcopied).trans hgrown, (h.fresh + 1, _) :: objects,
        congrArg _ hcopies, congrArg _ hvals, ?_, ?_⟩
      · refine List.nodup_cons.mpr ⟨fun hmem => ?_, hnodup⟩
        obtain ⟨object, hobject, haddr⟩ := List.mem_map.mp hmem
        have hlow : h.fresh + 1 + 1 ≤ object.1 := (hobjects object hobject).1
        omega
      · rw [List.forall_mem_cons]
        constructor
        · have hcell := hgrown.mem (h.fresh + 1) (Nat.lt_succ_self _)
          refine ⟨Nat.le_succ _, Nat.lt_of_lt_of_le (Nat.lt_succ_self _) hgrown.fresh, ?_⟩
          exact hcell.trans (Function.update_self ..)
        · intro object hobject
          obtain ⟨hlow, hhigh, hcell⟩ := hobjects object hobject
          have hlow : h.fresh + 1 + 1 ≤ object.1 := hlow
          exact ⟨by omega, hhigh, hcell⟩

/-- **The copies of a message go into the cache** in front of what is there. -/
theorem cacheObjects_readObjects (clock : ℕ → Double) (hholds : h.Holds lists) (huse : h.InUse)
    (hnature : h.pub.pubMeta.nature ≠ natureSos) {snaps : List SosValSnap} (hne : snaps ≠ []) :
    ∃ (objects : List SnapObject) (linked h' : HeapPub) (old : List SnapObject),
      (h.readObjects true clock 0 snaps).2.1 = objects.map Prod.fst ∧
      objects.map Prod.snd = receivedCopies clock (snaps.map (·.taggedFor h.pub)) ∧
      (objects.map Prod.fst).Nodup ∧
      (∀ object ∈ objects, h.fresh ≤ object.1 ∧ object.1 < linked.fresh) ∧
      (h.readObjects true clock 0 snaps).2.2.cacheObjects
        (h.readObjects true clock 0 snaps).2.1 = .ok h' ∧
      h.Grown linked ∧ PutInFront linked h' lists old objects := by
  obtain ⟨hgrown, objects, hcopies, hvals, hnodup, hobjects⟩ := h.readObjects_copies 0 snaps
  obtain ⟨r, hr⟩ : ∃ r, h.readObjects true clock 0 snaps = r := ⟨_, rfl⟩
  rw [hr] at hgrown hcopies hobjects ⊢
  -- the linking writes to the new objects only
  have hlinked : h.Grown { r.2.2 with mem := link r.2.2.mem r.2.1 } := by
    refine ⟨hgrown.pub, hgrown.cache, hgrown.destroyed, hgrown.fresh, fun a ha => ?_⟩
    refine (link_of_not_mem r.2.2.mem fun hmem => ?_).trans (hgrown.mem a ha)
    rw [hcopies] at hmem
    obtain ⟨object, hobject, rfl⟩ := List.mem_map.mp hmem
    have hlow := (hobjects object hobject).1
    omega
  cases objects with
  | nil =>
      have hlength := congrArg List.length hvals
      rw [List.length_map, List.length_map, List.length_zipIdx, List.length_map] at hlength
      exact absurd (List.eq_nil_of_length_eq_zero hlength.symm) hne
  | cons first rest =>
      have hsegment : Segment (link r.2.2.mem r.2.1) (some first.1) (first :: rest) none := by
        rw [hcopies]
        exact segment_link hnodup fun object hobject => ⟨none, (hobjects object hobject).2.2⟩
      have hloose : Loose { r.2.2 with mem := link r.2.2.mem r.2.1 } lists first.1
          (first :: rest) := by
        refine ⟨hsegment, fun object hobject => (hobjects object hobject).2.1, ?_⟩
        intro object hobject hmem
        obtain ⟨other, hother, haddr⟩ := List.mem_map.mp hmem
        have hlow := (hobjects object hobject).1
        have hhigh := hholds.allocated other hother
        omega
      have huse' : InUse { r.2.2 with mem := link r.2.2.mem r.2.1 } := by
        obtain ⟨hdepth, hnonneg, hhead⟩ := huse
        rw [← hlinked.pub] at hdepth hnonneg hhead
        rw [← hlinked.cache] at hdepth
        exact ⟨hdepth, hnonneg, hhead⟩
      obtain ⟨h', old, hput, hfront, -⟩ := putInFront_of_loose (hholds.grown hlinked) huse'
        (by rw [hlinked.pub]; exact hnature) hloose
      refine ⟨first :: rest, { r.2.2 with mem := link r.2.2.mem r.2.1 }, h', old, hcopies, hvals,
        hnodup, fun object hobject => ⟨(hobjects object hobject).1, (hobjects object hobject).2.1⟩,
        ?_, hlinked, hfront⟩
      rw [cacheObjects, show r.2.1.head? = some first.1 by rw [hcopies]; rfl]
      exact hput

end HeapPub

namespace CacheRun

variable {s s' : CacheRun} {m : SnapsMessage} {pub : SosPub} {messages : List SnapsMessage}

/-- **The ring and its history**: the lists of the newest messages, of which `old` are
gone, in front of `n` empty slots. -/
structure Inv (pub : SosPub) (depth : ℕ) (s : CacheRun) : Prop where
  guid : s.heap.pub.guid = pub.guid
  depth : s.heap.pub.cacheDepth = depth
  nature : s.heap.pub.pubMeta.nature ≠ natureSos
  inUse : s.heap.InUse
  nodup : (s.log.flatten.map Prod.fst).Nodup
  allocated : ∀ object ∈ s.log.flatten, object.1 < s.heap.fresh
  ring : ∃ lists old kept n, s.heap.Holds lists ∧
    lists.rotate s.heap.pub.cacheHead.toNat = kept.reverse ++ List.replicate n [] ∧
    s.log = old ++ kept ∧ (old = [] ∨ n = 0) ∧ s.heap.destroyed = old.flatten.map Prod.fst

/-- **A new list in front of a ring** that is full or is not. -/
theorem ring_step {lists : List (List SnapObject)} {old kept : List (List SnapObject)} {n head : ℕ}
    (list : List SnapObject) {gone : List SnapObject} (hhead : head < lists.length)
    (hring : lists.rotate head = kept.reverse ++ List.replicate n []) (hfull : old = [] ∨ n = 0)
    (hgone : lists[Ring.before lists.length head]? = some gone) :
    ∃ old' kept' n', (lists.set (Ring.before lists.length head) list).rotate
        (Ring.before lists.length head) = kept'.reverse ++ List.replicate n' [] ∧
      old ++ kept ++ [list] = old' ++ kept' ∧ (old' = [] ∨ n' = 0) ∧
      old'.flatten = old.flatten ++ gone := by
  have hset := Ring.rotate_set_before hhead list
  have hlast := Ring.getLast_rotate hhead
  rw [hgone, hring] at hlast
  rw [hset, hring]
  cases n with
  | zero =>
      -- the ring is full, and the oldest of its lists goes
      rw [List.replicate_zero, List.append_nil] at hlast hring ⊢
      cases kept with
      | nil =>
          rw [List.reverse_nil, List.getLast?_nil] at hlast
          cases hlast
      | cons oldest kept =>
          rw [List.reverse_cons, List.getLast?_concat] at hlast
          obtain rfl := Option.some.inj hlast
          refine ⟨old ++ [oldest], kept ++ [list], 0, ?_, by simp, .inr rfl, by simp⟩
          rw [List.reverse_cons, List.dropLast_concat, List.reverse_concat, List.replicate_zero,
            List.append_nil]
  | succ n =>
      -- there is an empty slot, and nothing is lost
      obtain rfl : old = [] := hfull.resolve_right (Nat.succ_ne_zero n)
      rw [List.replicate_succ', ← List.append_assoc, List.getLast?_concat] at hlast
      obtain rfl := Option.some.inj hlast
      refine ⟨[], kept ++ [list], n, ?_, by simp, .inl rfl, rfl⟩
      rw [List.replicate_succ', ← List.append_assoc, List.dropLast_concat, List.reverse_concat,
        List.cons_append]

/-- **New objects behind a history** of older ones: all are different still. -/
theorem history_append {log : List (List SnapObject)} {objects : List SnapObject} {low high : ℕ}
    (hnodup : (log.flatten.map Prod.fst).Nodup) (hold : ∀ object ∈ log.flatten, object.1 < low)
    (hnew : (objects.map Prod.fst).Nodup)
    (hbounds : ∀ object ∈ objects, low ≤ object.1 ∧ object.1 < high) (hle : low ≤ high) :
    ((log ++ [objects]).flatten.map Prod.fst).Nodup ∧
      ∀ object ∈ (log ++ [objects]).flatten, object.1 < high := by
  simp only [List.flatten_append, List.flatten_cons, List.flatten_nil, List.append_nil,
    List.map_append, List.mem_append]
  constructor
  · refine List.nodup_append.mpr ⟨hnodup, hnew, fun a ha b hb hsame => ?_⟩
    obtain ⟨object, hobject, rfl⟩ := List.mem_map.mp ha
    obtain ⟨object', hobject', rfl⟩ := List.mem_map.mp hb
    have hlow := (hbounds object' hobject').1
    have hhigh := hold object hobject
    omega
  · intro object hobject
    rcases hobject with hobject | hobject
    · exact (hold object hobject).trans_le hle
    · exact (hbounds object hobject).2

/-- **A message goes into the ring**: one with a snapshot, whatever it is. -/
theorem Inv.valSnaps {depth : ℕ} (h : Inv pub depth s) (hne : m.snaps ≠ []) :
    ∃ s' objects, s.valSnaps m = .ok s' ∧ Inv pub depth s' ∧ s'.log = s.log ++ [objects] ∧
      objects.map Prod.snd = receivedCopies m.clock (m.snaps.map (·.taggedFor pub)) := by
  obtain ⟨hguid, hdepth, hnature, huse, hnodup, hallocated, lists, old, kept, n, hholds, hring,
    hlog, hfull, hdestroyed⟩ := h
  obtain ⟨objects, linked, h', gone, hcopies, hvals, hnew, hbounds, hcache, hgrown, hput⟩ :=
    HeapPub.cacheObjects_readObjects m.clock hholds huse hnature hne
  have hhistory := history_append hnodup hallocated hnew hbounds hgrown.fresh
  obtain ⟨frame, hpub⟩ := hput.pub
  rw [hgrown.pub] at hpub
  have hhead := huse.head
  have hnonneg := huse.nonneg
  have hlen := huse.depth
  have hlists := hholds.segments.length_eq
  have hcaches : s.heap.caches = true := by
    rw [HeapPub.caches, decide_eq_true_iff]
    exact ⟨by omega, hnature⟩
  have htagged : m.snaps.map (·.taggedFor s.heap.pub) = m.snaps.map (·.taggedFor pub) := by
    simp only [SosValSnap.taggedFor, hguid]
  have hzip : (objects.map Prod.fst).zip
      (receivedCopies m.clock (m.snaps.map (·.taggedFor s.heap.pub))) = objects :=
    (List.zip_of_prod rfl hvals).symm
  -- the place in front is the one in front of the head of the ring
  have hpos : linked.pub.insertPos.toNat =
      Ring.before lists.length s.heap.pub.cacheHead.toNat := by
    rw [hgrown.pub, huse.insertPos_eq, hlists, Int.toNat_natCast]
  have hgone := hput.evicted
  rw [hpos] at hgone
  obtain ⟨old', kept', n', hring', hlog', hfull', hflatten⟩ :=
    ring_step objects (by omega) hring hfull hgone
  refine ⟨⟨h', s.queue.map (· ++ (s.heap.readObjects true m.clock 0 m.snaps).1),
    s.log ++ [objects]⟩, objects, ?_, ?_, rfl, by rw [hvals, htagged]⟩
  · rw [CacheRun.valSnaps, if_neg hne, hcaches]
    refine bind_eq_ok.mpr ⟨h', hcache, ?_⟩
    rw [hcopies, hzip]
  · refine ⟨by rw [hpub]; exact hguid, by rw [hpub]; exact hdepth, by rw [hpub]; exact hnature,
      hput.inUse, hhistory.1, ?_, lists.set linked.pub.insertPos.toNat objects, old', kept', n',
      hput.holds, ?_, ?_, hfull', ?_⟩
    · intro object hobject
      exact (hhistory.2 object hobject).trans_eq hput.fresh.symm
    · change (lists.set _ objects).rotate h'.pub.cacheHead.toNat = _
      have hhead' : h'.pub.cacheHead = linked.pub.insertPos := by
        rw [hpub, hgrown.pub]
        rfl
      rw [hhead', hpos]
      exact hring'
    · rw [← hlog', hlog]
    · change h'.destroyed = _
      rw [hput.destroyed, hgrown.destroyed, hdestroyed, hflatten, List.map_append]

/-- **The run.** -/
theorem Inv.run {depth : ℕ} (h : Inv pub depth s) (hne : ∀ m ∈ messages, m.snaps ≠ []) :
    ∃ s' lists, Trace.run step s messages = some s' ∧
      Inv pub depth s' ∧ s'.log = s.log ++ lists ∧
      lists.map (·.map Prod.snd) =
        messages.map fun m => receivedCopies m.clock (m.snaps.map (·.taggedFor pub)) := by
  induction messages generalizing s with
  | nil => exact ⟨s, [], rfl, h, (List.append_nil _).symm, rfl⟩
  | cons m messages ih =>
      rw [List.forall_mem_cons] at hne
      obtain ⟨s₁, objects, hstep, hinv, hlog₁, hvals⟩ := h.valSnaps hne.1
      obtain ⟨s', lists, hrun, hinv', hlog', hrest⟩ := ih hinv hne.2
      refine ⟨s', objects :: lists, ?_, hinv', ?_, ?_⟩
      · rw [Trace.run_cons, step, hstep]
        exact hrun
      · rw [hlog', hlog₁, List.append_assoc, List.singleton_append]
      · rw [List.map_cons, List.map_cons, hvals, hrest]

/-- A pub that has just been given its cache. -/
theorem inv_announced {depth : CInt} (hdepth : 1 ≤ depth.toInt) (hhead : pub.cacheHead = 0)
    (hnature : pub.pubMeta.nature ≠ natureSos) (queue : Option (List ℕ)) :
    Inv pub depth.toInt.toNat (announced pub depth queue) := by
  have hrotate : ∀ n k, (List.replicate n ([] : List SnapObject)).rotate k =
      List.replicate n [] := fun n k => List.rotate_replicate ..
  refine ⟨rfl, ?_, hnature, ⟨?_, hhead.ge, ?_⟩, List.nodup_nil,
    fun object hobject => absurd hobject List.not_mem_nil,
    List.replicate depth.toInt.toNat [], [], [], depth.toInt.toNat, ⟨?_, ?_, ?_⟩, ?_, rfl, .inl rfl,
    rfl⟩
  · change depth.toInt = depth.toInt.toNat
    omega
  · change ((List.replicate depth.toInt.toNat none).length : ℤ) = depth.toInt
    rw [List.length_replicate]
    omega
  · change pub.cacheHead < depth.toInt
    omega
  · exact List.forall₂_iff_get.mpr ⟨by
      rw [List.length_replicate]
      exact List.length_replicate, fun i hi hi' => by simp [announced]⟩
  · simp
  · simp
  · exact hrotate _ _

/-- **What the invariant says of the newest messages.** -/
theorem Inv.content {depth : ℕ} (h : Inv pub depth s)
    (hcopies : s.log.map (·.map Prod.snd) =
      messages.map fun m => receivedCopies m.clock (m.snaps.map (·.taggedFor pub))) :
    Content s pub depth messages := by
  obtain ⟨-, hdepth, -, huse, hnodup, -, lists, old, kept, n, hholds, hring, hlog, hfull,
    hdestroyed⟩ := h
  have hhead := huse.head
  have hnonneg := huse.nonneg
  have hlen := huse.depth
  have hsize := congrArg List.length hring
  simp only [List.length_rotate, List.length_append, List.length_reverse,
    List.length_replicate] at hsize
  have hlists := hholds.segments.length_eq
  have hcount : messages.length = old.length + kept.length := by
    have hlength := congrArg List.length hcopies
    rw [List.length_map, List.length_map, hlog, List.length_append] at hlength
    exact hlength.symm
  rw [hlog, List.flatten_append, List.map_append, List.nodup_append] at hnodup
  obtain ⟨hold, -, hapart⟩ := hnodup
  -- the lists that are gone are the first ones, and the others are in the ring
  have hgone : messages.length - depth = old.length ∧ depth - messages.length = n := by
    rcases hfull with rfl | rfl
    · rw [List.length_nil] at hcount ⊢
      omega
    · omega
  have hnewest : s.log.reverse.take depth = kept.reverse := by
    rw [hlog, List.reverse_append]
    rcases hfull with rfl | rfl
    · rw [List.reverse_nil, List.append_nil, List.take_of_length_le]
      rw [List.length_reverse]
      omega
    · rw [List.take_left']
      rw [List.length_reverse]
      omega
  refine ⟨hcopies, ?_, ?_, ?_⟩
  · rw [hnewest, hgone.2, ← hring]
    exact Ring.forall₂_rotate hholds.segments (by omega)
  · intro list hlist object hobject
    rw [hgone.1, hlog, List.take_left] at hlist
    rw [hdestroyed]
    exact List.count_eq_one_of_mem hold
      (List.mem_map_of_mem (List.mem_flatten.mpr ⟨list, hlist, hobject⟩))
  · intro list hlist object hobject hmem
    rw [hgone.1, hlog, List.drop_left] at hlist
    rw [hdestroyed] at hmem
    exact hapart object.1 hmem object.1
      (List.mem_map_of_mem (List.mem_flatten.mpr ⟨list, hlist, hobject⟩)) rfl

/-- **The cache has the newest messages**, after any number of them: newest first from
the head on, the rest empty, and what is gone destroyed, once. -/
theorem cache_ring {depth : CInt} (hdepth : 1 ≤ depth.toInt) (hhead : pub.cacheHead = 0)
    (hnature : pub.pubMeta.nature ≠ natureSos) (queue : Option (List ℕ))
    (hne : ∀ m ∈ messages, m.snaps ≠ []) :
    ∃ s, Trace.run step (announced pub depth queue) messages = some s ∧
      Content s pub depth.toInt.toNat messages := by
  obtain ⟨s, lists, hrun, hinv, hlog, hcopies⟩ :=
    (inv_announced hdepth hhead hnature queue).run hne
  refine ⟨s, hrun, hinv.content ?_⟩
  rw [hlog]
  exact hcopies

/-- Three messages in a cache of two. -/
theorem cache_ring_three :
    ∃ s, Trace.run step (announced default 2 none)
        [⟨[default], fun _ => 0⟩, ⟨[default, default], fun _ => 1⟩, ⟨[default], fun _ => 2⟩] = some s ∧
      Content s default 2
        [⟨[default], fun _ => 0⟩, ⟨[default, default], fun _ => 1⟩, ⟨[default], fun _ => 2⟩] :=
  cache_ring (show 1 ≤ (2 : CInt).toInt by decide) rfl (by decide) none (by simp)

end CacheRun

end SosFlow
