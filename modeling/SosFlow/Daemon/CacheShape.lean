import SosFlow.Daemon.Receive
import SosFlow.Lib.Trace

/-!
# The caches of the daemon keep their shape

A pub that caches `cache_depth` frames has an array of that many slots, and
its head is one of them. Five handlers write the three fields, each only
some of them, and the shape survives as long as three things do not happen:
a pub is made with a depth from the options, but without an array, by a
PUBLISH or as a monitor; an ANNOUNCE gives a pub that has an array another
depth; or a CACHE_SIZE grows a cache whose older slots do not fit where the
copy puts them.

A handler that would use a slot outside the array stops the run, with that
fault on record.
-/

namespace SosFlow

open Outcome Trace

/-- What reaches the daemon, and what it does by itself. -/
inductive CacheEvent where
  | announce (m : AnnounceMsg)
  | publish (m : PublishMsg)
  | valSnaps (g : SosGuid) (snaps : List SosValSnap) (clock : ℕ → Double)
  | cacheSize (g : SosGuid) (toSize : CInt)
  | cacheGrab (pubFilter : CString) (frameHead depthLimit : CInt) (rounds : ℕ)
  | addMonitor (g : SosGuid) (title : CString)
  | packMonitor (i : ℕ) (a : PackArgs)

/-- **The daemon, and the fault that stopped it.** -/
structure Guarded where
  daemon : Daemon
  fault : Option CacheFault

/-- The daemon behind a handler. -/
def Guarded.settle (d : Daemon) : Except CacheFault Daemon → Guarded
  | .ok d' => ⟨d', none⟩
  | .error fault => ⟨d, some fault⟩

/-- The daemon behind a query, which changes nothing. -/
def Guarded.query {α : Type} (d : Daemon) : Except CacheFault α → Guarded
  | .ok _ => ⟨d, none⟩
  | .error fault => ⟨d, some fault⟩

/-- The daemon behind a pack of its own, which may not return. -/
def Guarded.packed (d : Daemon) : Except PackFault Daemon → Option Guarded
  | .ok d' => some ⟨d', none⟩
  | .error (.cache fault) => some ⟨d, some fault⟩
  | .error _ => none

/-- **One event**, unless the daemon has stopped. -/
def cacheStep (s : Guarded) (e : CacheEvent) : Option Guarded :=
  if s.fault ≠ none then none
  else match e with
    | .announce m => some ⟨s.daemon.handleAnnounce m, none⟩
    | .publish m => (s.daemon.handlePublish m).map (⟨·, none⟩)
    | .valSnaps g snaps clock => some (.settle s.daemon (s.daemon.handleValSnaps g snaps clock))
    | .cacheSize g toSize => some (.settle s.daemon (s.daemon.handleCacheSize g toSize))
    | .cacheGrab pubFilter frameHead depthLimit rounds =>
      some (.query s.daemon (s.daemon.handleCacheGrab pubFilter frameHead depthLimit rounds))
    | .addMonitor g title => some ⟨s.daemon.addMonitor g title, none⟩
    | .packMonitor i a => Guarded.packed s.daemon (s.daemon.packMonitor i a)

/-- **The shape of every cache**, and no slot used outside its array. -/
structure ShapeKept (s : Guarded) : Prop where
  known : ∀ g pub, s.daemon.pubTable g = some pub → pub.CacheShape
  monitors : ∀ pub ∈ s.daemon.monitors, pub.CacheShape
  inside : s.fault ≠ some .outside

/-- **An event that leaves the caches in shape.** -/
def KeepsShape (s : Guarded) : CacheEvent → Prop
  | .announce m => ∀ pub ∈ s.daemon.pubTable m.refGuid,
      pub.cache = none ∨ m.cacheDepth.toInt ≤ 0 ∨ m.cacheDepth.toInt = pub.slots.length
  | .publish m => s.daemon.pubTable m.refGuid = none → s.daemon.config.pubCacheDepth = 0
  | .cacheSize g toSize => ∀ pub ∈ s.daemon.pubTable g,
      pub.cacheDepth < toSize.toInt.toNat → pub.GrowthFits toSize.toInt.toNat
  | .addMonitor _ _ => s.daemon.config.pubCacheDepth = 0
  | _ => True

instance (s : Guarded) (e : CacheEvent) : Decidable (KeepsShape s e) := by
  cases e <;> unfold KeepsShape <;> infer_instance

/-! ## What the handlers do to a cache -/

namespace SosPub

variable {pub pub' : SosPub}

/-- **The three fields of the cache are those of another pub.** -/
structure SameCache (pub pub' : SosPub) : Prop where
  cache : pub'.cache = pub.cache
  head : pub'.cacheHead = pub.cacheHead
  depth : pub'.cacheDepth = pub.cacheDepth

theorem SameCache.refl : SameCache pub pub := ⟨rfl, rfl, rfl⟩

theorem SameCache.trans {pub'' : SosPub} (h : SameCache pub pub') (h' : SameCache pub' pub'') :
    SameCache pub pub'' :=
  ⟨h'.cache.trans h.cache, h'.head.trans h.head, h'.depth.trans h.depth⟩

theorem CacheSound.same (h : pub.CacheSound) (hsame : SameCache pub pub') : pub'.CacheSound :=
  h.congr hsame.cache hsame.head hsame.depth

theorem growTo_sameCache (count rounds : ℕ) (pub : SosPub) :
    SameCache pub (growTo count rounds pub) := by
  induction rounds generalizing pub with
  | zero => exact .refl
  | succ rounds ih =>
      unfold growTo
      split
      case isTrue =>
        have hexpand : SameCache pub (sosExpandData pub) := ⟨rfl, rfl, rfl⟩
        exact hexpand.trans (ih _)
      case isFalse => exact .refl

end SosPub

section

variable {pub pub' : SosPub} {m : AnnounceMsg}

/-- **An ANNOUNCE keeps a cache sound** under the condition on its depth. -/
theorem SosPub.CacheSound.announced (h : pub.CacheSound)
    (hdepth : pub.cache = none ∨ m.cacheDepth.toInt ≤ 0 ∨ m.cacheDepth.toInt = pub.slots.length) :
    (sosAnnounceFromBuffer pub m).CacheSound := by
  have hgrow := SosPub.growTo_sameCache m.elems.length m.elems.length pub
  have hresized : SosPub.SameCache pub (pub.resized m.elems.length) :=
    ⟨hgrow.cache, hgrow.head, hgrow.depth⟩
  have hsound := h.same hresized
  have hdepth' : (pub.resized m.elems.length).cache = none ∨ m.cacheDepth.toInt ≤ 0 ∨
      m.cacheDepth.toInt = (pub.resized m.elems.length).slots.length := by
    rw [SosPub.slots, hresized.cache]
    exact hdepth
  exact (hsound.announce hdepth').same ⟨rfl, rfl, rfl⟩

/-- The first ANNOUNCE of a pub leaves a sound cache, whatever its depth. -/
theorem cacheSound_announced (config : SosConfig) (g : SosGuid) (title : CString) :
    (sosAnnounceFromBuffer (sosPubInit config g title 0) m).CacheSound := by
  have hgrow := SosPub.growTo_sameCache m.elems.length m.elems.length (sosPubInit config g title 0)
  have hnone : ((sosPubInit config g title 0).resized m.elems.length).cache = none := hgrow.cache
  have hsound := SosPub.cacheSound_announce hnone hgrow.head m.cacheDepth.toInt
  exact hsound.same ⟨rfl, rfl, rfl⟩

/-- One element of a PUBLISH leaves the cache alone. -/
theorem receiveElem_sameCache {e : PublishElem} (h : receiveElem pub e = some pub') :
    SosPub.SameCache pub pub' := by
  simp only [receiveElem, Option.bind_eq_bind, Option.bind_eq_some_iff, Option.some.injEq] at h
  obtain ⟨data, -, val, -, rfl⟩ := h
  exact ⟨rfl, rfl, rfl⟩

theorem receiveElems_sameCache {elems : List PublishElem} (h : receiveElems pub elems = some pub') :
    SosPub.SameCache pub pub' := by
  induction elems generalizing pub with
  | nil =>
      cases h
      exact .refl
  | cons e rest ih =>
      obtain ⟨mid, hmid, hrest⟩ := Option.bind_eq_some_iff.mp h
      exact (receiveElem_sameCache hmid).trans (ih hrest)

theorem sosPublishFromBuffer_sameCache {m : PublishMsg}
    (h : sosPublishFromBuffer pub m = some pub') : SosPub.SameCache pub pub' := by
  have hframe : SosPub.SameCache pub { pub with frame := m.frame } := ⟨rfl, rfl, rfl⟩
  exact hframe.trans (receiveElems_sameCache h)

/-- Received snapshots go into the cache without leaving it. -/
theorem cacheReceived_inside (h : pub.CacheSound) (copies : List SosValSnap) :
    Inside SosPub.CacheSound (cacheReceived pub copies) := by
  unfold cacheReceived
  split
  case isTrue => exact (sosPackSnapListIntoPubCache_inside h copies).mono fun _ hpub => hpub.1
  case isFalse => exact h

theorem sosValSnapQueueFromBuffer_inside (h : pub.CacheSound)
    (queue : Option (SosPipe SosValSnap)) (snaps : List SosValSnap) (clock : ℕ → Double) :
    Inside (fun r => r.1.CacheSound) (sosValSnapQueueFromBuffer pub queue snaps clock) := by
  unfold sosValSnapQueueFromBuffer
  split
  case isTrue => exact h
  case isFalse => exact (cacheReceived_inside h _).bind fun pub' hpub => hpub

end

/-! ## What a pack of the daemon's own does to a cache -/

/-- A call of `SOS_pack` that uses no slot outside the cache. -/
abbrev PackInside {α : Type} (post : α → Prop) : Except PackFault α → Prop :=
  Leaves (· ≠ .cache .outside) post

section

variable {pub : SosPub}

theorem ofOption_packInside {α : Type} (x : Option α) :
    PackInside (fun _ => True) (ofOption .badVal x) := by
  cases x with
  | none => exact fun h => (by cases h)
  | some _ => trivial

theorem withElem_sameCache (pub : SosPub) (guid : SosGuid) (name : CString) (type : ValType) :
    SosPub.SameCache pub (pub.withElem guid name type) := by
  unfold SosPub.withElem
  split
  · exact .refl
  · obtain ⟨spare, hgrow, -⟩ := pub.growForElem_eq
    unfold SosPub.addElem
    rw [hgrow]
    exact ⟨rfl, rfl, rfl⟩

theorem sosPackSnapSituateInPub_inside (pub : SosPub) (a : PackArgs) :
    PackInside (fun r => SosPub.SameCache pub r.1) (sosPackSnapSituateInPub pub a) := by
  unfold sosPackSnapSituateInPub
  split
  case isTrue => exact fun h => (by cases h)
  case isFalse =>
    refine (ofOption_packInside _).bind fun data _ => ?_
    exact withElem_sameCache pub a.guid a.name a.val.type

theorem sosPackSnapRenewPubData_inside (pub : SosPub) (snap : SosValSnap) (now : Double) :
    PackInside (fun r => SosPub.SameCache pub r.1) (sosPackSnapRenewPubData pub snap now) := by
  refine (ofOption_packInside _).bind fun data _ => ?_
  refine (ofOption_packInside _).bind fun v _ => ?_
  exact ⟨rfl, rfl, rfl⟩

theorem packIntoCache_inside (h : pub.CacheSound) (role : SosRole) (snap : SosValSnap) :
    PackInside SosPub.CacheSound (packIntoCache role pub snap) := by
  cases role with
  | client => exact h
  | daemon =>
      have hadd := sosPackSnapAddToPubCache_inside h snap
      unfold packIntoCache
      cases hr : sosPackSnapAddToPubCache pub snap with
      | ok pub' => exact hadd.of_ok hr
      | error fault => exact fun heq => hadd.of_error hr (PackFault.cache.inj heq)

/-- **A pack into a sound cache** stays inside it and keeps it sound. -/
theorem sosPackRelated_inside (h : pub.CacheSound) (role : SosRole)
    (queue : Option (SosPipe SosValSnap)) (a : PackArgs) :
    PackInside (fun r => r.1.CacheSound) (sosPackRelated role pub queue a) := by
  refine (sosPackSnapSituateInPub_inside pub a).bind fun placed hplaced => ?_
  refine (sosPackSnapRenewPubData_inside _ _ _).bind fun renewed hrenewed => ?_
  have hsound := h.same (hplaced.trans hrenewed)
  exact (packIntoCache_inside hsound role _).bind fun cached hcached => hcached

end

/-! ## The run -/

/-- **The invariant**: every cache is sound. -/
structure Daemon.CachesSound (d : Daemon) : Prop where
  known : ∀ g pub, d.pubTable g = some pub → pub.CacheSound
  monitors : ∀ pub ∈ d.monitors, pub.CacheSound

namespace Daemon.CachesSound

variable {d : Daemon}

theorem putPub (h : d.CachesSound) (g : SosGuid) {pub : SosPub} (hpub : pub.CacheSound) :
    (d.putPub g pub).CachesSound where
  known g' pub' hpub' := by
    rw [pubTable_putPub] at hpub'
    split at hpub'
    · cases hpub'
      exact hpub
    · exact h.known g' pub' hpub'
  monitors := h.monitors

theorem handleAnnounce (h : d.CachesSound) (m : AnnounceMsg)
    (hdepth : ∀ pub ∈ d.pubTable m.refGuid,
      pub.cache = none ∨ m.cacheDepth.toInt ≤ 0 ∨ m.cacheDepth.toInt = pub.slots.length) :
    (d.handleAnnounce m).CachesSound := by
  have hpub : (sosAnnounceFromBuffer (d.pubFor m.refGuid) m).CacheSound := by
    unfold pubFor
    cases hknown : d.pubTable m.refGuid with
    | none => exact cacheSound_announced _ _ _
    | some pub => exact (h.known _ _ hknown).announced (hdepth pub hknown)
  have hheard : SosPub.CacheSound
      { sosAnnounceFromBuffer (d.pubFor m.refGuid) m with announced := true } :=
    hpub.same ⟨rfl, rfl, rfl⟩
  have hput := h.putPub m.refGuid hheard
  exact ⟨hput.known, hput.monitors⟩

theorem handlePublish {d' : Daemon} (h : d.CachesSound) {m : PublishMsg}
    (hdepth : d.pubTable m.refGuid = none → d.config.pubCacheDepth = 0)
    (hpublish : d.handlePublish m = some d') : d'.CachesSound := by
  obtain ⟨pub', hpub', rfl⟩ := Option.map_eq_some_iff.mp hpublish
  have hpub : (d.pubFor m.refGuid).CacheSound := by
    unfold pubFor
    cases hknown : d.pubTable m.refGuid with
    | none => exact cacheSound_init (hdepth hknown)
    | some pub => exact h.known _ _ hknown
  exact h.putPub m.refGuid (hpub.same (sosPublishFromBuffer_sameCache hpub'))

theorem handleValSnaps (h : d.CachesSound) (g : SosGuid) (snaps : List SosValSnap)
    (clock : ℕ → Double) : Inside CachesSound (d.handleValSnaps g snaps clock) := by
  unfold Daemon.handleValSnaps
  cases hknown : d.pubTable g with
  | none => exact h
  | some pub =>
      have hpub := h.known g pub hknown
      refine (sosValSnapQueueFromBuffer_inside hpub _ snaps clock).bind fun r hr => ?_
      exact ⟨(h.putPub g hr).known, h.monitors⟩

theorem handleCacheSize (h : d.CachesSound) (g : SosGuid) (toSize : CInt)
    (hfits : ∀ pub ∈ d.pubTable g,
      pub.cacheDepth < toSize.toInt.toNat → pub.GrowthFits toSize.toInt.toNat) :
    Inside CachesSound (d.handleCacheSize g toSize) := by
  unfold Daemon.handleCacheSize
  cases hknown : d.pubTable g with
  | none => exact h
  | some pub =>
      have hpub := sosdResizeCache_inside (h.known g pub hknown) toSize (hfits pub hknown)
      exact hpub.bind fun pub' hpub' => h.putPub g hpub'

theorem addMonitor (h : d.CachesSound) (g : SosGuid) (title : CString)
    (hdepth : d.config.pubCacheDepth = 0) : (d.addMonitor g title).CachesSound where
  known := h.known
  monitors pub hpub := by
    rcases List.mem_append.mp hpub with hold | hnew
    · exact h.monitors pub hold
    · rw [List.mem_singleton.mp hnew]
      exact cacheSound_init hdepth

/-- **A pack of the daemon's own**, where a fault of the cache is not one
outside it. -/
theorem packMonitor (h : d.CachesSound) (i : ℕ) (a : PackArgs) :
    PackInside CachesSound (d.packMonitor i a) := by
  unfold Daemon.packMonitor
  cases hmonitor : d.monitors[i]? with
  | none => exact h
  | some pub =>
      have hpub := h.monitors pub (List.mem_of_getElem? hmonitor)
      refine (sosPackRelated_inside hpub .daemon d.snapQueue a).bind fun r hr => ?_
      exact ⟨h.known, fun pub' hpub' => (List.mem_or_eq_of_mem_set hpub').elim
        (h.monitors pub') (fun heq => heq ▸ hr)⟩

theorem grabAll {pubs : List SosPub} (h : ∀ pub ∈ pubs, pub.CacheSound)
    (frameHead depthLimit : ℤ) (rounds : ℕ) :
    Inside (fun _ => True) (Daemon.grabAll frameHead depthLimit rounds pubs) := by
  induction pubs with
  | nil => trivial
  | cons pub rest ih =>
      rw [List.forall_mem_cons] at h
      refine (sosaCacheToResults_inside h.1 frameHead depthLimit rounds).bind fun found _ => ?_
      exact (ih h.2).bind fun others _ => trivial

theorem handleCacheGrab (h : d.CachesSound) (pubFilter : CString) (frameHead depthLimit : CInt)
    (rounds : ℕ) :
    Inside (fun _ => True) (d.handleCacheGrab pubFilter frameHead depthLimit rounds) := by
  refine grabAll (fun pub hpub => ?_) _ _ rounds
  obtain ⟨g, -, hg⟩ := List.mem_filterMap.mp (List.mem_of_mem_filter hpub)
  exact h.known g pub hg

end Daemon.CachesSound

/-- **The invariant of a run**: the caches are sound, and no slot was used
outside its array. -/
structure ShapeInv (s : Guarded) : Prop where
  sound : s.daemon.CachesSound
  inside : s.fault ≠ some .outside

theorem ShapeInv.shapeKept {s : Guarded} (h : ShapeInv s) : ShapeKept s where
  known g pub hpub := (h.sound.known g pub hpub).shape
  monitors pub hpub := (h.sound.monitors pub hpub).shape
  inside := h.inside

/-- A handler that stays inside leaves the invariant. -/
theorem ShapeInv.settle {d : Daemon} {r : Except CacheFault Daemon} (h : d.CachesSound)
    (hr : Inside Daemon.CachesSound r) : ShapeInv (Guarded.settle d r) := by
  cases hres : r with
  | ok d' => exact ⟨hr.of_ok hres, fun hfault => (by cases hfault)⟩
  | error fault => exact ⟨h, fun hfault => hr.of_error hres (Option.some.inj hfault)⟩

theorem ShapeInv.query {α : Type} {d : Daemon} {r : Except CacheFault α} (h : d.CachesSound)
    (hr : Inside (fun _ => True) r) : ShapeInv (Guarded.query d r) := by
  cases hres : r with
  | ok d' => exact ⟨h, fun hfault => (by cases hfault)⟩
  | error fault => exact ⟨h, fun hfault => hr.of_error hres (Option.some.inj hfault)⟩

theorem ShapeInv.packed {d : Daemon} {r : Except PackFault Daemon} {s : Guarded}
    (h : d.CachesSound) (hr : PackInside Daemon.CachesSound r) (hs : Guarded.packed d r = some s) :
    ShapeInv s := by
  cases hres : r with
  | ok d' =>
      rw [hres] at hs
      cases hs
      exact ⟨hr.of_ok hres, fun hfault => (by cases hfault)⟩
  | error fault =>
      rw [hres] at hs
      cases fault with
      | cache fault =>
          cases hs
          exact ⟨h, fun hfault => hr.of_error hres (congrArg _ (Option.some.inj hfault))⟩
      | refused => cases hs
      | badVal => cases hs

/-- **One event that leaves the caches in shape.** -/
theorem ShapeInv.step (s : Guarded) (e : CacheEvent) (s' : Guarded) (h : ShapeInv s)
    (hok : KeepsShape s e) (hstep : cacheStep s e = some s') : ShapeInv s' := by
  have hsound := h.sound
  unfold cacheStep at hstep
  split at hstep
  case isTrue => cases hstep
  case isFalse =>
    cases e with
    | announce m =>
        cases hstep
        exact ⟨hsound.handleAnnounce m hok, fun hfault => (by cases hfault)⟩
    | publish m =>
        obtain ⟨d', hd', rfl⟩ := Option.map_eq_some_iff.mp hstep
        exact ⟨hsound.handlePublish hok hd', fun hfault => (by cases hfault)⟩
    | valSnaps g snaps clock =>
        cases hstep
        exact .settle hsound (hsound.handleValSnaps g snaps clock)
    | cacheSize g toSize =>
        cases hstep
        exact .settle hsound (hsound.handleCacheSize g toSize hok)
    | cacheGrab pubFilter frameHead depthLimit rounds =>
        cases hstep
        exact .query hsound (hsound.handleCacheGrab pubFilter frameHead depthLimit rounds)
    | addMonitor g title =>
        cases hstep
        exact ⟨hsound.addMonitor g title hok, fun hfault => (by cases hfault)⟩
    | packMonitor i a => exact .packed hsound (hsound.packMonitor i a) hstep

/-- A daemon before its first event. -/
def Guarded.start (config : SosConfig) (queue : Option (SosPipe SosValSnap)) : Guarded :=
  ⟨.start config queue, none⟩

theorem ShapeInv.start (config : SosConfig) (queue : Option (SosPipe SosValSnap)) :
    ShapeInv (.start config queue) where
  sound := ⟨fun _ _ h => (by cases h), fun _ h => absurd h List.not_mem_nil⟩
  inside h := (by cases h)

/-- **The caches keep their shape** in every state that a run reaches, when
no pub is made with a depth but without an array, no ANNOUNCE gives an array
another depth, and no cache grows by a copy that ends behind the new array. -/
theorem cache_shape_kept {config : SosConfig} {queue : Option (SosPipe SosValSnap)}
    {events : List CacheEvent} {s : Guarded}
    (hok : Along cacheStep KeepsShape (.start config queue) events)
    (hrun : run cacheStep (.start config queue) events = some s) : ShapeKept s :=
  (run_invariant ShapeInv.step (ShapeInv.start config queue) hok hrun).shapeKept

/-- The ANNOUNCE of a pub without elements that caches to a depth. -/
def announceDepth (g : SosGuid) (depth : CInt) : AnnounceMsg :=
  { (sosPubInit plainConfig g .empty 0).announceMsg with cacheDepth := depth }

theorem cache_shape_kept_shrunk :
    ∃ s, run cacheStep (.start plainConfig none)
      [.announce (announceDepth 7 2), .valSnaps 7 [default] (fun _ => 0), .cacheSize 7 1] = some s ∧
      ShapeKept s := by
  have hrun : (run cacheStep (.start plainConfig none) [.announce (announceDepth 7 2),
      .valSnaps 7 [default] (fun _ => 0), .cacheSize 7 1]).isSome := by decide
  obtain ⟨s, hs⟩ := Option.isSome_iff_exists.mp hrun
  exact ⟨s, hs, cache_shape_kept (by decide) hs⟩

/-- A pub that is announced with no cache and then with one of three slots:
the array is the empty one of the first ANNOUNCE, and the first list of
snapshots goes behind it. -/
theorem not_cache_shape_kept : ¬ ∀ config queue events s,
    run cacheStep (.start config queue) events = some s → ShapeKept s := by
  intro hkept
  have hrun : ∃ s, run cacheStep (.start plainConfig none) [.announce (announceDepth 7 0),
      .announce (announceDepth 7 3), .valSnaps 7 [default] fun _ => 0] = some s ∧
      s.fault = some .outside := ⟨_, rfl, rfl⟩
  obtain ⟨s, hs, hfault⟩ := hrun
  exact (hkept _ _ _ s hs).inside hfault

end SosFlow
