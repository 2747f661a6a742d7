import SosFlow.Daemon.Elements
import SosFlow.Lib.Trace
import SosFlow.Lib.Lockstep

/-!
# One queue for clients and monitors

`SOSD.db.snap_queue` is filled by the handler of VAL_SNAPS, and is also the
queue of every pub that the daemon's monitor packs into. The thread of the
database takes everything out of it. So does `SOS_publish` of a monitor's
pub, which sends whatever it finds there as snapshots of that pub.

Each snapshot in the queue is tagged here with where it came from. What a
publish of a monitor sends is its own as long as the queue holds nothing
else at that time.
-/

namespace SosFlow

open Outcome Trace

/-- Who pushed a snapshot: the handler of VAL_SNAPS, or a pack into a pub of
the monitor. -/
inductive SnapOrigin where
  | ingested
  | monitor (i : ℕ)
deriving DecidableEq

/-- **A VAL_SNAPS that was built for a pub of the monitor**, with what was
popped for it. -/
structure BuiltSnaps where
  monitor : ℕ
  elemCount : ℕ
  popped : List (SosValSnap × SnapOrigin)
  msg : ValSnapsMsg

/-- **The daemon with its queue**: what is in it, what was ingested, what went to
the database, and what was built. -/
structure Sharing where
  daemon : Daemon
  entries : List (SosValSnap × SnapOrigin)
  ingested : List SosValSnap
  inserted : List (SosValSnap × SnapOrigin)
  built : List BuiltSnaps

/-- A step of the handlers, of the thread of the database, or of the monitor. -/
inductive SharingStep where
  | announce (m : AnnounceMsg)
  | publish (m : PublishMsg)
  | valSnaps (g : SosGuid) (snaps : List SosValSnap) (clock : ℕ → Double)
  | drain
  | addMonitor (g : SosGuid) (title : CString)
  | packMonitor (i : ℕ) (a : PackArgs)
  | publishMonitor (i : ℕ) (send : Double) (clock : ℕ → Double)

/-- `pipe_pop_eager` of `SOSD_db_insert_vals`, which takes all there is. -/
def Sharing.drain (s : Sharing) : Sharing :=
  let n := s.daemon.queue.elemCount.toNat
  { s with
    daemon := { s.daemon with snapQueue := some (s.daemon.queue.pop n).2 }
    entries := s.entries.drop n
    inserted := s.inserted ++ s.entries.take n }

/-- `SOS_publish` of a pub of the monitor. -/
def Sharing.publishMonitor (s : Sharing) (i : ℕ) (send : Double) (clock : ℕ → Double) :
    Option Sharing := do
  let pub ← s.daemon.monitors[i]?
  let r ← sosPublish ⟨pub, s.daemon.queue⟩ send clock
  some { s with
    daemon := { s.daemon with
      monitors := s.daemon.monitors.set i r.2.pub
      snapQueue := some r.2.queue }
    entries := s.entries.drop (s.daemon.queue.items.length - r.2.queue.items.length)
    built := s.built ++ (r.1.snaps.map fun m => ⟨i, pub.data.length,
      s.entries.take (s.daemon.queue.items.length - r.2.queue.items.length), m⟩).toList }

/-- **One step.** -/
def sharingStep (s : Sharing) : SharingStep → Option Sharing
  | .announce m => some { s with daemon := s.daemon.handleAnnounce m }
  | .publish m => (s.daemon.handlePublish m).map fun d => { s with daemon := d }
  | .valSnaps g snaps clock => (s.daemon.handleValSnaps g snaps clock).toOption.map fun d =>
      { s with
        daemon := d
        entries := s.entries ++ (s.daemon.pushes g snaps).map (·, .ingested)
        ingested := s.ingested ++ s.daemon.pushes g snaps }
  | .drain => some s.drain
  | .addMonitor g title => some { s with daemon := s.daemon.addMonitor g title }
  | .packMonitor i a => (s.daemon.packMonitor i a).toOption.map fun d =>
      { s with
        daemon := d
        entries := s.entries ++ (d.queue.items.drop s.daemon.queue.items.length).map (·, .monitor i) }
  | .publishMonitor i send clock => s.publishMonitor i send clock

/-- A daemon without pubs, over an empty queue. -/
def Sharing.start (config : SosConfig) : Sharing :=
  ⟨⟨config, fun _ => none, [], [], some .empty⟩, [], [], [], []⟩

/-- **A publish that finds its own**: everything in the queue was packed into the
pub that the monitor publishes. -/
def FindsOwn (s : Sharing) : SharingStep → Prop
  | .publishMonitor i _ _ => ∀ p ∈ s.entries, p.2 = .monitor i
  | _ => True

instance (s : Sharing) (step : SharingStep) : Decidable (FindsOwn s step) := by
  cases step <;> unfold FindsOwn <;> infer_instance

/-- What a VAL_SNAPS carries of a snapshot that was popped for it. -/
structure CarriesOwn (i elemCount : ℕ) (p : SosValSnap × SnapOrigin)
    (sent : SosValSnap × SosVal) : Prop where
  own : p.2 = .monitor i
  snap : ∃ now, sent.1 = p.1.sentAt now
  tag : sent.2.type = sent.1.type
  elem : sent.1.elem < elemCount

/-- **A message of a monitor's pub that is all its own**, with every value as its
tag says. -/
def BuiltSnaps.Own (b : BuiltSnaps) : Prop :=
  List.Forall₂ (CarriesOwn b.monitor b.elemCount) b.popped b.msg.snaps

/-- **Isolation**: every message is all its own, and what was ingested went to
the database, in its order, or is still in the queue. -/
structure Isolated (s : Sharing) : Prop where
  queue : s.entries.map (·.1) = s.daemon.queue.items
  built : ∀ b ∈ s.built, b.Own
  ingested : s.ingested =
    ((s.inserted ++ s.entries).filter (·.2 = .ingested)).map (·.1)

/-! ## The invariant -/

/-- A snapshot has an element of its type in a pub. -/
def SosPub.HasElemOf (pub : SosPub) (snap : SosValSnap) : Prop :=
  ∃ data, pub.data[snap.elem]? = some data ∧ data.type = snap.type

namespace SosPub.HasElemOf

variable {pub pub' : SosPub} {snap : SosValSnap}

theorem congr (h : pub.HasElemOf snap) (hdata : pub'.data = pub.data) : pub'.HasElemOf snap := by
  obtain ⟨data, hat, htype⟩ := h
  exact ⟨data, hdata ▸ hat, htype⟩

/-- A new element comes behind the others. -/
theorem withElem (h : pub.HasElemOf snap) (guid : SosGuid) (name : CString) (type : ValType) :
    (pub.withElem guid name type).HasElemOf snap := by
  obtain ⟨data, hat, htype⟩ := h
  refine ⟨data, ?_, htype⟩
  unfold SosPub.withElem
  split
  · exact hat
  · rw [SosPub.data_addElem, List.getElem?_append_left (List.getElem?_eq_some_iff.mp hat).1, hat]

/-- A new value leaves the type. -/
theorem setElem (h : pub.HasElemOf snap) {pos : ℕ} {old data : SosData}
    (hold : pub.data[pos]? = some old) (htype : data.type = old.type) :
    (pub.setElem pos data).HasElemOf snap := by
  obtain ⟨data', hat, htype'⟩ := h
  by_cases hpos : pos = snap.elem
  · subst hpos
    cases hold.symm.trans hat
    refine ⟨data, ?_, htype.trans htype'⟩
    exact List.getElem?_set_self (List.getElem?_eq_some_iff.mp hold).1
  · exact ⟨data', (List.getElem?_set_ne hpos).trans hat, htype'⟩

end SosPub.HasElemOf

/-- **What holds between any two steps**: the snapshots that were packed into a
pub of the monitor have their elements there. -/
structure SharingInv (s : Sharing) : Prop where
  isolated : Isolated s
  hasQueue : ∃ q, s.daemon.snapQueue = some q ∧ q.Counted
  own : ∀ p ∈ s.entries, ∀ i, p.2 = .monitor i →
    ∃ pub, s.daemon.monitors[i]? = some pub ∧ pub.HasElemOf p.1

namespace SharingInv

variable {s s' : Sharing}

theorem counted (h : SharingInv s) : s.daemon.queue.Counted := by
  obtain ⟨q, hq, hcounted⟩ := h.hasQueue
  rw [Daemon.queue, hq, Option.getD_some]
  exact hcounted

theorem snapQueue (h : SharingInv s) : s.daemon.snapQueue = some s.daemon.queue := by
  obtain ⟨q, hq, -⟩ := h.hasQueue
  rw [Daemon.queue, hq, Option.getD_some]

theorem length_entries (h : SharingInv s) : s.entries.length = s.daemon.queue.items.length := by
  rw [← h.isolated.queue, List.length_map]

theorem start (config : SosConfig) : SharingInv (.start config) where
  isolated := ⟨rfl, fun _ h => absurd h List.not_mem_nil, rfl⟩
  hasQueue := ⟨_, rfl, SosPipe.counted_empty⟩
  own _ h := absurd h List.not_mem_nil

/-- A step that leaves the queue and the monitors alone. -/
theorem daemon (h : SharingInv s) {d : Daemon} (hqueue : d.snapQueue = s.daemon.snapQueue)
    (hmonitors : ∀ (i : ℕ) (pub : SosPub),
      s.daemon.monitors[i]? = some pub → d.monitors[i]? = some pub) :
    SharingInv { s with daemon := d } where
  isolated := ⟨by
    change _ = d.queue.items
    rw [Daemon.queue, hqueue]
    exact h.isolated.queue, h.isolated.built, h.isolated.ingested⟩
  hasQueue := by
    obtain ⟨q, hq, hcounted⟩ := h.hasQueue
    exact ⟨q, hqueue.trans hq, hcounted⟩
  own p hp i hi := by
    obtain ⟨pub, hpub, helem⟩ := h.own p hp i hi
    exact ⟨pub, hmonitors i pub hpub, helem⟩

/-- **A VAL_SNAPS is ingested.** -/
theorem valSnaps (h : SharingInv s) {g : SosGuid} {snaps : List SosValSnap} {clock : ℕ → Double}
    {d : Daemon} (hd : s.daemon.handleValSnaps g snaps clock = .ok d) :
    SharingInv { s with
      daemon := d
      entries := s.entries ++ (s.daemon.pushes g snaps).map (·, .ingested)
      ingested := s.ingested ++ s.daemon.pushes g snaps } := by
  have hingested := Daemon.handleValSnaps_eq_ok hd
  have hqueue := hingested.queue (by rw [h.snapQueue]; rfl)
  have hmonitors := hingested.monitors
  refine ⟨⟨?_, h.isolated.built, ?_⟩, ⟨_, hqueue, h.counted.pushAll _⟩, ?_⟩
  · change (s.entries ++ _).map _ = d.queue.items
    rw [Daemon.queue, hqueue, Option.getD_some, List.map_append, h.isolated.queue, List.map_map]
    exact congrArg _ (List.map_id _)
  · change s.ingested ++ _ = _
    rw [h.isolated.ingested]
    simp only [← List.append_assoc, List.filter_append, List.map_append, List.filter_map,
      Function.comp_def, decide_true, List.filter_true, List.map_map]
    exact congrArg _ (List.map_id' _).symm
  · intro p hp i hi
    change ∃ pub, d.monitors[i]? = _ ∧ _
    rw [hmonitors]
    rcases List.mem_append.mp hp with hold | hnew
    · exact h.own p hold i hi
    · obtain ⟨snap, -, rfl⟩ := List.mem_map.mp hnew
      cases hi

/-- **The thread of the database takes everything.** -/
theorem drain (h : SharingInv s) : SharingInv s.drain := by
  have hpop := h.counted.pop_all
  have hlen : s.daemon.queue.elemCount.toNat = s.entries.length := by
    have hcount : s.daemon.queue.elemCount = s.daemon.queue.items.length := h.counted
    rw [hcount, h.length_entries, Int.toNat_natCast]
  have hdrain : s.drain = { s with
      daemon := { s.daemon with snapQueue := some .empty }
      entries := []
      inserted := s.inserted ++ s.entries } := by
    unfold Sharing.drain
    simp only [hpop]
    rw [hlen, List.drop_length, List.take_length]
  rw [hdrain]
  refine ⟨⟨rfl, h.isolated.built, ?_⟩, ⟨_, rfl, SosPipe.counted_empty⟩, ?_⟩
  · change s.ingested = _
    rw [List.append_nil]
    exact h.isolated.ingested
  · exact fun p hp => absurd hp List.not_mem_nil

/-- **A pack of the monitor.** -/
theorem packMonitor (h : SharingInv s) {i : ℕ} {a : PackArgs} {d : Daemon}
    (hd : s.daemon.packMonitor i a = .ok d) :
    SharingInv { s with
      daemon := d
      entries := s.entries ++
        (d.queue.items.drop s.daemon.queue.items.length).map (·, .monitor i) } := by
  unfold Daemon.packMonitor at hd
  cases hi : s.daemon.monitors[i]? with
  | none =>
      rw [hi] at hd
      cases hd
      rw [List.drop_length, List.map_nil, List.append_nil]
      exact h
  | some pub =>
      rw [hi, h.snapQueue] at hd
      obtain ⟨⟨pub', queue'⟩, hpack, hdr⟩ := bind_eq_ok.mp hd
      cases hdr
      obtain ⟨-, data, v, hdata, hv, hcached, hqueue⟩ := sosPackRelated_eq_ok.mp hpack
      rw [Option.map_some] at hqueue
      have hpub' : pub'.data = ((pub.withElem a.guid a.name a.val.type).setElem
          (pub.elemPos a.name) (data.renew v a.now)).data := by
        unfold packIntoCache at hcached
        cases hadd : sosPackSnapAddToPubCache ((pub.withElem a.guid a.name a.val.type).setElem
            (pub.elemPos a.name) (data.renew v a.now)) (a.snap pub (pub.elemPos a.name) data) with
        | error fault =>
            rw [hadd] at hcached
            cases hcached
        | ok cached =>
            rw [hadd] at hcached
            cases hcached
            exact ((sosPackSnapAddToPubCache_recached _ _).of_ok hadd).data
      have hnew : pub'.HasElemOf (a.snap pub (pub.elemPos a.name) data) := by
        refine ⟨data.renew v a.now, ?_, rfl⟩
        rw [hpub']
        exact List.getElem?_set_self (List.getElem?_eq_some_iff.mp hdata).1
      have hlt : i < s.daemon.monitors.length := (List.getElem?_eq_some_iff.mp hi).1
      have hitems : (s.daemon.queue.push (a.snap pub (pub.elemPos a.name) data)).items.drop
          s.daemon.queue.items.length = [a.snap pub (pub.elemPos a.name) data] :=
        List.drop_left' rfl
      refine ⟨⟨?_, h.isolated.built, ?_⟩, ⟨_, hqueue, h.counted.push _⟩, ?_⟩
      · change (s.entries ++ List.map _ (List.drop _ (queue'.getD .empty).items)).map _ =
          (queue'.getD .empty).items
        rw [hqueue, Option.getD_some, hitems, List.map_append, h.isolated.queue]
        rfl
      · change s.ingested = List.map _ (List.filter _ (_ ++ (s.entries ++
          List.map _ (List.drop _ (queue'.getD .empty).items))))
        rw [hqueue, Option.getD_some, hitems, h.isolated.ingested, ← List.append_assoc,
          List.filter_append (s.inserted ++ s.entries)]
        simp
      · intro p hp j hj
        change p ∈ s.entries ++ List.map _ (List.drop _ (queue'.getD .empty).items) at hp
        rw [hqueue, Option.getD_some, hitems] at hp
        change ∃ pub, (s.daemon.monitors.set i pub')[j]? = some pub ∧ _
        rcases List.mem_append.mp hp with hold | hlast
        · obtain ⟨pubj, hpubj, helem⟩ := h.own p hold j hj
          by_cases hij : i = j
          · subst hij
            cases hi.symm.trans hpubj
            refine ⟨pub', List.getElem?_set_self hlt, ?_⟩
            have hrenewed : ((pub.withElem a.guid a.name a.val.type).setElem
                (pub.elemPos a.name) (data.renew v a.now)).HasElemOf p.1 :=
              (helem.withElem a.guid a.name a.val.type).setElem hdata rfl
            exact hrenewed.congr hpub'
          · exact ⟨pubj, (List.getElem?_set_ne hij).trans hpubj, helem⟩
        · rw [List.map_singleton, List.mem_singleton] at hlast
          subst hlast
          cases hj
          exact ⟨pub', List.getElem?_set_self hlt, hnew⟩

/-- **A publish that finds its own** sends only that. -/
theorem publishMonitor (h : SharingInv s) {i : ℕ} {send : Double} {clock : ℕ → Double}
    (hown : ∀ p ∈ s.entries, p.2 = .monitor i)
    (hs : s.publishMonitor i send clock = some s') : SharingInv s' := by
  simp only [Sharing.publishMonitor, Option.bind_eq_bind, Option.bind_eq_some_iff] at hs
  obtain ⟨pub, hi, ⟨out, c⟩, hrun, hs⟩ := hs
  have hby := sosPublish_publishedBy h.counted hrun
  have hempty : c.queue = .empty := hby.locked.queue
  have hpopped : s.daemon.queue.items.length - c.queue.items.length = s.entries.length := by
    rw [hempty, h.length_entries]
    rfl
  have hlt : i < s.daemon.monitors.length := (List.getElem?_eq_some_iff.mp hi).1
  rw [hpopped, List.drop_length, List.take_length] at hs
  cases hs
  refine ⟨⟨?_, ?_, ?_⟩, ⟨_, rfl, ?_⟩, fun p hp => absurd hp List.not_mem_nil⟩
  · change [] = c.queue.items
    rw [hempty]
    rfl
  · intro b hb
    rcases List.mem_append.mp hb with hold | hnew
    · exact h.isolated.built b hold
    · obtain ⟨m, hm, rfl⟩ := Option.map_eq_some_iff.mp (Option.mem_toList.mp hnew)
      rcases hby.locked.snaps with ⟨-, hnone⟩ | ⟨-, sent, hsome, hall⟩
      · exact absurd (hm.symm.trans hnone) (by simp)
      · cases hm.symm.trans hsome
        have hentries : List.Forall₂ (fun (p : SosValSnap × SnapOrigin) x =>
            SentAs (sosAnnounce pub).2 p.1 x) s.entries sent := by
          rw [← List.forall₂_map_left_iff, h.isolated.queue]
          exact hall
        refine (List.forall₂_iff_get.mpr ⟨hentries.length_eq, fun j hj hj' => ?_⟩)
        have hmem : s.entries.get ⟨j, hj⟩ ∈ s.entries := List.get_mem _ _
        obtain ⟨⟨now, hnow⟩, type, htype, hval⟩ := (List.forall₂_iff_get.mp hentries).2 j hj hj'
        obtain ⟨pub₁, hpub₁, data, hdata, hdatatype⟩ := h.own _ hmem i (hown _ hmem)
        cases hi.symm.trans hpub₁
        have helem := (List.getElem?_eq_some_iff.mp hdata).1
        rw [typeAt_sosAnnounce, SosPub.typeAt, SosPub.elemAt_eq_some
          (lt_of_lt_of_le helem (Nat.le_add_right _ _)), Option.map_some,
          SosPub.elemOr_of_data hdata] at htype
        refine ⟨hown _ hmem, ⟨now, hnow⟩, ?_, ?_⟩
        · rw [SosVal.type_readAs hval, hnow, ← Option.some.inj htype]
          exact hdatatype
        · rw [hnow]
          exact helem
  · change s.ingested = _
    have hnone : s.entries.filter (·.2 = .ingested) = [] := by
      refine List.filter_eq_nil_iff.mpr fun p hp => ?_
      rw [hown p hp]
      exact fun heq => (by cases of_decide_eq_true heq)
    rw [List.append_nil, h.isolated.ingested, List.filter_append, hnone, List.append_nil]
  · rw [hempty]
    exact SosPipe.counted_empty

/-- **Every step that finds its own** keeps the invariant. -/
theorem step (s : Sharing) (step : SharingStep) (s' : Sharing) (h : SharingInv s)
    (hok : FindsOwn s step) (hstep : sharingStep s step = some s') : SharingInv s' := by
  cases step with
  | announce m =>
      cases hstep
      exact h.daemon rfl fun _ _ => id
  | publish m =>
      obtain ⟨d, hd, rfl⟩ := Option.map_eq_some_iff.mp hstep
      obtain ⟨pub, -, rfl⟩ := Option.map_eq_some_iff.mp hd
      exact h.daemon rfl fun _ _ => id
  | valSnaps g snaps clock =>
      obtain ⟨d, hd, rfl⟩ := Option.map_eq_some_iff.mp hstep
      cases hr : s.daemon.handleValSnaps g snaps clock with
      | error fault =>
          rw [hr] at hd
          cases hd
      | ok d' =>
          rw [hr] at hd
          cases hd
          exact h.valSnaps hr
  | drain =>
      cases hstep
      exact h.drain
  | addMonitor g title =>
      cases hstep
      refine h.daemon rfl fun i pub hpub => ?_
      change (_ ++ _)[i]? = some pub
      rw [List.getElem?_append_left (List.getElem?_eq_some_iff.mp hpub).1, hpub]
  | packMonitor i a =>
      obtain ⟨d, hd, rfl⟩ := Option.map_eq_some_iff.mp hstep
      cases hr : s.daemon.packMonitor i a with
      | error fault =>
          rw [hr] at hd
          cases hd
      | ok d' =>
          rw [hr] at hd
          cases hd
          exact h.packMonitor hr
  | publishMonitor i send clock => exact h.publishMonitor hok hstep

end SharingInv

/-- **Snapshots are isolated** in every state that a run reaches, when every
publish of the monitor finds only its own snapshots in the queue. -/
theorem snaps_isolated {config : SosConfig} {steps : List SharingStep} {s : Sharing}
    (hok : Along sharingStep FindsOwn (.start config) steps)
    (hrun : run sharingStep (.start config) steps = some s) : Isolated s :=
  (run_invariant SharingInv.step (SharingInv.start config) hok hrun).isolated

/-- A pub of the monitor that is packed into and published, and a snapshot of a
client that goes to the database. -/
def ownSteps : List SharingStep :=
  [.addMonitor 3 .empty, .announce (sosPubInit plainConfig 5 .empty 0).announceMsg,
    .packMonitor 0 ⟨.empty, .int 1, 0, 9, 0⟩, .publishMonitor 0 0 fun _ => 0,
    .valSnaps 5 [default] fun _ => 0, .drain]

theorem snaps_isolated_apart :
    ∃ s, run sharingStep (.start plainConfig) ownSteps = some s ∧ Isolated s := by
  have hrun : (run sharingStep (.start plainConfig) ownSteps).isSome := by decide
  obtain ⟨s, hs⟩ := Option.isSome_iff_exists.mp hrun
  exact ⟨s, hs, snaps_isolated (by decide) hs⟩

/-- A snapshot of a client is in the queue when the monitor publishes. -/
def mixedSteps : List SharingStep :=
  [.addMonitor 3 .empty, .announce (sosPubInit plainConfig 5 .empty 0).announceMsg,
    .packMonitor 0 ⟨.empty, .int 1, 0, 9, 0⟩, .valSnaps 5 [default] fun _ => 0,
    .publishMonitor 0 0 fun _ => 0]

/-- **It is sent as a snapshot of the monitor's pub.** -/
theorem not_snaps_isolated :
    ¬ ∀ steps s, run sharingStep (.start plainConfig) steps = some s → Isolated s := by
  intro hall
  have hrun : (run sharingStep (.start plainConfig) mixedSteps).map
      (fun s => decide (s.ingested = ((s.inserted ++ s.entries).filter (·.2 = .ingested)).map (·.1)))
      = some false := by decide
  obtain ⟨s, hs, hnot⟩ := Option.map_eq_some_iff.mp hrun
  exact of_decide_eq_false hnot (hall mixedSteps s hs).ingested

end SosFlow
