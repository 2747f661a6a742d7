import SosFlow.Pub.Publish
import SosFlow.Lib.Trace
import SosFlow.Lib.Lockstep

/-!
# Packing while another thread publishes

One thread packs into a pub while another publishes it. `SOS_publish` holds
the lock only in part: it tests `announced` without it, `SOS_announce` takes
it to build the ANNOUNCE and sends that after it has let go, and then
`SOS_publish` takes it again for the PUBLISH and the VAL_SNAPS. A pack can
come between any two of these.

A pack that adds an element clears `announced`, so that the next publish
announces it. That is too late when the publisher is past its test: between
the test, or the building of an ANNOUNCE, and the building of the PUBLISH
the new element is published without having been announced.
-/

namespace SosFlow

/-! ## What is sent -/

/-- A message of a client about one of its pubs. -/
inductive PubMessage where
  | announce (m : AnnounceMsg)
  | publish (m : PublishMsg)
  | valSnaps (m : ValSnapsMsg)
deriving DecidableEq

namespace PubMessage

/-- The element indexes a message carries values for. -/
def indexes : PubMessage → List ℕ
  | announce _ => []
  | publish m => m.elems.map (·.elem)
  | valSnaps m => m.snaps.map (·.1.elem)

/-- The `elem_count` that is announced behind a message, `n` before it. -/
def countAfter (n : ℕ) : PubMessage → ℕ
  | announce m => m.elems.length
  | _ => n

end PubMessage

/-- The `elem_count` of the last ANNOUNCE of some messages, `n` before them. -/
def announcedCount (n : ℕ) (messages : List PubMessage) : ℕ :=
  messages.foldl PubMessage.countAfter n

/-- **Every index is announced**: it is smaller than the `elem_count` of the
last ANNOUNCE in front of the message, `n` in front of them all. -/
def AnnouncedFrom : ℕ → List PubMessage → Prop
  | _, [] => True
  | n, m :: rest => (∀ i ∈ m.indexes, i < n) ∧ AnnouncedFrom (m.countAfter n) rest

instance (n : ℕ) (messages : List PubMessage) : Decidable (AnnouncedFrom n messages) := by
  induction messages generalizing n with
  | nil => exact isTrue trivial
  | cons m rest ih =>
      unfold AnnouncedFrom
      exact instDecidableAnd

theorem announcedFrom_append {n : ℕ} {messages rest : List PubMessage} :
    AnnouncedFrom n (messages ++ rest) ↔
      AnnouncedFrom n messages ∧ AnnouncedFrom (announcedCount n messages) rest := by
  induction messages generalizing n with
  | nil => simp [AnnouncedFrom, announcedCount]
  | cons m messages ih =>
      simp only [List.cons_append, AnnouncedFrom, ih, announcedCount, List.foldl_cons, and_assoc]

/-! ## The two threads -/

/-- Where the publishing thread is: outside `SOS_publish`, in front of the
test of `SOS_announce`, in front of its lock, in front of its send, or in
front of the lock of `SOS_publish`. -/
inductive PublisherAt where
  | idle
  | announceTest
  | announceLock
  | announceSend (m : AnnounceMsg)
  | publishLock
deriving DecidableEq

/-- **The pub, the publishing thread, and what it has sent.** -/
structure Race where
  client : ClientPub
  publisher : PublisherAt
  sent : List PubMessage
deriving DecidableEq

/-- A step of one of the threads: a whole pack, or the publisher's next step,
with what it reads from the clock. -/
inductive RaceStep where
  | pack (a : PackArgs)
  | publisher (send : Double) (clock : ℕ → Double)

/-- The messages the locked part of `SOS_publish` sends. -/
def lockedMessages (publish : PublishMsg) (snaps : Option ValSnapsMsg) : List PubMessage :=
  .publish publish :: (snaps.map .valSnaps).toList

/-- The publisher's next step. -/
def publisherStep (s : Race) (send : Double) (clock : ℕ → Double) : Option Race :=
  match s.publisher with
  | .idle =>
    some { s with publisher := if s.client.pub.announced then .publishLock else .announceTest }
  | .announceTest =>
    some { s with publisher := if s.client.pub.announced then .publishLock else .announceLock }
  | .announceLock =>
    some { s with
      client := { s.client with pub := s.client.pub.afterAnnounce }
      publisher := .announceSend s.client.pub.announceMsg }
  | .announceSend m => some { s with publisher := .publishLock, sent := s.sent ++ [.announce m] }
  | .publishLock =>
    (publishLocked s.client send clock).map fun r =>
      { client := r.2, publisher := .idle, sent := s.sent ++ lockedMessages r.1.1 r.1.2 }

/-- **One step of either thread.** -/
def raceStep (s : Race) : RaceStep → Option Race
  | .pack a => (s.client.pack a).map fun c => { s with client := c }
  | .publisher send clock => publisherStep s send clock

/-- A new pub, with nobody publishing it. -/
def Race.init (config : SosConfig) (guid : SosGuid) (title : CString) (nature : CInt)
    (newSize : ℕ) : Race :=
  ⟨⟨sosPubInitSized config guid title nature newSize, .empty⟩, .idle, []⟩

/-- The publisher has no test of `announced` in front of it any more before it
builds the PUBLISH. -/
def PublisherAt.Committed : PublisherAt → Prop
  | announceSend _ => True
  | publishLock => True
  | _ => False

instance (p : PublisherAt) : Decidable p.Committed := by
  cases p <;> unfold PublisherAt.Committed <;> infer_instance

/-- **A step that is in time**: no pack adds an element while the publisher is
committed. -/
def InTime (s : Race) : RaceStep → Prop
  | .pack a => sosPubSearch s.client.pub a.name = none → ¬ s.publisher.Committed
  | .publisher _ _ => True

instance (s : Race) (step : RaceStep) : Decidable (InTime s step) := by
  cases step <;> unfold InTime <;> infer_instance

/-! ## What a pack does to the count -/

/-- **A pack, as far as the announced count is concerned.** -/
structure PackCounts (c : ClientPub) (a : PackArgs) (c' : ClientPub) : Prop where
  known : sosPubSearch c.pub a.name ≠ none →
    c'.pub.data.length = c.pub.data.length ∧ c'.pub.announced = c.pub.announced
  fresh : sosPubSearch c.pub a.name = none →
    c'.pub.data.length = c.pub.data.length + 1 ∧ c'.pub.announced = false
  counted : c.queue.Counted → c'.queue.Counted
  queue : ∀ snap ∈ c'.queue.items, snap ∈ c.queue.items ∨ snap.elem < c'.pub.data.length

theorem packCounts {c c' : ClientPub} {a : PackArgs} (h : c.pack a = some c') :
    PackCounts c a c' := by
  obtain ⟨-, data, v, hdata, -, hpub, hqueue⟩ := ClientPub.pack_eq_some.mp h
  have hlen : c'.pub.data.length = (c.pub.withElem a.guid a.name a.val.type).data.length := by
    rw [hpub]
    exact List.length_set
  have hann : c'.pub.announced = (c.pub.withElem a.guid a.name a.val.type).announced := by
    rw [hpub]
    rfl
  refine ⟨fun hknown => ?_, fun hfresh => ?_, fun hc => ?_, fun snap hsnap => ?_⟩
  · obtain ⟨pos, hpos⟩ := Option.ne_none_iff_exists'.mp hknown
    have hwith : c.pub.withElem a.guid a.name a.val.type = c.pub := by
      rw [SosPub.withElem, hpos]
    rw [hlen, hann, hwith]
    exact ⟨rfl, rfl⟩
  · have hwith : c.pub.withElem a.guid a.name a.val.type =
        c.pub.addElem a.guid a.name a.val.type := by rw [SosPub.withElem, hfresh]
    rw [hlen, hann, hwith, SosPub.data_addElem, List.length_append]
    exact ⟨rfl, rfl⟩
  · rw [hqueue]
    exact hc.push _
  · rw [hqueue] at hsnap
    refine (List.mem_append.mp hsnap).imp_right fun hnew => ?_
    rw [List.mem_singleton.mp hnew, hlen]
    exact (List.getElem?_eq_some_iff.mp hdata).1

/-- The elements of a pub behind its PUBLISH are as many as before. -/
theorem length_data_afterPublish (pub : SosPub) (send : Double) :
    (pub.afterPublish send).data.length = pub.data.length := List.length_map _

/-- **The locked part of `SOS_publish` carries indexes of elements**, as long as
the queue does. -/
theorem LockedBy.indexes {c c' : ClientPub} {send : Double} {publish : PublishMsg}
    {snaps : Option ValSnapsMsg} (h : LockedBy c send publish snaps c')
    (hqueue : ∀ snap ∈ c.queue.items, snap.elem < c.pub.data.length) :
    ∀ m ∈ lockedMessages publish snaps, ∀ i ∈ m.indexes, i < c.pub.data.length := by
  intro m hm i hi
  rcases List.mem_cons.mp hm with rfl | hm
  · rw [PubMessage.indexes, h.publish] at hi
    obtain ⟨e, he, rfl⟩ := List.mem_map.mp hi
    obtain ⟨⟨data, j⟩, hp, he⟩ := List.mem_filterMap.mp he
    have hj := (List.getElem?_eq_some_iff.mp (List.mk_mem_zipIdx_iff_getElem?.mp hp)).1
    unfold publishAt at he
    split at he
    case isTrue =>
      obtain ⟨val, -, rfl⟩ := Option.map_eq_some_iff.mp he
      exact hj
    case isFalse => cases he
  · rcases h.snaps with ⟨-, hnone⟩ | ⟨-, sent, hsome, hall⟩
    · rw [hnone] at hm
      cases hm
    · rw [hsome, Option.map_some, Option.toList_some, List.mem_singleton] at hm
      rw [hm, PubMessage.indexes] at hi
      obtain ⟨p, hp, rfl⟩ := List.mem_map.mp hi
      obtain ⟨snap, hsnap, ⟨now, hnow⟩, -⟩ := Lockstep.left_of_mem hall hp
      rw [hnow]
      exact hqueue snap hsnap

/-- They announce nothing. -/
theorem announcedCount_lockedMessages (n : ℕ) (publish : PublishMsg) (snaps : Option ValSnapsMsg) :
    announcedCount n (lockedMessages publish snaps) = n := by
  cases snaps <;> rfl

/-- Messages that announce nothing are announced when the count covers them. -/
theorem announcedFrom_lockedMessages {n : ℕ} {publish : PublishMsg} {snaps : Option ValSnapsMsg}
    (h : ∀ m ∈ lockedMessages publish snaps, ∀ i ∈ m.indexes, i < n) :
    AnnouncedFrom n (lockedMessages publish snaps) := by
  cases snaps with
  | none => exact ⟨h _ List.mem_cons_self, trivial⟩
  | some m =>
      exact ⟨h _ List.mem_cons_self, h _ (List.mem_cons_of_mem _ List.mem_cons_self), trivial⟩

/-! ## The invariant -/

/-- **What holds between any two steps that are in time**: the elements there
are were announced by the last ANNOUNCE, if the pub or the publisher takes
them to be, and by the one in hand, if it is still to be sent. -/
structure RaceInv (s : Race) : Prop where
  counted : s.client.queue.Counted
  queue : ∀ snap ∈ s.client.queue.items, snap.elem < s.client.pub.data.length
  sent : AnnouncedFrom 0 s.sent
  announced : s.client.pub.announced = true → (∀ m, s.publisher ≠ .announceSend m) →
    s.client.pub.data.length ≤ announcedCount 0 s.sent
  sending : ∀ m, s.publisher = .announceSend m → s.client.pub.data.length ≤ m.elems.length
  locking : s.publisher = .publishLock → s.client.pub.data.length ≤ announcedCount 0 s.sent

theorem raceInv_init (config : SosConfig) (guid : SosGuid) (title : CString) (nature : CInt)
    (newSize : ℕ) : RaceInv (Race.init config guid title nature newSize) where
  counted := SosPipe.counted_empty
  queue _ hsnap := (by cases hsnap)
  sent := trivial
  announced h := (by cases h)
  sending _ h := (by cases h)
  locking h := (by cases h)

variable {s s' : Race}

/-- **A pack that is in time** keeps the invariant. -/
theorem RaceInv.pack (h : RaceInv s) {a : PackArgs} {c : ClientPub} (hpack : s.client.pack a = some c)
    (htime : InTime s (.pack a)) : RaceInv { s with client := c } := by
  have hcounts := packCounts hpack
  by_cases hknown : sosPubSearch s.client.pub a.name = none
  · obtain ⟨hlen, hann⟩ := hcounts.fresh hknown
    have hcommitted := htime hknown
    refine ⟨hcounts.counted h.counted, ?_, h.sent, ?_, ?_, ?_⟩
    · intro snap hsnap
      rcases hcounts.queue snap hsnap with hold | hnew
      · have hlt := h.queue snap hold
        exact lt_of_lt_of_eq (Nat.lt_succ_of_lt hlt) hlen.symm
      · exact hnew
    · intro htrue
      rw [hann] at htrue
      cases htrue
    · intro m hm
      have hat : s.publisher = .announceSend m := hm
      rw [hat] at hcommitted
      exact absurd trivial hcommitted
    · intro hm
      have hat : s.publisher = .publishLock := hm
      rw [hat] at hcommitted
      exact absurd trivial hcommitted
  · obtain ⟨hlen, hann⟩ := hcounts.known hknown
    refine ⟨hcounts.counted h.counted, ?_, h.sent, ?_, ?_, ?_⟩
    · intro snap hsnap
      rcases hcounts.queue snap hsnap with hold | hnew
      · exact lt_of_lt_of_eq (h.queue snap hold) hlen.symm
      · exact hnew
    · intro htrue hnot
      rw [hann] at htrue
      exact hlen.trans_le (h.announced htrue hnot)
    · exact fun m hm => hlen.trans_le (h.sending m hm)
    · exact fun hm => hlen.trans_le (h.locking hm)

/-- **A step of the publisher** keeps the invariant. -/
theorem RaceInv.publisher (h : RaceInv s) {send : Double} {clock : ℕ → Double}
    (hstep : publisherStep s send clock = some s') : RaceInv s' := by
  unfold publisherStep at hstep
  cases hat : s.publisher with
  | idle =>
      rw [hat] at hstep
      cases hstep
      refine ⟨h.counted, h.queue, h.sent, ?_, ?_, ?_⟩
      · exact fun htrue _ => h.announced htrue (by simp [hat])
      · intro m hm
        split at hm <;> cases hm
      · intro hm
        split at hm
        case isTrue htrue => exact h.announced htrue (by simp [hat])
        case isFalse => cases hm
  | announceTest =>
      rw [hat] at hstep
      cases hstep
      refine ⟨h.counted, h.queue, h.sent, ?_, ?_, ?_⟩
      · exact fun htrue _ => h.announced htrue (by simp [hat])
      · intro m hm
        split at hm <;> cases hm
      · intro hm
        split at hm
        case isTrue htrue => exact h.announced htrue (by simp [hat])
        case isFalse => cases hm
  | announceLock =>
      rw [hat] at hstep
      cases hstep
      refine ⟨h.counted, h.queue, h.sent, ?_, ?_, ?_⟩
      · exact fun _ hnot => absurd rfl (hnot _)
      · intro m hm
        cases hm
        exact (List.length_map _).ge
      · exact fun hm => (by cases hm)
  | announceSend m =>
      rw [hat] at hstep
      cases hstep
      have hcount : announcedCount 0 (s.sent ++ [.announce m]) = m.elems.length := by
        rw [announcedCount, List.foldl_append]
        rfl
      have hlen := h.sending m hat
      refine ⟨h.counted, h.queue, ?_, ?_, fun m' hm => (by cases hm), ?_⟩
      · exact announcedFrom_append.mpr ⟨h.sent, fun i hi => (by cases hi), trivial⟩
      · exact fun _ _ => hlen.trans_eq hcount.symm
      · exact fun _ => hlen.trans_eq hcount.symm
  | publishLock =>
      rw [hat] at hstep
      obtain ⟨⟨⟨publish, snaps⟩, c⟩, hlocked, rfl⟩ := Option.map_eq_some_iff.mp hstep
      have hby := publishLocked_lockedBy h.counted hlocked
      have hlen : c.pub.data.length = s.client.pub.data.length := by
        rw [hby.pub, length_data_afterPublish]
      have hle := h.locking hat
      have hcount : announcedCount 0 (s.sent ++ lockedMessages publish snaps) =
          announcedCount 0 s.sent := by
        rw [announcedCount, List.foldl_append]
        exact announcedCount_lockedMessages _ publish snaps
      refine ⟨?_, ?_, ?_, ?_, fun m hm => (by cases hm), fun hm => (by cases hm)⟩
      · change c.queue.Counted
        rw [hby.queue]
        exact SosPipe.counted_empty
      · intro snap hsnap
        change snap ∈ c.queue.items at hsnap
        rw [hby.queue] at hsnap
        cases hsnap
      · refine announcedFrom_append.mpr ⟨h.sent, announcedFrom_lockedMessages ?_⟩
        exact fun m hm i hi => (hby.indexes h.queue m hm i hi).trans_le hle
      · intro _ _
        exact (hlen.trans_le hle).trans_eq hcount.symm

/-- **One step of either thread**, in time, keeps the invariant. -/
theorem RaceInv.step {step : RaceStep} (h : RaceInv s) (htime : InTime s step)
    (hstep : raceStep s step = some s') : RaceInv s' := by
  cases step with
  | pack a =>
      obtain ⟨c, hpack, rfl⟩ := Option.map_eq_some_iff.mp hstep
      exact h.pack hpack htime
  | publisher send clock => exact h.publisher hstep

/-- **Announced before published.** When no pack adds an element while the
publisher is committed, every index that was sent was announced by the last
ANNOUNCE in front of it. -/
theorem announced_before_published (config : SosConfig) (guid : SosGuid) (title : CString)
    (nature : CInt) (newSize : ℕ) (steps : List RaceStep) (s : Race)
    (hrun : Trace.run raceStep (Race.init config guid title nature newSize) steps = some s)
    (htime : Trace.Along raceStep InTime (Race.init config guid title nature newSize) steps) :
    AnnouncedFrom 0 s.sent :=
  (Trace.run_invariant (fun _ _ _ h htime hstep => h.step htime hstep)
    (raceInv_init config guid title nature newSize) htime hrun).sent

/-- A new element while the publisher is in `SOS_announce`, and another after
the publish. -/
def inTimeSteps : List RaceStep :=
  [.pack ⟨.empty, .int 1, 0, 9, 0⟩, .publisher 0 fun _ => 0, .publisher 0 fun _ => 0,
    .publisher 0 fun _ => 0, .publisher 0 fun _ => 0, .publisher 0 fun _ => 0,
    .pack ⟨.empty, .int 2, 0, 9, 0⟩]

theorem announced_before_published_once :
    ∃ s, Trace.run raceStep (Race.init plainConfig 5 .empty 0 2) inTimeSteps = some s ∧
      AnnouncedFrom 0 s.sent := by
  have hrun : (Trace.run raceStep (Race.init plainConfig 5 .empty 0 2) inTimeSteps).isSome := by
    decide
  obtain ⟨s, hs⟩ := Option.isSome_iff_exists.mp hrun
  exact ⟨s, hs, announced_before_published plainConfig 5 .empty 0 2 inTimeSteps s hs (by decide)⟩

/-- A new element behind the building of the ANNOUNCE. -/
def lateSteps : List RaceStep :=
  [.pack ⟨.empty, .int 1, 0, 9, 0⟩, .publisher 0 fun _ => 0, .publisher 0 fun _ => 0,
    .publisher 0 fun _ => 0, .pack ⟨nameX, .int 2, 0, 10, 0⟩, .publisher 0 fun _ => 0,
    .publisher 0 fun _ => 0]

/-- **It is published without having been announced.** -/
theorem not_announced_before_published :
    ¬ ∀ steps s, Trace.run raceStep (Race.init plainConfig 5 .empty 0 2) steps = some s →
      AnnouncedFrom 0 s.sent := by
  intro hall
  have hrun : (Trace.run raceStep (Race.init plainConfig 5 .empty 0 2) lateSteps).map
      (fun s => decide (AnnouncedFrom 0 s.sent)) = some false := by decide
  obtain ⟨s, hs, hnot⟩ := Option.map_eq_some_iff.mp hrun
  exact of_decide_eq_false hnot (hall lateSteps s hs)

end SosFlow
