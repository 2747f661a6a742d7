import SosFlow.Pub.Pack
import SosFlow.Msg.Builders
import Mathlib.Data.List.Forall2

/-!
# Announcing and publishing a publication

`SOS_publish` sends up to three messages: an ANNOUNCE if an element was
added since the last one, a PUBLISH with the value of every DIRTY element,
and a VAL_SNAPS with everything in the pub's queue. Building a message is
what advances the pub: the ANNOUNCE sets `announced`, the PUBLISH counts the
frame and cleans the elements, the VAL_SNAPS empties the queue.

The messages are the records of `Msg.Builders`, from which the layouts there
make the bytes. The clock is a sequence of readings.
-/

namespace SosFlow

/-- `pub->data[pos]`, also behind the first `elem_count`. -/
def SosPub.elemAt (pub : SosPub) (pos : ℕ) : Option SosData := (pub.data ++ pub.spare)[pos]?

/-- Its type. -/
def SosPub.typeAt (pub : SosPub) (pos : ℕ) : Option ValType := (pub.elemAt pos).map (·.type)

/-! ## The three messages -/

/-- What an ANNOUNCE says about an element. -/
def SosData.announce (data : SosData) : AnnounceElem where
  guid := data.guid
  name := data.name
  type := data.type
  valMeta := data.valMeta

/-- **`SOS_announce_to_buffer`**: what it packs. -/
def SosPub.announceMsg (pub : SosPub) : AnnounceMsg where
  refGuid := pub.guid
  nodeId := pub.nodeId
  processId := pub.processId
  threadId := pub.threadId
  commRank := pub.commRank
  progName := pub.progName
  progVer := pub.progVer
  pragmaLen := pub.pragmaLen
  pragmaMsg := pub.pragmaMsg
  title := pub.title
  pubMeta := pub.pubMeta
  cacheDepth := BitVec.ofInt 32 pub.cacheDepth
  elems := pub.data.map SosData.announce

/-- The pub behind its ANNOUNCE. -/
def SosPub.afterAnnounce (pub : SosPub) : SosPub := { pub with announced := true }

/-- What a PUBLISH says about an element, whose value was read as `val`. -/
def SosData.publish (data : SosData) (pos : ℕ) (send : Double) (val : SosVal) : PublishElem where
  elem := pos
  pack := data.time.pack
  send := send
  valLen := data.valLen
  semantic := data.valMeta.semantic
  relationId := data.valMeta.relationId
  val := val

/-- The DIRTY elements, the first of them at `pos`. -/
def publishElems (send : Double) : ℕ → List SosData → Option (List PublishElem)
  | _, [] => some []
  | pos, data :: rest =>
    if data.state = .dirty then do
      let val ← data.val.readAs data.type
      let others ← publishElems send (pos + 1) rest
      some (data.publish pos send val :: others)
    else publishElems send (pos + 1) rest

/-- An element behind a PUBLISH. -/
def SosData.sent (data : SosData) (send : Double) : SosData :=
  if data.state = .dirty then { data with state := .clean, time := { data.time with send := send } }
  else data

/-- **`SOS_publish_to_buffer`**: what it packs. -/
def SosPub.publishMsg (pub : SosPub) (send : Double) : Option PublishMsg := do
  let elems ← publishElems send 0 pub.data
  some ⟨pub.guid, pub.frame, elems⟩

/-- The pub behind its PUBLISH. -/
def SosPub.afterPublish (pub : SosPub) (send : Double) : SosPub :=
  { pub with frame := pub.frame + 1, data := pub.data.map (·.sent send) }

/-- A snapshot with its sending time. -/
def SosValSnap.sentAt (snap : SosValSnap) (now : Double) : SosValSnap :=
  { snap with time := { snap.time with send := now } }

/-- The snapshots, each with its value as its element's type reads it. -/
def sendSnaps (pub : SosPub) (clock : ℕ → Double) :
    ℕ → List SosValSnap → Option (List (SosValSnap × SosVal))
  | _, [] => some []
  | i, snap :: rest => do
    let type ← pub.typeAt snap.elem
    let val ← snap.val.readAs type
    let others ← sendSnaps pub clock (i + 1) rest
    some ((snap.sentAt (clock i), val) :: others)

/-- **`SOS_val_snap_queue_to_buffer`**: what it packs, if there is anything,
and what it leaves in the queue. -/
def valSnapsMsg (pub : SosPub) (queue : SosPipe SosValSnap) (clock : ℕ → Double) :
    Option (Option ValSnapsMsg × SosPipe SosValSnap) :=
  if queue.elemCount < 1 then some (none, queue)
  else do
    let snaps ← sendSnaps pub clock 0 (queue.pop queue.elemCount.toNat).1
    some (some ⟨pub.guid, snaps⟩, (queue.pop queue.elemCount.toNat).2)

/-! ## The calls -/

/-- `SOS_announce`, which does nothing for a pub that is announced. -/
def sosAnnounce (pub : SosPub) : Option AnnounceMsg × SosPub :=
  if pub.announced then (none, pub) else (some pub.announceMsg, pub.afterAnnounce)

/-- **A client's pub**, with the queue `SOS_pub_init` made for it. -/
structure ClientPub where
  pub : SosPub
  queue : SosPipe SosValSnap
deriving DecidableEq

/-- The messages of one `SOS_publish`. -/
structure Published where
  announce : Option AnnounceMsg
  publish : PublishMsg
  snaps : Option ValSnapsMsg
deriving DecidableEq

/-- The part of `SOS_publish` that holds the lock: the PUBLISH, then the
VAL_SNAPS. -/
def publishLocked (c : ClientPub) (send : Double) (clock : ℕ → Double) :
    Option ((PublishMsg × Option ValSnapsMsg) × ClientPub) := do
  let publish ← c.pub.publishMsg send
  let snaps ← valSnapsMsg (c.pub.afterPublish send) c.queue clock
  some ((publish, snaps.1), ⟨c.pub.afterPublish send, snaps.2⟩)

/-- **`SOS_publish`**, as a whole: the messages as they are handed to `SOS_buffer_pack`. What
that makes of a double, and whether it ends, is up to the codec. -/
def sosPublish (c : ClientPub) (send : Double) (clock : ℕ → Double) :
    Option (Published × ClientPub) := do
  let r ← publishLocked ⟨(sosAnnounce c.pub).2, c.queue⟩ send clock
  some (⟨(sosAnnounce c.pub).1, r.1.1, r.1.2⟩, r.2)

/-- **`SOS_pack_related` of a client**, as a whole. A call that is refused
keeps the lock, and nothing can follow it. -/
def ClientPub.pack (c : ClientPub) (a : PackArgs) : Option ClientPub :=
  match sosPackRelated .client c.pub (some c.queue) a with
  | .ok (pub, some queue) => some ⟨pub, queue⟩
  | _ => none

/-! ## What each of them does -/

/-- The call as `sosPackRelated_client` describes it. -/
theorem ClientPub.pack_eq_some {c c' : ClientPub} {a : PackArgs} :
    c.pack a = some c' ↔ a.val.type ≠ .bytes ∧ ∃ data v,
      (c.pub.withElem a.guid a.name a.val.type).data[c.pub.elemPos a.name]? = some data ∧
      renewVal data.type a.val = some v ∧
      c'.pub = (c.pub.withElem a.guid a.name a.val.type).setElem (c.pub.elemPos a.name)
        (data.renew v a.now) ∧
      c'.queue = c.queue.push (a.snap c.pub (c.pub.elemPos a.name) data) := by
  rw [← sosPackRelated_client, ClientPub.pack]
  split
  case h_1 pub queue h =>
    rw [h]
    cases c'
    simp
  case h_2 h =>
    constructor
    · exact fun hnone => (by cases hnone)
    · exact fun hok => absurd hok (h _ _)

/-- **A pack, by whether its name is known.** -/
theorem ClientPub.pack_cases {c c' : ClientPub} {a : PackArgs} (h : c.pack a = some c') :
    a.val.type ≠ .bytes ∧
      ((∃ pos data v, sosPubSearch c.pub a.name = some pos ∧ c.pub.data[pos]? = some data ∧
          renewVal data.type a.val = some v ∧
          c'.pub = c.pub.setElem pos (data.renew v a.now) ∧
          c'.queue = c.queue.push (a.snap c.pub pos data)) ∨
        ∃ v, sosPubSearch c.pub a.name = none ∧ renewVal a.val.type a.val = some v ∧
          c'.pub = (c.pub.addElem a.guid a.name a.val.type).setElem c.pub.elemCount
            ((c.pub.newData a.guid a.name a.val.type).renew v a.now) ∧
          c'.queue = c.queue.push
            (a.snap c.pub c.pub.elemCount (c.pub.newData a.guid a.name a.val.type))) := by
  obtain ⟨hbytes, data, v, hdata, hv, hpub, hqueue⟩ := ClientPub.pack_eq_some.mp h
  refine ⟨hbytes, ?_⟩
  unfold SosPub.withElem SosPub.elemPos at hdata hpub
  rw [SosPub.elemPos] at hqueue
  cases hknown : sosPubSearch c.pub a.name with
  | some pos =>
      rw [hknown, Option.getD_some] at hdata hpub hqueue
      exact .inl ⟨pos, data, v, rfl, hdata, hv, hpub, hqueue⟩
  | none =>
      rw [hknown, Option.getD_none] at hdata hpub hqueue
      have hnew : data = c.pub.newData a.guid a.name a.val.type := by
        simpa [SosPub.elemCount, eq_comm] using hdata
      subst hnew
      exact .inr ⟨v, rfl, hv, hpub, hqueue⟩

/-- The value of an element can be read as its type. -/
def SosData.Readable (data : SosData) : Prop := (data.val.readAs data.type).isSome

/-- What a PUBLISH carries of the element at a position, if it is DIRTY. -/
def publishAt (send : Double) (p : SosData × ℕ) : Option PublishElem :=
  if p.1.state = .dirty then (p.1.val.readAs p.1.type).map (p.1.publish p.2 send) else none

/-- **A PUBLISH carries the DIRTY elements**, each under its position, as long
as their values can be read. -/
theorem publishElems_eq_some {send : Double} {pos : ℕ} {list : List SosData}
    {elems : List PublishElem} :
    publishElems send pos list = some elems ↔
      (∀ data ∈ list, data.state = .dirty → data.Readable) ∧
        elems = (list.zipIdx pos).filterMap (publishAt send) := by
  induction list generalizing pos elems with
  | nil => simp [publishElems, eq_comm]
  | cons data rest ih =>
      rw [publishElems, List.zipIdx_cons, List.forall_mem_cons]
      by_cases hdirty : data.state = .dirty
      · cases hval : data.val.readAs data.type with
        | none => simp [hdirty, hval, SosData.Readable]
        | some val =>
            have hat : publishAt send (data, pos) = some (data.publish pos send val) := by
              rw [publishAt, if_pos hdirty, hval, Option.map_some]
            rw [List.filterMap_cons_some hat, if_pos hdirty]
            simp only [Option.bind_eq_bind, hval, Option.bind_some, Option.bind_eq_some_iff, ih,
              Option.some.injEq, SosData.Readable, Option.isSome_some, implies_true, true_and]
            constructor
            · rintro ⟨others, ⟨hread, rfl⟩, rfl⟩
              exact ⟨hread, rfl⟩
            · rintro ⟨hread, rfl⟩
              exact ⟨_, ⟨hread, rfl⟩, rfl⟩
      · have hat : publishAt send (data, pos) = none := by rw [publishAt, if_neg hdirty]
        rw [List.filterMap_cons_none hat, if_neg hdirty, ih]
        simp [hdirty]

/-- **A snapshot and what a VAL_SNAPS carries of it**: its value as the type of
its element reads it. -/
def SentAs (pub : SosPub) (snap : SosValSnap) (sent : SosValSnap × SosVal) : Prop :=
  (∃ now, sent.1 = snap.sentAt now) ∧
    ∃ type, pub.typeAt snap.elem = some type ∧ snap.val.readAs type = some sent.2

/-- **A VAL_SNAPS carries every snapshot**, in the order of the queue. -/
theorem sendSnaps_forall₂ {pub : SosPub} {clock : ℕ → Double} {i : ℕ} {list : List SosValSnap}
    {sent : List (SosValSnap × SosVal)} (h : sendSnaps pub clock i list = some sent) :
    List.Forall₂ (SentAs pub) list sent := by
  induction list generalizing i sent with
  | nil =>
      cases h
      exact .nil
  | cons snap rest ih =>
      simp only [sendSnaps, Option.bind_eq_bind, Option.bind_eq_some_iff] at h
      obtain ⟨type, htype, val, hval, others, hothers, hsent⟩ := h
      cases hsent
      exact .cons ⟨⟨_, rfl⟩, type, htype, hval⟩ (ih hothers)

/-- The snapshots can be sent when each can be read as its element's type. -/
theorem sendSnaps_isSome {pub : SosPub} (clock : ℕ → Double) (i : ℕ) {list : List SosValSnap}
    (h : ∀ snap ∈ list, ∃ sent, SentAs pub snap sent) :
    ∃ sent, sendSnaps pub clock i list = some sent := by
  induction list generalizing i with
  | nil => exact ⟨[], rfl⟩
  | cons snap rest ih =>
      rw [List.forall_mem_cons] at h
      obtain ⟨⟨sent, -, type, htype, hval⟩, hrest⟩ := h
      obtain ⟨others, hothers⟩ := ih (i + 1) hrest
      exact ⟨(snap.sentAt (clock i), sent.2) :: others, by
        simp only [sendSnaps, htype, hval, hothers, Option.bind_eq_bind, Option.bind_some]⟩

/-- **A queue whose count is right is sent as a whole**, and left empty; an
empty one sends nothing. -/
theorem valSnapsMsg_eq_some {pub : SosPub} {queue queue' : SosPipe SosValSnap}
    {clock : ℕ → Double} {m : Option ValSnapsMsg} (hcount : queue.Counted)
    (h : valSnapsMsg pub queue clock = some (m, queue')) :
    queue' = .empty ∧
      ((queue.items = [] ∧ m = none) ∨
        queue.items ≠ [] ∧ ∃ sent, m = some ⟨pub.guid, sent⟩ ∧
          List.Forall₂ (SentAs pub) queue.items sent) := by
  unfold valSnapsMsg at h
  have hlen : queue.elemCount = queue.items.length := hcount
  split at h
  case isTrue hlt =>
    cases h
    have hnil : queue.items = [] := List.eq_nil_of_length_eq_zero (by omega)
    refine ⟨?_, .inl ⟨hnil, rfl⟩⟩
    cases queue
    simp_all [SosPipe.empty]
  case isFalse hge =>
    rw [hcount.pop_all] at h
    simp only [Option.bind_eq_bind, Option.bind_eq_some_iff] at h
    obtain ⟨sent, hsent, hout⟩ := h
    cases hout
    refine ⟨rfl, .inr ⟨?_, sent, rfl, sendSnaps_forall₂ hsent⟩⟩
    intro hnil
    rw [hnil, List.length_nil] at hlen
    omega

/-- The VAL_SNAPS can be built when every snapshot in the queue can be sent. -/
theorem valSnapsMsg_isSome (pub : SosPub) {queue : SosPipe SosValSnap} (clock : ℕ → Double)
    (hcount : queue.Counted) (h : ∀ snap ∈ queue.items, ∃ sent, SentAs pub snap sent) :
    ∃ r, valSnapsMsg pub queue clock = some r := by
  unfold valSnapsMsg
  split
  case isTrue => exact ⟨_, rfl⟩
  case isFalse =>
    rw [hcount.pop_all]
    obtain ⟨sent, hsent⟩ := sendSnaps_isSome clock 0 h
    exact ⟨(some ⟨pub.guid, sent⟩, .empty), by
      simp only [hsent, Option.bind_eq_bind, Option.bind_some]⟩

/-! ## `SOS_publish` as a whole -/

@[simp] theorem typeAt_afterPublish (pub : SosPub) (send : Double) (pos : ℕ) :
    (pub.afterPublish send).typeAt pos = pub.typeAt pos := by
  have htype : ∀ data : SosData, (data.sent send).type = data.type := by
    intro data
    unfold SosData.sent
    split <;> rfl
  unfold SosPub.typeAt SosPub.elemAt SosPub.afterPublish
  simp only [← List.getElem?_map, List.map_append, List.map_map]
  congr 2
  exact List.map_congr_left fun data _ => htype data

@[simp] theorem typeAt_sosAnnounce (pub : SosPub) (pos : ℕ) :
    (sosAnnounce pub).2.typeAt pos = pub.typeAt pos := by
  unfold sosAnnounce
  split <;> rfl

@[simp] theorem data_sosAnnounce (pub : SosPub) : (sosAnnounce pub).2.data = pub.data := by
  unfold sosAnnounce
  split <;> rfl

@[simp] theorem frame_sosAnnounce (pub : SosPub) : (sosAnnounce pub).2.frame = pub.frame := by
  unfold sosAnnounce
  split <;> rfl

theorem SentAs.congr {pub pub' : SosPub} (h : ∀ pos, pub'.typeAt pos = pub.typeAt pos)
    {snap : SosValSnap} {sent : SosValSnap × SosVal} (hsent : SentAs pub snap sent) :
    SentAs pub' snap sent := by
  obtain ⟨hnow, type, htype, hval⟩ := hsent
  exact ⟨hnow, type, (h _).trans htype, hval⟩

/-- **A pub that can be published**: its queue is counted, and every DIRTY
value and every snapshot can be read as its element's type. -/
structure ClientPub.Sendable (c : ClientPub) : Prop where
  counted : c.queue.Counted
  readable : ∀ data ∈ c.pub.data, data.state = .dirty → data.Readable
  typed : ∀ snap ∈ c.queue.items, ∃ sent, SentAs c.pub snap sent

/-- **What the locked part of `SOS_publish` sends and leaves.** -/
structure LockedBy (c : ClientPub) (send : Double) (publish : PublishMsg)
    (snaps : Option ValSnapsMsg) (c' : ClientPub) : Prop where
  publish : publish =
    ⟨c.pub.guid, c.pub.frame, (c.pub.data.zipIdx 0).filterMap (publishAt send)⟩
  snaps : (c.queue.items = [] ∧ snaps = none) ∨
    c.queue.items ≠ [] ∧ ∃ sent, snaps = some ⟨c.pub.guid, sent⟩ ∧
      List.Forall₂ (SentAs c.pub) c.queue.items sent
  pub : c'.pub = c.pub.afterPublish send
  queue : c'.queue = .empty

theorem publishLocked_lockedBy {c c' : ClientPub} {send : Double} {clock : ℕ → Double}
    {publish : PublishMsg} {snaps : Option ValSnapsMsg} (hcount : c.queue.Counted)
    (h : publishLocked c send clock = some ((publish, snaps), c')) :
    LockedBy c send publish snaps c' := by
  simp only [publishLocked, SosPub.publishMsg, Option.bind_eq_bind, Option.bind_eq_some_iff] at h
  obtain ⟨_, ⟨elems, helems, hpublish⟩, r, hsnaps, hout⟩ := h
  cases hpublish
  cases hout
  obtain ⟨-, rfl⟩ := publishElems_eq_some.mp helems
  obtain ⟨hqueue, hsent⟩ := valSnapsMsg_eq_some hcount hsnaps
  refine ⟨rfl, ?_, rfl, hqueue⟩
  rcases hsent with hnone | ⟨hne, sent, hm, hall⟩
  · exact .inl hnone
  · exact .inr ⟨hne, sent, hm, hall.imp fun snap p => SentAs.congr fun pos => by simp⟩

/-- **A sendable pub can be published.** -/
theorem ClientPub.Sendable.publishLocked {c : ClientPub} (h : c.Sendable) (send : Double)
    (clock : ℕ → Double) : ∃ r, SosFlow.publishLocked c send clock = some r := by
  have helems := publishElems_eq_some.mpr
    ⟨h.readable, (rfl : _ = (c.pub.data.zipIdx 0).filterMap (publishAt send))⟩
  obtain ⟨r, hr⟩ := valSnapsMsg_isSome (c.pub.afterPublish send) clock h.counted
    (fun snap hsnap => (h.typed snap hsnap).imp fun p => SentAs.congr fun pos => by simp)
  simp only [SosFlow.publishLocked, SosPub.publishMsg, helems, hr, Option.bind_eq_bind,
    Option.bind_some, Option.some.injEq, exists_eq']

/-- **What `SOS_publish` sends and leaves.** -/
structure PublishedBy (c : ClientPub) (send : Double) (out : Published) (c' : ClientPub) : Prop where
  announce : out.announce = (sosAnnounce c.pub).1
  locked : LockedBy ⟨(sosAnnounce c.pub).2, c.queue⟩ send out.publish out.snaps c'

theorem sosPublish_publishedBy {c c' : ClientPub} {send : Double} {clock : ℕ → Double}
    {out : Published} (hcount : c.queue.Counted) (h : sosPublish c send clock = some (out, c')) :
    PublishedBy c send out c' := by
  simp only [sosPublish, Option.bind_eq_bind, Option.bind_eq_some_iff] at h
  obtain ⟨r, hr, hout⟩ := h
  cases hout
  exact ⟨rfl, publishLocked_lockedBy hcount hr⟩

/-- Announcing first changes nothing about that. -/
theorem ClientPub.Sendable.sosAnnounce {c : ClientPub} (h : c.Sendable) :
    ClientPub.Sendable ⟨(SosFlow.sosAnnounce c.pub).2, c.queue⟩ where
  counted := h.counted
  readable := by
    simp only [data_sosAnnounce]
    exact h.readable
  typed snap hsnap :=
    (h.typed snap hsnap).imp fun p => SentAs.congr fun pos => typeAt_sosAnnounce c.pub pos

/-- **A sendable pub is published.** -/
theorem ClientPub.Sendable.publish {c : ClientPub} (h : c.Sendable) (send : Double)
    (clock : ℕ → Double) :
    ∃ out c', sosPublish c send clock = some (out, c') ∧ PublishedBy c send out c' := by
  obtain ⟨r, hr⟩ := h.sosAnnounce.publishLocked send clock
  have hrun : ∃ r, sosPublish c send clock = some r := by
    simp only [sosPublish, hr, Option.bind_eq_bind, Option.bind_some, Option.some.injEq,
      exists_eq']
  obtain ⟨⟨out, c'⟩, hrun⟩ := hrun
  exact ⟨out, c', hrun, sosPublish_publishedBy h.counted hrun⟩

end SosFlow
