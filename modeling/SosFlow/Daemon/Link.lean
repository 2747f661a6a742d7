import SosFlow.Daemon.CacheShape
import SosFlow.Daemon.Elements
import SosFlow.Pub.Interleaving
import SosFlow.Pub.SentViews

/-!
# A client and its daemon, over sends that may fail

A client packs into a pub, announces it and publishes it, and the daemon
handles what arrives. A send that fails is noticed by `SOS_send_to_daemon`,
which returns, and by nobody else: building the message has already marked
the pub announced, cleaned its elements and emptied its queue. So a value
in a PUBLISH that did not arrive is not sent again until it is packed again,
and an element in an ANNOUNCE that did not arrive is published unannounced.

When the sends that carry either do succeed, the daemon's pub is the
client's after every publish, as far as the doubles come back from the wire:
the daemon reads every message behind the two conversions, and a publish that
converts an infinity does not return. A daemon that reads values by another
type than they were sent with is not followed any further, and is `none`.
-/

namespace SosFlow

open Binary Outcome Trace

/-! ## The link -/

/-- The guid of the pub a message is about. -/
def PubMessage.refGuid : PubMessage → SosGuid
  | announce m => m.refGuid
  | publish m => m.refGuid
  | valSnaps m => m.refGuid

/-- A message as it is read from the wire. -/
def PubMessage.overWire [DoubleCodec] : PubMessage → PubMessage
  | announce m => announce m
  | publish m => publish m.overWire
  | valSnaps m => valSnaps m.overWire

/-- **The daemon behind a message it received**, as it reads it. There is none where a handler
uses what is no memory of its pub. -/
def Daemon.deliver (d : Daemon) (recv : ℕ → Double) : PubMessage → Option Daemon
  | .announce m => some (d.handleAnnounce m)
  | .publish m => d.handlePublish m
  | .valSnaps m =>
    (readSnaps m.snaps).bind fun snaps => (d.handleValSnaps m.refGuid snaps recv).toOption

/-- **A client's pub, the daemon, and the messages the daemon received.** -/
structure Link where
  client : ClientPub
  daemon : Option Daemon
  received : List PubMessage

/-- Which sends of a `SOS_publish` succeed. -/
structure Sends where
  announce : Bool
  publish : Bool
  snaps : Bool
deriving DecidableEq

/-- A call of the client, with the outcome of its sends and the clock the
daemon reads. The guid of a new element is one of `SOS_uid_next`. -/
inductive LinkCall where
  | pack (a : PackArgs) (guid_ne : a.guid ≠ 0)
  | announce (ok : Bool)
  | publish (send : Double) (clock recv : ℕ → Double) (ok : Sends)

namespace Link

/-- `SOS_send_to_daemon`. -/
def send (s : Link) (recv : ℕ → Double) (ok : Bool) (m : PubMessage) : Link :=
  letI := DoubleCodec.sos
  if ok then
    { s with daemon := s.daemon.bind (·.deliver recv m.overWire), received := s.received ++ [m] }
  else s

/-- A message that may not have been built. -/
def sendAny (s : Link) (recv : ℕ → Double) (ok : Bool) : Option PubMessage → Link
  | some m => s.send recv ok m
  | none => s

/-- The three sends of a `SOS_publish`. -/
def sendAll (s : Link) (recv : ℕ → Double) (ok : Sends) (out : Published) : Link :=
  ((s.sendAny recv ok.announce (out.announce.map .announce)).send recv ok.publish
    (.publish out.publish)).sendAny recv ok.snaps (out.snaps.map .valSnaps)

end Link

/-- **One call of the client**, if it returns. -/
def linkStep (s : Link) : LinkCall → Option Link
  | .pack a _ => (s.client.pack a).map fun c => { s with client := c }
  | .announce ok =>
    some ({ s with client := { s.client with pub := (sosAnnounce s.client.pub).2 } }.sendAny
      (fun _ => 0) ok ((sosAnnounce s.client.pub).1.map .announce))
  | .publish send clock recv ok =>
    (sosPublish s.client send clock).bind fun r =>
      if Converted r.1.lockedCalls then some ({ s with client := r.2 }.sendAll recv ok r.1) else none

/-- A new pub, of which the daemon has not heard. -/
def Link.start (config : SosConfig) (guid : SosGuid) (title : CString) (nature : CInt) (newSize : ℕ)
    (d : Daemon) : Link :=
  ⟨⟨sosPubInitSized config guid title nature newSize, .empty⟩, some d, []⟩

/-- The type a value is packed as: that of the element with its name, if there is one. -/
def SosPub.typeFor (pub : SosPub) (a : PackArgs) : ValType :=
  match (sosPubSearch pub a.name).bind fun pos => pub.data[pos]? with
  | some data => data.type
  | none => a.val.type

/-- **A call that loses nothing**: names are shorter than the array they go
to, a double that is packed comes back from the wire, no time is an infinity,
every ANNOUNCE is sent, and so is every PUBLISH with a DIRTY element. -/
def LosesNothing (s : Link) : LinkCall → Prop
  | .pack a _ => a.name.length < sosDefaultStringLen ∧ ¬ IsInf a.now ∧
      ∀ val ∈ a.val.readAs (s.client.pub.typeFor a), val.Codable
  | .announce ok => s.client.pub.announced = false → ok = true
  | .publish send clock _ ok =>
      (¬ IsInf send ∧ ∀ i ∈ List.range s.client.queue.items.length, ¬ IsInf (clock i)) ∧
        (s.client.pub.announced = false → ok.announce = true) ∧
        ((∃ data ∈ s.client.pub.data, data.state = .dirty) → ok.publish = true)

/-- **The daemon's element is the client's**, with the value it has now. -/
structure SameElement (data data' : SosData) : Prop where
  guid : data'.guid = data.guid
  name : data'.name = data.name
  type : data'.type = data.type
  val : data'.val = data.val

/-- **The daemon's pub has exactly the client's elements.** -/
def Link.Synced (s : Link) : Prop :=
  ∃ d pub, s.daemon = some d ∧ d.pubTable s.client.pub.guid = some pub ∧
    List.Forall₂ SameElement s.client.pub.data pub.data

/-- **A message refers to what is announced** in front of it. -/
def PubMessage.CoveredBy (before : List PubMessage) : PubMessage → Prop
  | announce _ => True
  | m => ∃ a, .announce a ∈ before ∧ a.refGuid = m.refGuid ∧ ∀ i ∈ m.indexes, i < a.elems.length

/-- Every message refers to what is announced in front of it. -/
def Covered (received : List PubMessage) : Prop :=
  ∀ i (m : PubMessage), received[i]? = some m → m.CoveredBy (received.take i)

theorem covered_nil : Covered [] := fun _ _ h => (by cases h)

theorem Covered.concat {received : List PubMessage} {m : PubMessage} (h : Covered received)
    (hm : m.CoveredBy received) : Covered (received ++ [m]) := by
  intro i m' hi
  rcases lt_or_ge i received.length with hlt | hge
  · rw [List.getElem?_append_left hlt] at hi
    rw [List.take_append_of_le_length hlt.le]
    exact h i m' hi
  · rw [List.getElem?_append_right hge] at hi
    have hlt := (List.getElem?_eq_some_iff.mp hi).1
    rw [List.length_singleton] at hlt
    have hlast : i = received.length := by omega
    rw [hlast, Nat.sub_self, List.getElem?_cons_zero] at hi
    rw [hlast, List.take_left', ← Option.some.inj hi]
    · exact hm
    · rfl

/-! ## The client's pub -/

/-- **A client's pub, as packing leaves it**: values and snapshots have the
types of their elements, and nothing is spare but blank elements. -/
structure ClientPub.Typed (c : ClientPub) : Prop where
  counted : c.queue.Counted
  elems : ∀ data ∈ c.pub.data, data.val.type = data.type ∧ data.type ≠ .bytes
  spare : ∀ data ∈ c.pub.spare, data = .blank
  snaps : ∀ snap ∈ c.queue.items, ∃ data, c.pub.data[snap.elem]? = some data ∧
    snap.type = data.type ∧ ∃ val, snap.val.readAs data.type = some val

/-- The element's copy of a value has the element's type. -/
theorem type_renewVal {type : ValType} {val : SosVal} {v : SosVal × CInt}
    (h : renewVal type val = some v) : v.1.type = type ∧ type ≠ .bytes ∧
      ∃ read, val.readAs type = some read := by
  unfold renewVal at h
  cases hread : val.readAs type with
  | none =>
      rw [hread] at h
      cases h
  | some read =>
      have htype := SosVal.type_readAs hread
      rw [hread] at h
      cases read with
      | bytes b => cases h
      | int i =>
          cases h
          subst htype
          exact ⟨rfl, fun h => (by cases h), _, rfl⟩
      | long l =>
          cases h
          subst htype
          exact ⟨rfl, fun h => (by cases h), _, rfl⟩
      | double d =>
          cases h
          subst htype
          exact ⟨rfl, fun h => (by cases h), _, rfl⟩
      | string s =>
          cases h
          subst htype
          exact ⟨rfl, fun h => (by cases h), _, rfl⟩

namespace ClientPub.Typed

variable {c c' : ClientPub}

theorem sendable (h : c.Typed) : c.Sendable where
  counted := h.counted
  readable data hdata _ := by
    have htype := (h.elems data hdata).1
    rw [SosData.Readable, ← htype, SosVal.readAs_type]
    rfl
  typed snap hsnap := by
    obtain ⟨data, hdata, -, val, hval⟩ := h.snaps snap hsnap
    refine ⟨(snap, val), ⟨snap.time.send, rfl⟩, data.type, ?_, hval⟩
    rw [SosPub.typeAt, SosPub.elemAt_eq_some (lt_of_lt_of_le
      (List.getElem?_eq_some_iff.mp hdata).1 (Nat.le_add_right _ _)), Option.map_some,
      SosPub.elemOr_of_data hdata]

theorem init (config : SosConfig) (guid : SosGuid) (title : CString) (nature : CInt)
    (newSize : ℕ) : Typed ⟨sosPubInitSized config guid title nature newSize, .empty⟩ where
  counted := SosPipe.counted_empty
  elems _ h := absurd h List.not_mem_nil
  spare _ h := List.eq_of_mem_replicate h
  snaps _ h := absurd h List.not_mem_nil

/-- **A pack keeps the types.** -/
theorem pack (h : c.Typed) {a : PackArgs} (hpack : c.pack a = some c') : c'.Typed := by
  obtain ⟨hbytes, hcases⟩ := ClientPub.pack_cases hpack
  rcases hcases with ⟨pos, data, v, -, hdata, hv, hpub, hqueue⟩ | ⟨v, -, hv, hpub, hqueue⟩
  · obtain ⟨htype, hnot, read, hread⟩ := type_renewVal hv
    have hset : c'.pub.data = c.pub.data.set pos (data.renew v a.now) := by
      rw [hpub]
      rfl
    have hlt := (List.getElem?_eq_some_iff.mp hdata).1
    refine ⟨?_, fun x hx => ?_, ?_, fun snap hsnap => ?_⟩
    · rw [hqueue]
      exact h.counted.push _
    · rw [hset] at hx
      rcases List.mem_or_eq_of_mem_set hx with hold | rfl
      · exact h.elems x hold
      · exact ⟨htype, hnot⟩
    · rw [hpub]
      exact h.spare
    · have hkept : ∀ (i : ℕ) (x : SosData), c.pub.data[i]? = some x →
          ∃ y : SosData, c'.pub.data[i]? = some y ∧ y.type = x.type := by
        intro i x hx
        rw [hset]
        by_cases hi : i = pos
        · subst hi
          cases hdata.symm.trans hx
          exact ⟨_, List.getElem?_set_self hlt, rfl⟩
        · exact ⟨x, (List.getElem?_set_ne (Ne.symm hi)).trans hx, rfl⟩
      rw [hqueue] at hsnap
      rcases List.mem_append.mp hsnap with hold | hnew
      · obtain ⟨x, hx, hsnaptype, val, hval⟩ := h.snaps snap hold
        obtain ⟨y, hy, heq⟩ := hkept _ x hx
        exact ⟨y, hy, hsnaptype.trans heq.symm, val, heq.symm ▸ hval⟩
      · rw [List.mem_singleton.mp hnew]
        obtain ⟨y, hy, heq⟩ := hkept pos data hdata
        exact ⟨y, hy, heq.symm, read, heq.symm ▸ hread⟩
  · obtain ⟨htype, hnot, read, hread⟩ := type_renewVal hv
    obtain ⟨spare, hgrow, -⟩ := c.pub.growForElem_eq
    have hdata : c'.pub.data = c.pub.data ++
        [(c.pub.newData a.guid a.name a.val.type).renew v a.now] := by
      rw [hpub, SosPub.data_setElem_addElem]
    refine ⟨?_, fun x hx => ?_, fun x hx => ?_, fun snap hsnap => ?_⟩
    · rw [hqueue]
      exact h.counted.push _
    · rw [hdata] at hx
      rcases List.mem_append.mp hx with hold | hnew
      · exact h.elems x hold
      · rw [List.mem_singleton.mp hnew]
        exact ⟨htype, hnot⟩
    · rw [hpub] at hx
      exact (c.pub.mem_spare_addElem a.guid a.name a.val.type hx).elim (h.spare x) id
    · rw [hqueue] at hsnap
      rcases List.mem_append.mp hsnap with hold | hnew
      · obtain ⟨x, hx, hrest⟩ := h.snaps snap hold
        refine ⟨x, ?_, hrest⟩
        rw [hdata, List.getElem?_append_left (List.getElem?_eq_some_iff.mp hx).1, hx]
      · rw [List.mem_singleton.mp hnew, hdata]
        exact ⟨_, List.getElem?_concat_length, rfl, read, hread⟩

/-- Announcing keeps them. -/
theorem announce (h : c.Typed) : Typed ⟨(sosAnnounce c.pub).2, c.queue⟩ := by
  unfold sosAnnounce
  split
  case isTrue => exact h
  case isFalse => exact ⟨h.counted, h.elems, h.spare, h.snaps⟩

/-- **So does publishing.** -/
theorem publish (h : c.Typed) {send : Double} {out : Published}
    (hpub : PublishedBy c send out c') : c'.Typed := by
  have hann := h.announce
  have hsent : ∀ data : SosData,
      (data.sent send).val = data.val ∧ (data.sent send).type = data.type := by
    intro data
    unfold SosData.sent
    split <;> exact ⟨rfl, rfl⟩
  refine ⟨?_, fun x hx => ?_, ?_, fun snap hsnap => ?_⟩
  · rw [hpub.locked.queue]
    exact SosPipe.counted_empty
  · rw [hpub.locked.pub] at hx
    obtain ⟨data, hdata, rfl⟩ := List.mem_map.mp hx
    rw [(hsent data).1, (hsent data).2]
    exact hann.elems data hdata
  · rw [hpub.locked.pub]
    exact hann.spare
  · rw [hpub.locked.queue] at hsnap
    exact absurd hsnap List.not_mem_nil

end ClientPub.Typed

/-! ## Its doubles -/

/-- What comes back is no infinity. -/
theorem Codable.not_isInf {d : Double} (h : Codable d) : ¬ IsInf d := by
  rintro ⟨htop, -⟩
  rcases h with rfl | ⟨hfinite, -⟩
  · exact absurd htop (by decide)
  · exact hfinite htop

/-- No double of a value that comes back is one. -/
theorem SosVal.Codable.not_isInf {v : SosVal} (h : v.Codable) : ∀ d ∈ v.doubles, ¬ IsInf d := by
  cases v with
  | double d => exact fun x hx => List.mem_singleton.mp hx ▸ SosFlow.Codable.not_isInf h
  | int i => exact fun _ hx => absurd hx List.not_mem_nil
  | long l => exact fun _ hx => absurd hx List.not_mem_nil
  | string s => exact fun _ hx => absurd hx List.not_mem_nil
  | bytes b => exact fun _ hx => absurd hx List.not_mem_nil

/-- The element's copy of a value comes back if the value does. -/
theorem codable_renewVal {type : ValType} {val : SosVal} {v : SosVal × CInt}
    (h : renewVal type val = some v) (hval : ∀ read ∈ val.readAs type, read.Codable) :
    v.1.Codable := by
  unfold renewVal at h
  cases hread : val.readAs type with
  | none =>
      rw [hread] at h
      cases h
  | some read =>
      rw [hread] at h hval
      have hcodable := hval read rfl
      cases read <;> cases h
      · trivial
      · trivial
      · exact hcodable
      · trivial

/-- **A client's pub whose doubles come back from the wire**, and whose times are no
infinities. -/
structure ClientPub.Exact (c : ClientPub) : Prop where
  elems : ∀ data ∈ c.pub.data, ¬ IsInf data.time.pack ∧ data.val.Codable
  snaps : ∀ snap ∈ c.queue.items, ¬ IsInf snap.time.pack ∧ ¬ IsInf snap.time.recv ∧
    ∀ val ∈ snap.val.readAs snap.type, val.Codable

namespace ClientPub.Exact

variable {c c' : ClientPub}

theorem init (config : SosConfig) (guid : SosGuid) (title : CString) (nature : CInt)
    (newSize : ℕ) : Exact ⟨sosPubInitSized config guid title nature newSize, .empty⟩ where
  elems _ h := absurd h List.not_mem_nil
  snaps _ h := absurd h List.not_mem_nil

/-- The snapshot of a value that comes back. -/
theorem queued (h : c.Exact) {a : PackArgs} {pub : SosPub} {pos : ℕ} {data : SosData}
    (hnow : ¬ IsInf a.now) (hval : ∀ val ∈ a.val.readAs data.type, val.Codable) :
    ∀ snap ∈ (c.queue.push (a.snap pub pos data)).items, ¬ IsInf snap.time.pack ∧
      ¬ IsInf snap.time.recv ∧ ∀ val ∈ snap.val.readAs snap.type, val.Codable := by
  intro snap hsnap
  rcases List.mem_append.mp hsnap with hold | hnew
  · exact h.snaps snap hold
  · rw [List.mem_singleton.mp hnew]
    exact ⟨hnow, (by decide : ¬ IsInf 0), hval⟩

/-- **A pack of a value that comes back.** -/
theorem pack (h : c.Exact) {a : PackArgs} (hpack : c.pack a = some c') (hnow : ¬ IsInf a.now)
    (hval : ∀ val ∈ a.val.readAs (c.pub.typeFor a), val.Codable) : c'.Exact := by
  obtain ⟨-, hcases⟩ := ClientPub.pack_cases hpack
  rcases hcases with ⟨pos, data, v, hsearch, hdata, hv, hpub, hqueue⟩ | ⟨v, hsearch, hv, hpub, hqueue⟩
  · have htype : c.pub.typeFor a = data.type := by
      rw [SosPub.typeFor, hsearch, Option.bind_some, hdata]
    rw [htype] at hval
    refine ⟨fun x hx => ?_, hqueue ▸ h.queued hnow hval⟩
    rw [hpub] at hx
    rcases List.mem_or_eq_of_mem_set hx with hold | rfl
    · exact h.elems x hold
    · exact ⟨hnow, codable_renewVal hv hval⟩
  · have htype : c.pub.typeFor a = a.val.type := by
      rw [SosPub.typeFor, hsearch, Option.bind_none]
    rw [htype] at hval
    refine ⟨fun x hx => ?_, hqueue ▸ h.queued hnow hval⟩
    rw [hpub, SosPub.data_setElem_addElem] at hx
    rcases List.mem_append.mp hx with hold | hnew
    · exact h.elems x hold
    · rw [List.mem_singleton.mp hnew]
      exact ⟨hnow, codable_renewVal hv hval⟩

/-- Announcing changes no double. -/
theorem announce (h : c.Exact) : Exact ⟨(sosAnnounce c.pub).2, c.queue⟩ where
  elems := by
    rw [data_sosAnnounce]
    exact h.elems
  snaps := h.snaps

/-- **So does publishing**, but for the sending times. -/
theorem publish (h : c.Exact) {send : Double} {out : Published}
    (hpub : PublishedBy c send out c') : c'.Exact where
  elems x hx := by
    rw [hpub.locked.pub] at hx
    obtain ⟨data, hdata, rfl⟩ := List.mem_map.mp hx
    have hsent : (data.sent send).val = data.val ∧ (data.sent send).time.pack = data.time.pack := by
      unfold SosData.sent
      split <;> exact ⟨rfl, rfl⟩
    rw [hsent.1, hsent.2]
    exact h.announce.elems data hdata
  snaps snap hsnap := by
    rw [hpub.locked.queue] at hsnap
    exact absurd hsnap List.not_mem_nil

/-- **A publish of it converts no infinity.** -/
theorem doubles (h : c.Exact) (htyped : c.Typed) {send : Double} {clock : ℕ → Double}
    (hsend : ¬ IsInf send) (hclock : ∀ i ∈ List.range c.queue.items.length, ¬ IsInf (clock i)) :
    ∀ d ∈ c.doubles send clock, ¬ IsInf d := by
  intro d hd
  rcases List.mem_append.mp hd with helem | hsnap
  · obtain ⟨data, hdata, hd⟩ := List.mem_flatMap.mp helem
    obtain ⟨hpack, hval⟩ := h.elems data hdata
    rw [SosData.doubles] at hd
    split at hd
    case isTrue =>
      rw [SosVal.doublesAs, ← (htyped.elems data hdata).1, SosVal.readAs_type, Option.map_some,
        Option.getD_some] at hd
      rcases List.mem_cons.mp hd with rfl | hd
      · exact hpack
      rcases List.mem_cons.mp hd with rfl | hd
      · exact hsend
      · exact hval.not_isInf d hd
    case isFalse => exact absurd hd List.not_mem_nil
  · obtain ⟨⟨snap, i⟩, hmem, hd⟩ := List.mem_flatMap.mp hsnap
    obtain ⟨-, hi, hat⟩ := List.mem_zipIdx hmem
    have hsnap : snap ∈ c.queue.items := hat ▸ List.getElem_mem _
    obtain ⟨hpack, hrecv, hval⟩ := h.snaps snap hsnap
    obtain ⟨data, hdata, htype, val, hread⟩ := htyped.snaps snap hsnap
    rw [SosPub.snapDoubles, SosPub.typeAt, SosPub.elemAt_eq_some (lt_of_lt_of_le
      (List.getElem?_eq_some_iff.mp hdata).1 (Nat.le_add_right _ _)), Option.map_some,
      SosPub.elemOr_of_data hdata, Option.map_some, Option.getD_some, SosVal.doublesAs, hread,
      Option.map_some, Option.getD_some] at hd
    rcases List.mem_cons.mp hd with rfl | hd
    · exact hpack
    rcases List.mem_cons.mp hd with rfl | hd
    · exact hclock i (List.mem_range.mpr (by simpa using hi))
    rcases List.mem_cons.mp hd with rfl | hd
    · exact hrecv
    · exact (hval val (htype ▸ hread)).not_isInf d hd

end ClientPub.Exact

/-! ## The daemon's copy of it -/

/-- **The daemon has the client's element**, whatever its value. -/
structure SameDefinition (data data' : SosData) : Prop where
  guid : data'.guid = data.guid
  name : data'.name = data.name
  type : data'.type = data.type

/-- Every element has a guid, and a name that fits. -/
def SosPub.Named (c : SosPub) : Prop :=
  ∀ data ∈ c.data, data.guid ≠ 0 ∧ data.name.length < sosDefaultStringLen

/-- **A pub of the daemon follows the client's**: the elements it has are the
client's first ones, with the value of each that is not DIRTY. -/
structure Follows (c p : SosPub) : Prop where
  le : p.data.length ≤ c.data.length
  all : c.announced = true → p.data.length = c.data.length
  same : ∀ (i : ℕ) (data : SosData), i < p.data.length → c.data[i]? = some data →
    SameDefinition data (p.elemOr i)
  val : ∀ (i : ℕ) (data : SosData), i < p.data.length → c.data[i]? = some data →
    data.state ≠ .dirty → (p.elemOr i).val = data.val
  fresh : ∀ (i : ℕ) (data : SosData), p.data.length ≤ i → c.data[i]? = some data →
    data.state = .dirty
  spare : ∀ i, p.data.length ≤ i → (p.elemOr i).guid = 0

namespace Follows

variable {c p p' : SosPub}

/-- Only the elements of the daemon's pub matter. -/
theorem congr (h : Follows c p) (hdata : p'.data = p.data) (hspare : p'.spare = p.spare) :
    Follows c p' := by
  have hor : ∀ i, p'.elemOr i = p.elemOr i := by
    intro i
    rw [SosPub.elemOr, SosPub.elemAt, hdata, hspare]
    rfl
  constructor
  · exact hdata ▸ h.le
  · exact hdata ▸ h.all
  · intro i data hi hat
    rw [hor]
    exact h.same i data (hdata ▸ hi) hat
  · intro i data hi hat hstate
    rw [hor]
    exact h.val i data (hdata ▸ hi) hat hstate
  · intro i data hi
    exact h.fresh i data (hdata ▸ hi)
  · intro i hi
    rw [hor]
    exact h.spare i (hdata ▸ hi)

/-- The definition behind an ANNOUNCE that is read up to the last byte. -/
theorem define {data old : SosData} (hlen : data.name.length < sosDefaultStringLen)
    (h : old.guid = data.guid → old.name = data.name) :
    SameDefinition data (old.define data.announce) := by
  have htake : data.name.take (sosDefaultStringLen - 1) = data.name :=
    CString.take_of_length_le (by omega)
  have hhas : (old.define data.announce).Has data.announce :=
    SosData.has_define fun hguid => (h hguid).trans htake.symm
  exact ⟨hhas.guid, hhas.name.trans htake, hhas.type⟩

/-- **An ANNOUNCE that arrives**: the daemon has all the elements. -/
theorem announce (h : Follows c p) (hnamed : c.Named) :
    Follows c.afterAnnounce (sosAnnounceFromBuffer p c.announceMsg) := by
  have hlen : (sosAnnounceFromBuffer p c.announceMsg).data.length = c.data.length :=
    (length_data_announce p c.announceMsg).trans (List.length_map _)
  have hor : ∀ (i : ℕ) (data : SosData), c.data[i]? = some data →
      (sosAnnounceFromBuffer p c.announceMsg).elemOr i = (p.elemOr i).define data.announce := by
    intro i data hdata
    have hat : c.announceMsg.elems[i]? = some data.announce := by
      rw [SosPub.announceMsg, List.getElem?_map, hdata, Option.map_some]
    rw [elemOr_announce, hat]
  refine ⟨hlen.le, fun _ => hlen, ?_, ?_, ?_, ?_⟩
  · intro i data _ hdata
    obtain ⟨hguid, hname⟩ := hnamed data (List.mem_of_getElem? hdata)
    rw [hor i data hdata]
    refine define hname fun heq => ?_
    rcases lt_or_ge i p.data.length with hlt | hge
    · exact (h.same i data hlt hdata).name
    · exact absurd (heq.symm.trans (h.spare i hge)) hguid
  · intro i data _ hdata hstate
    rw [hor i data hdata, SosData.val_define]
    rcases lt_or_ge i p.data.length with hlt | hge
    · exact h.val i data hlt hdata hstate
    · exact absurd (h.fresh i data hge hdata) hstate
  · intro i data hi hdata
    have hlt := (List.getElem?_eq_some_iff.mp hdata).1
    exact absurd (hlen ▸ hi) (not_le.mpr hlt)
  · intro i hi
    rw [hlen] at hi
    have hat : c.announceMsg.elems[i]? = none := by
      rw [SosPub.announceMsg, List.getElem?_map, List.getElem?_eq_none hi, Option.map_none]
    rw [elemOr_announce, hat]
    exact h.spare i (h.le.trans hi)

/-- An element behind a PUBLISH was one in front of it. -/
theorem getElem?_afterPublish {send : Double} {i : ℕ} {data' : SosData}
    (h : (c.afterPublish send).data[i]? = some data') :
    ∃ data, c.data[i]? = some data ∧ data' = data.sent send := by
  rw [SosPub.afterPublish, List.getElem?_map, Option.map_eq_some_iff] at h
  obtain ⟨data, hdata, rfl⟩ := h
  exact ⟨data, hdata, rfl⟩

/-- **A PUBLISH that arrives**: the daemon has all the values. -/
theorem publish (h : Follows c p) (hann : c.announced = true)
    (htyped : ∀ data ∈ c.data, data.val.type = data.type ∧ data.type ≠ .bytes)
    (hexact : ∀ data ∈ c.data, data.val.Codable) (send : Double) {m : PublishMsg}
    (hm : m = ⟨c.guid, c.frame, (c.data.zipIdx 0).filterMap (publishAt send)⟩) :
    letI := DoubleCodec.sos
    ∃ p', sosPublishFromBuffer p m.overWire = some p' ∧ Follows (c.afterPublish send) p' := by
  let _ := DoubleCodec.sos
  have hlen := h.all hann
  have hread : ∀ data ∈ c.data, data.val.readAs data.type = some data.val := fun data hdata =>
    (htyped data hdata).1 ▸ data.val.readAs_type
  have helems : m.elems = (c.data.zipIdx 0).filterMap (publishAt send) := by rw [hm]
  have hwire : ∀ e' ∈ m.overWire.elems, ∃ e ∈ (c.data.zipIdx 0).filterMap (publishAt send),
      e' = e.overWire := by
    intro e' he'
    obtain ⟨e, he, rfl⟩ := List.mem_map.mp he'
    exact ⟨e, helems ▸ he, rfl⟩
  have hfits : ∀ e ∈ m.overWire.elems, e.Fits { p with frame := c.frame } := by
    intro e' he'
    obtain ⟨e, he, rfl⟩ := hwire e' he'
    obtain ⟨data, hdata, hpub⟩ := mem_published.mp he
    obtain ⟨-, val, hval, heq⟩ := publishAt_eq_some.mp hpub
    have hlt : e.elem < p.data.length := hlen ▸ (List.getElem?_eq_some_iff.mp hdata).1
    have htype : e.overWire.val.type = data.type := by
      refine (SosVal.type_overWire e.val).trans ?_
      rw [heq]
      exact SosVal.type_readAs hval
    refine ⟨lt_of_lt_of_le hlt (Nat.le_add_right _ _), ?_, ?_⟩
    · exact htype.trans (h.same e.elem data hlt hdata).type.symm
    · exact htype ▸ (htyped data (List.mem_of_getElem? hdata)).2
  have hnodup : (m.overWire.elems.map (·.elem)).Nodup := by
    have hsame : m.overWire.elems.map (·.elem) = m.elems.map (·.elem) := List.map_map
    rw [hsame, helems]
    exact nodup_published send c.data
  obtain ⟨p', hp', hall⟩ := receiveElems_eq_some hnodup hfits
  have hlen' : p'.data.length = p.data.length := hall.republished.length
  have hframe : m.overWire.frame = c.frame := by rw [hm]; rfl
  refine ⟨p', ?_, ?_⟩
  · rw [sosPublishFromBuffer, hframe]
    exact hp'
  refine ⟨?_, fun _ => ?_, ?_, ?_, ?_, ?_⟩
  · rw [hlen', length_data_afterPublish]
    exact h.le
  · rw [hlen', length_data_afterPublish, hlen]
  · intro i data' hi hdata'
    obtain ⟨data, hdata, rfl⟩ := getElem?_afterPublish hdata'
    have hsame := h.same i data (hlen' ▸ hi) hdata
    have hid := hall.republished.elem i
    have hsent : SameDefinition data (p'.elemOr i) :=
      ⟨hid.guid.trans hsame.guid, hid.name.trans hsame.name, hid.type.trans hsame.type⟩
    unfold SosData.sent
    split
    · exact ⟨hsent.guid, hsent.name, hsent.type⟩
    · exact hsent
  · intro i data' hi hdata' _
    obtain ⟨data, hdata, rfl⟩ := getElem?_afterPublish hdata'
    have hmem := List.mem_of_getElem? hdata
    have hval : (data.sent send).val = data.val := by
      unfold SosData.sent
      split <;> rfl
    rw [hval]
    by_cases hdirty : data.state = .dirty
    · have hpub : publishAt send (data, i) = some (data.publish i send data.val) :=
        publishAt_eq_some.mpr ⟨hdirty, data.val, hread data hmem, rfl⟩
      have hmem' : (data.publish i send data.val).overWire ∈ m.overWire.elems :=
        List.mem_map_of_mem (helems ▸ mem_published.mpr ⟨data, hdata, hpub⟩)
      have he : p'.elemOr i = (p.elemOr i).receive (data.publish i send data.val).overWire
          data.val.overWire := hall.elem _ hmem'
      rw [he]
      exact (SosVal.overWire_eq_iff data.val).mpr (hexact data hmem)
    · rw [hall.other i fun e' he' heq => ?_]
      · exact h.val i data (hlen' ▸ hi) hdata hdirty
      · obtain ⟨e, he, rfl⟩ := hwire e' he'
        obtain ⟨data₁, hdata₁, hpub⟩ := mem_published.mp he
        have hat : c.data[i]? = some data₁ := by
          rw [← heq]
          exact hdata₁
        cases hdata.symm.trans hat
        exact hdirty (publishAt_eq_some.mp hpub).1
  · intro i data' hi hdata'
    obtain ⟨data, hdata, -⟩ := getElem?_afterPublish hdata'
    have hlt := (List.getElem?_eq_some_iff.mp hdata).1
    rw [hlen', hlen] at hi
    exact absurd hi (not_le.mpr hlt)
  · intro i hi
    rw [(hall.republished.elem i).guid]
    exact h.spare i (hlen' ▸ hi)

/-- **A PUBLISH that carries nothing** need not arrive. -/
theorem skip (h : Follows c p) (hclean : ¬ ∃ data ∈ c.data, data.state = .dirty) (send : Double) :
    Follows (c.afterPublish send) p := by
  have hsame : (c.afterPublish send).data = c.data := by
    refine (List.map_congr_left fun data hdata => ?_).trans (List.map_id _)
    exact if_neg fun hdirty => hclean ⟨data, hdata, hdirty⟩
  refine ⟨hsame ▸ h.le, fun hann => hsame ▸ h.all hann, ?_, ?_, ?_, h.spare⟩
  · rw [hsame]
    exact h.same
  · rw [hsame]
    exact h.val
  · rw [hsame]
    exact h.fresh

/-- **A pack** makes DIRTY what it changes or adds. -/
theorem pack {c c' : ClientPub} (h : Follows c.pub p) {a : PackArgs} (hpack : c.pack a = some c') :
    Follows c'.pub p := by
  obtain ⟨-, hcases⟩ := ClientPub.pack_cases hpack
  rcases hcases with ⟨pos, old, v, -, hold, -, hpub, -⟩ | ⟨v, -, -, hpub, -⟩
  · have hset : c'.pub.data = c.pub.data.set pos (old.renew v a.now) := by
      rw [hpub]
      rfl
    have hlen : c'.pub.data.length = c.pub.data.length := hset ▸ List.length_set
    have hcase : ∀ (i : ℕ) (data : SosData), c'.pub.data[i]? = some data →
        c.pub.data[i]? = some data ∨
          c.pub.data[i]? = some old ∧ data = old.renew v a.now := by
      intro i data hdata
      rw [hset] at hdata
      by_cases hi : pos = i
      · subst hi
        rw [List.getElem?_set_self (List.getElem?_eq_some_iff.mp hold).1] at hdata
        exact .inr ⟨hold, (Option.some.inj hdata).symm⟩
      · exact .inl ((List.getElem?_set_ne hi).symm.trans hdata)
    refine ⟨hlen ▸ h.le, fun hann => ?_, ?_, ?_, ?_, h.spare⟩
    · rw [hpub] at hann
      rw [hlen]
      exact h.all hann
    · intro i data hi hdata
      rcases hcase i data hdata with hkept | ⟨hat, rfl⟩
      · exact h.same i data hi hkept
      · have hsame := h.same i old hi hat
        exact ⟨hsame.guid, hsame.name, hsame.type⟩
    · intro i data hi hdata hstate
      rcases hcase i data hdata with hkept | ⟨-, rfl⟩
      · exact h.val i data hi hkept hstate
      · exact absurd rfl hstate
    · intro i data hi hdata
      rcases hcase i data hdata with hkept | ⟨-, rfl⟩
      · exact h.fresh i data hi hkept
      · rfl
  · have hdata : c'.pub.data = c.pub.data ++
        [(c.pub.newData a.guid a.name a.val.type).renew v a.now] := by
      rw [hpub, SosPub.data_setElem_addElem]
    have hlen : c'.pub.data.length = c.pub.data.length + 1 := by
      rw [hdata, List.length_append, List.length_singleton]
    have hold : ∀ (i : ℕ) (data : SosData), i < p.data.length → c'.pub.data[i]? = some data →
        c.pub.data[i]? = some data := by
      intro i data hi hat
      rw [hdata, List.getElem?_append_left (lt_of_lt_of_le hi h.le)] at hat
      exact hat
    refine ⟨hlen ▸ Nat.le_succ_of_le h.le, fun hann => ?_, ?_, ?_, ?_, h.spare⟩
    · rw [hpub] at hann
      cases hann
    · exact fun i data hi hat => h.same i data hi (hold i data hi hat)
    · exact fun i data hi hat => h.val i data hi (hold i data hi hat)
    · intro i data hi hat
      rw [hdata] at hat
      rcases lt_or_ge i c.pub.data.length with hlt | hge
      · rw [List.getElem?_append_left hlt] at hat
        exact h.fresh i data hi hat
      · rw [List.getElem?_append_right hge] at hat
        rw [List.mem_singleton.mp (List.mem_of_getElem? hat)]
        rfl

end Follows

/-- A new element has the guid and the name it was packed with. -/
theorem SosPub.Named.pack {c c' : ClientPub} (h : c.pub.Named) {a : PackArgs}
    (hpack : c.pack a = some c') (hguid : a.guid ≠ 0) (hname : a.name.length < sosDefaultStringLen) :
    c'.pub.Named := by
  obtain ⟨-, hcases⟩ := ClientPub.pack_cases hpack
  intro x hx
  rcases hcases with ⟨pos, old, v, -, hold, -, hpub, -⟩ | ⟨v, -, -, hpub, -⟩
  · rw [hpub] at hx
    rcases List.mem_or_eq_of_mem_set hx with hkept | rfl
    · exact h x hkept
    · exact h old (List.mem_of_getElem? hold)
  · rw [hpub, SosPub.data_setElem_addElem] at hx
    rcases List.mem_append.mp hx with hkept | hnew
    · exact h x hkept
    · rw [List.mem_singleton.mp hnew]
      have htake : a.name.take sosDefaultStringLen = a.name :=
        CString.take_of_length_le (by omega)
      exact ⟨hguid, (congrArg CString.length htake).trans_lt hname⟩

/-! ## Its cache -/

/-- **A cache that takes what it receives**, of the depth the client announces. -/
structure CacheReady (depth : ℤ) (p : SosPub) : Prop extends p.CacheReady where
  depth : p.cacheDepth = depth

namespace CacheReady

variable {p p' : SosPub} {depth : ℤ}

theorem same (h : CacheReady depth p) (hsame : SosPub.SameCache p p') : CacheReady depth p' where
  sound := h.sound.same hsame
  ended := by
    rw [SosPub.slots, hsame.cache]
    exact h.ended
  depth := hsame.depth.trans h.depth

/-- The slots behind an ANNOUNCE are those there were, or empty ones. -/
theorem mem_slots_announce {m : AnnounceMsg} {slot : CacheSlot}
    (hslot : slot ∈ (sosAnnounceFromBuffer p m).slots) : slot ∈ p.slots ∨ slot = .null := by
  have hcache : (sosAnnounceFromBuffer p m).cache =
      p.cache.or (SosPub.callocSlots m.cacheDepth.toInt) :=
    congrArg (Option.or · (SosPub.callocSlots m.cacheDepth.toInt))
      (SosPub.growTo_sameCache m.elems.length m.elems.length p).cache
  rw [SosPub.slots, hcache] at hslot
  cases hp : p.cache with
  | some slots =>
      rw [hp] at hslot
      rw [SosPub.slots, hp]
      exact .inl hslot
  | none =>
      rw [hp, Option.none_or, SosPub.callocSlots] at hslot
      split at hslot
      · exact absurd hslot List.not_mem_nil
      · exact .inr (List.eq_of_mem_replicate hslot)

/-- **Another ANNOUNCE of the same depth.** -/
theorem announce {m : AnnounceMsg} (h : CacheReady m.cacheDepth.toInt p) :
    CacheReady m.cacheDepth.toInt (sosAnnounceFromBuffer p m) where
  sound := by
    refine h.sound.announced ?_
    rcases le_or_gt m.cacheDepth.toInt 0 with hle | hpos
    · exact .inr (.inl hle)
    · have hlen := h.sound.depth (h.depth.symm ▸ hpos)
      exact .inr (.inr (h.depth.symm.trans hlen.symm))
  ended slot hslot := by
    rcases mem_slots_announce hslot with hold | rfl
    · exact h.ended slot hold
    · rfl
  depth := rfl

/-- **The first ANNOUNCE.** -/
theorem first (config : SosConfig) (g : SosGuid) (title : CString) (m : AnnounceMsg) :
    CacheReady m.cacheDepth.toInt (sosAnnounceFromBuffer (sosPubInit config g title 0) m) where
  sound := cacheSound_announced config g title
  ended slot hslot := by
    rcases mem_slots_announce hslot with hold | rfl
    · exact absurd hold List.not_mem_nil
    · rfl
  depth := rfl

/-- **Received snapshots** are taken, and nothing changes but the cache and
the frame. -/
theorem receive (h : CacheReady depth p) (list : List SosValSnap) :
    ∃ p', sosPackSnapListIntoPubCache p list = .ok p' ∧ CacheReady depth p' ∧ p'.data = p.data ∧
      p'.spare = p.spare := by
  obtain ⟨p', hp', hready⟩ := h.toCacheReady.pack list
  have hsame := (sosPackSnapListIntoPubCache_recached p list).of_ok hp'
  exact ⟨p', hp', ⟨hready, hsame.cacheDepth.trans h.depth⟩, hsame.data, hsame.spare⟩

end CacheReady

/-! ## Client and daemon together -/

/-- **The daemon follows the client's pub**, and what it received is covered. -/
structure Replicates (c : SosPub) (d : Daemon) (received : List PubMessage) : Prop where
  follows : Follows c (d.pubFor c.guid)
  cache : ∀ p, d.pubTable c.guid = some p → CacheReady (BitVec.ofInt 32 c.cacheDepth).toInt p
  unheard : d.pubTable c.guid = none → c.announced = false
  heard : ∀ p, d.pubTable c.guid = some p → ∃ a, .announce a ∈ received ∧ a.refGuid = c.guid ∧
    a.elems.length = p.data.length
  covered : Covered received

namespace Replicates

variable {c : SosPub} {d : Daemon} {received : List PubMessage}

/-- A pub that is announced has been heard of. -/
theorem known (h : Replicates c d received) (hann : c.announced = true) :
    ∃ p, d.pubTable c.guid = some p ∧ Follows c p := by
  cases hp : d.pubTable c.guid with
  | none => exact absurd (hann.symm.trans (h.unheard hp)) (by decide)
  | some p =>
      have hfollows := h.follows
      rw [Daemon.pubFor, hp, Option.getD_some] at hfollows
      exact ⟨p, rfl, hfollows⟩

/-- What was announced covers the elements of an announced pub. -/
theorem coveredBy (h : Replicates c d received) (hann : c.announced = true) {m : PubMessage}
    (hguid : m.refGuid = c.guid) (hindexes : ∀ i ∈ m.indexes, i < c.data.length) :
    m.CoveredBy received := by
  obtain ⟨p, hp, hfollows⟩ := h.known hann
  obtain ⟨a, ha, haguid, hlen⟩ := h.heard p hp
  have hcovers : ∃ a, .announce a ∈ received ∧ a.refGuid = m.refGuid ∧
      ∀ i ∈ m.indexes, i < a.elems.length := by
    refine ⟨a, ha, haguid.trans hguid.symm, fun i hi => ?_⟩
    rw [hlen, hfollows.all hann]
    exact hindexes i hi
  cases m with
  | announce _ => trivial
  | publish _ => exact hcovers
  | valSnaps _ => exact hcovers

/-- A message that is received changes the daemon's pub to one that follows. -/
theorem put (h : Replicates c d received) {c' p' : SosPub} {d' : Daemon} {m : PubMessage}
    (hcovered : m.CoveredBy received) (hguid : c'.guid = c.guid)
    (hdepth : c'.cacheDepth = c.cacheDepth) (hput : d'.pubTable c.guid = some p')
    (hfollows : Follows c' p') (hcache : CacheReady (BitVec.ofInt 32 c.cacheDepth).toInt p')
    (hheard : ∃ a, .announce a ∈ received ++ [m] ∧ a.refGuid = c.guid ∧
      a.elems.length = p'.data.length) :
    Replicates c' d' (received ++ [m]) := by
  have hsame : ∀ p, d'.pubTable c'.guid = some p → p = p' := by
    intro p hp
    rw [hguid, hput] at hp
    exact (Option.some.inj hp).symm
  refine ⟨?_, ?_, ?_, ?_, h.covered.concat hcovered⟩
  · rw [Daemon.pubFor, hguid, hput, Option.getD_some]
    exact hfollows
  · intro p hp
    rw [hsame p hp, hdepth]
    exact hcache
  · intro hnone
    rw [hguid, hput] at hnone
    cases hnone
  · intro p hp
    rw [hsame p hp, hguid]
    exact hheard

/-- **A pack** sends nothing. -/
theorem pack {c c' : ClientPub} (h : Replicates c.pub d received) {a : PackArgs}
    (hpack : c.pack a = some c') : Replicates c'.pub d received := by
  have hkept : c'.pub.guid = c.pub.guid ∧ c'.pub.cacheDepth = c.pub.cacheDepth ∧
      (c.pub.announced = false → c'.pub.announced = false) := by
    obtain ⟨-, hcases⟩ := ClientPub.pack_cases hpack
    rcases hcases with ⟨pos, old, v, -, -, -, hpub, -⟩ | ⟨v, -, -, hpub, -⟩
    · rw [hpub]
      exact ⟨rfl, rfl, id⟩
    · obtain ⟨spare, hgrow, -⟩ := c.pub.growForElem_eq
      rw [hpub]
      unfold SosPub.setElem SosPub.addElem
      rw [hgrow]
      exact ⟨rfl, rfl, fun _ => rfl⟩
  obtain ⟨hguid, hdepth, hann⟩ := hkept
  refine ⟨?_, ?_, ?_, ?_, h.covered⟩
  · rw [hguid]
    exact h.follows.pack hpack
  · rw [hguid, hdepth]
    exact h.cache
  · rw [hguid]
    exact fun hnone => hann (h.unheard hnone)
  · rw [hguid]
    exact h.heard

/-- **An ANNOUNCE is received.** -/
theorem announce (h : Replicates c d received) (hnamed : c.Named) :
    Replicates c.afterAnnounce (d.handleAnnounce c.announceMsg)
      (received ++ [.announce c.announceMsg]) := by
  have hfollows := h.follows.announce hnamed
  have hcache : CacheReady (BitVec.ofInt 32 c.cacheDepth).toInt
      (sosAnnounceFromBuffer (d.pubFor c.guid) c.announceMsg) := by
    unfold Daemon.pubFor
    cases hp : d.pubTable c.guid with
    | none => exact CacheReady.first d.config c.guid _ c.announceMsg
    | some p => exact CacheReady.announce (m := c.announceMsg) (h.cache p hp)
  have hput : (d.handleAnnounce c.announceMsg).pubTable c.guid =
      some { sosAnnounceFromBuffer (d.pubFor c.guid) c.announceMsg with announced := true } :=
    if_pos rfl
  refine h.put trivial rfl rfl hput (hfollows.congr rfl rfl) (hcache.same ⟨rfl, rfl, rfl⟩) ?_
  exact ⟨c.announceMsg, List.mem_append_right _ List.mem_cons_self, rfl,
    (length_data_announce _ _).symm⟩

/-- The ANNOUNCE that the daemon heard last is still one it heard. -/
theorem heard_concat (h : Replicates c d received) {p p' : SosPub} (m : PubMessage)
    (hp : d.pubTable c.guid = some p) (hlen : p'.data.length = p.data.length) :
    ∃ a, .announce a ∈ received ++ [m] ∧ a.refGuid = c.guid ∧
      a.elems.length = p'.data.length := by
  obtain ⟨a, ha, haguid, halen⟩ := h.heard p hp
  exact ⟨a, List.mem_append_left _ ha, haguid, halen.trans hlen.symm⟩

/-- **A PUBLISH is received.** -/
theorem publish (h : Replicates c d received) (hann : c.announced = true)
    (htyped : ∀ data ∈ c.data, data.val.type = data.type ∧ data.type ≠ .bytes)
    (hexact : ∀ data ∈ c.data, data.val.Codable) (send : Double) {m : PublishMsg}
    (hm : m = ⟨c.guid, c.frame, (c.data.zipIdx 0).filterMap (publishAt send)⟩) :
    letI := DoubleCodec.sos
    ∃ d', d.handlePublish m.overWire = some d' ∧
      Replicates (c.afterPublish send) d' (received ++ [.publish m]) := by
  let _ := DoubleCodec.sos
  obtain ⟨p, hp, hfollows⟩ := h.known hann
  obtain ⟨p', hp', hfollows'⟩ := hfollows.publish hann htyped hexact send hm
  have hsame := sosPublishFromBuffer_sameCache hp'
  have hlen : p'.data.length = p.data.length := (receiveElems_republished hp').length
  subst hm
  refine ⟨d.putPub c.guid p', ?_, ?_⟩
  · have hpub : d.pubFor c.guid = p := by rw [Daemon.pubFor, hp, Option.getD_some]
    exact (congrArg (Option.map (d.putPub c.guid)) ((congrArg (sosPublishFromBuffer · _) hpub).trans
      hp')).trans rfl
  · refine h.put (h.coveredBy hann rfl fun i hi => ?_) rfl rfl (if_pos rfl) hfollows'
      ((h.cache p hp).same hsame) (h.heard_concat _ hp hlen)
    obtain ⟨e, he, rfl⟩ := List.mem_map.mp hi
    obtain ⟨data, hdata, -⟩ := mem_published.mp he
    exact (List.getElem?_eq_some_iff.mp hdata).1

/-- **A PUBLISH that carries nothing** need not be received. -/
theorem skip (h : Replicates c d received) (hclean : ¬ ∃ data ∈ c.data, data.state = .dirty)
    (send : Double) : Replicates (c.afterPublish send) d received :=
  ⟨h.follows.skip hclean send, h.cache, h.unheard, h.heard, h.covered⟩

/-- Snapshots of their own types can be read. -/
theorem readSnaps_isSome {list : List (SosValSnap × SosVal)}
    (h : ∀ p ∈ list, p.2.type = p.1.type) : ∃ snaps, readSnaps list = some snaps := by
  induction list with
  | nil => exact ⟨[], rfl⟩
  | cons p rest ih =>
      rw [List.forall_mem_cons] at h
      obtain ⟨snaps, hsnaps⟩ := ih h.2
      exact ⟨{ p.1 with val := p.2 } :: snaps, by
        rw [readSnaps, if_pos h.1, hsnaps, Option.map_some]⟩

/-- **A VAL_SNAPS is received.** -/
theorem valSnaps (h : Replicates c d received) (hann : c.announced = true) {m : ValSnapsMsg}
    (hguid : m.refGuid = c.guid) (hindexes : ∀ p ∈ m.snaps, p.1.elem < c.data.length)
    (htypes : ∀ p ∈ m.snaps, p.2.type = p.1.type) (recv : ℕ → Double) :
    letI := DoubleCodec.sos
    ∃ d', d.deliver recv (.valSnaps m.overWire) = some d' ∧
      Replicates c d' (received ++ [.valSnaps m]) := by
  let _ := DoubleCodec.sos
  obtain ⟨p, hp, hfollows⟩ := h.known hann
  have hwire : ∀ q ∈ m.overWire.snaps, q.2.type = q.1.type := by
    intro q' hq'
    obtain ⟨q, hq, rfl⟩ := List.mem_map.mp hq'
    exact (SosVal.type_overWire q.2).trans (htypes q hq)
  obtain ⟨snaps, hsnaps⟩ := readSnaps_isSome hwire
  have hready := h.cache p hp
  have hreceived : ∃ p', cacheReceived p (receivedCopies recv (snaps.map (·.taggedFor p))) = .ok p' ∧
      CacheReady (BitVec.ofInt 32 c.cacheDepth).toInt p' ∧ p'.data = p.data ∧ p'.spare = p.spare := by
    unfold cacheReceived
    split
    · exact hready.receive _
    · exact ⟨p, rfl, hready, rfl, rfl⟩
  have hhandled : ∃ p' d', d.handleValSnaps c.guid snaps recv = .ok d' ∧
      d'.pubTable c.guid = some p' ∧ CacheReady (BitVec.ofInt 32 c.cacheDepth).toInt p' ∧
      p'.data = p.data ∧ p'.spare = p.spare := by
    by_cases hnil : snaps = []
    · refine ⟨p, { d.putPub c.guid p with snapQueue := d.snapQueue }, ?_, if_pos rfl, hready, rfl, rfl⟩
      simp only [Daemon.handleValSnaps, hp, sosValSnapQueueFromBuffer, if_pos hnil]
      rfl
    · obtain ⟨p', hp', hpost⟩ := hreceived
      refine ⟨p', { d.putPub c.guid p' with
        snapQueue := d.snapQueue.map (·.pushAll (snaps.map (·.taggedFor p))) }, ?_, if_pos rfl, hpost⟩
      simp only [Daemon.handleValSnaps, hp, sosValSnapQueueFromBuffer, if_neg hnil, hp']
      rfl
  obtain ⟨p', d', hd', hput, hready', hdata, hspare⟩ := hhandled
  refine ⟨d', ?_, ?_⟩
  · have hguid' : m.overWire.refGuid = c.guid := hguid
    rw [Daemon.deliver, hsnaps, Option.bind_some, hguid', hd']
    rfl
  · refine h.put (h.coveredBy hann hguid fun i hi => ?_) rfl rfl hput
      (hfollows.congr hdata hspare) hready' (h.heard_concat _ hp (congrArg List.length hdata))
    obtain ⟨q, hq, rfl⟩ := List.mem_map.mp hi
    exact hindexes q hq

end Replicates

/-! ## The run -/

/-- **The daemon of a link follows a pub.** -/
def Link.Follows (s : Link) (c : SosPub) : Prop :=
  ∃ d, s.daemon = some d ∧ Replicates c d s.received

/-- **What holds between any two calls that lose nothing.** -/
structure LinkInv (s : Link) : Prop where
  typed : s.client.Typed
  exact : s.client.Exact
  named : s.client.pub.Named
  follows : s.Follows s.client.pub

namespace LinkInv

variable {s s' : Link}

@[simp] theorem Link.client_send (s : Link) (recv : ℕ → Double) (ok : Bool) (m : PubMessage) :
    (s.send recv ok m).client = s.client := by
  unfold SosFlow.Link.send
  split <;> rfl

@[simp] theorem Link.client_sendAny (s : Link) (recv : ℕ → Double) (ok : Bool)
    (m : Option PubMessage) : (s.sendAny recv ok m).client = s.client := by
  cases m with
  | none => rfl
  | some m => exact Link.client_send s recv ok m

/-- Announcing leaves the pub announced. -/
theorem announced_sosAnnounce (pub : SosPub) : (sosAnnounce pub).2.announced = true := by
  unfold sosAnnounce
  split
  case isTrue hann => exact hann
  case isFalse => rfl

/-- **`SOS_announce`**, whose send succeeds if there is one. -/
theorem announce {c : SosPub} (h : s.Follows c) (hnamed : c.Named) (recv : ℕ → Double) {ok : Bool}
    (hok : c.announced = false → ok = true) :
    (s.sendAny recv ok ((sosAnnounce c).1.map .announce)).Follows (sosAnnounce c).2 := by
  unfold sosAnnounce
  cases hann : c.announced with
  | true => exact h
  | false =>
      obtain ⟨d, hd, hrep⟩ := h
      refine ⟨d.handleAnnounce c.announceMsg, ?_, ?_⟩
      · simp only [SosFlow.Link.sendAny, SosFlow.Link.send, hok hann, hd, PubMessage.overWire,
          Daemon.deliver, Option.map_some, Bool.false_eq_true, if_false, if_true, Option.bind_some]
      · have hnext := hrep.announce hnamed
        simpa only [SosFlow.Link.sendAny, SosFlow.Link.send, hok hann, Option.map_some,
          Bool.false_eq_true, if_false, if_true] using hnext

/-- **The PUBLISH**, whose send succeeds if it carries anything. -/
theorem publish {c : SosPub} (h : s.Follows c) (hann : c.announced = true)
    (htyped : ∀ data ∈ c.data, data.val.type = data.type ∧ data.type ≠ .bytes)
    (hexact : ∀ data ∈ c.data, data.val.Codable) (send : Double)
    (recv : ℕ → Double) {ok : Bool} (hok : (∃ data ∈ c.data, data.state = .dirty) → ok = true)
    {m : PublishMsg} (hm : m = ⟨c.guid, c.frame, (c.data.zipIdx 0).filterMap (publishAt send)⟩) :
    (s.send recv ok (.publish m)).Follows (c.afterPublish send) := by
  obtain ⟨d, hd, hrep⟩ := h
  cases ok with
  | true =>
      obtain ⟨d', hd', hnext⟩ := hrep.publish hann htyped hexact send hm
      refine ⟨d', ?_, ?_⟩
      · simp only [SosFlow.Link.send, hd, if_true, Option.bind_some, PubMessage.overWire,
          Daemon.deliver, hd']
      · simpa only [SosFlow.Link.send, if_true] using hnext
  | false =>
      refine ⟨d, hd, hrep.skip (fun hdirty => ?_) send⟩
      exact absurd (hok hdirty) (by decide)

/-- **The VAL_SNAPS**, whose send may fail. -/
theorem valSnaps {c : SosPub} (h : s.Follows c) (hann : c.announced = true) (recv : ℕ → Double)
    (ok : Bool) {m : Option ValSnapsMsg} (hm : ∀ snaps ∈ m, snaps.refGuid = c.guid ∧
      (∀ p ∈ snaps.snaps, p.1.elem < c.data.length) ∧ ∀ p ∈ snaps.snaps, p.2.type = p.1.type) :
    (s.sendAny recv ok (m.map .valSnaps)).Follows c := by
  cases m with
  | none => exact h
  | some m =>
      cases ok with
      | false => exact h
      | true =>
          obtain ⟨d, hd, hrep⟩ := h
          obtain ⟨hguid, hindexes, htypes⟩ := hm m rfl
          obtain ⟨d', hd', hnext⟩ := hrep.valSnaps hann hguid hindexes htypes recv
          refine ⟨d', ?_, ?_⟩
          · simp only [SosFlow.Link.sendAny, SosFlow.Link.send, hd, if_true, Option.map_some,
              Option.bind_some, PubMessage.overWire, hd']
          · simpa only [SosFlow.Link.sendAny, SosFlow.Link.send, if_true, Option.map_some]
              using hnext

/-- The snapshots of a typed pub are sent under its elements, with their types. -/
theorem sent_snaps {c c' : ClientPub} (h : c.Typed) {send : Double} {publish : PublishMsg}
    {snaps : Option ValSnapsMsg} (hby : LockedBy c send publish snaps c') :
    ∀ m ∈ snaps, m.refGuid = c.pub.guid ∧ (∀ p ∈ m.snaps, p.1.elem < c.pub.data.length) ∧
      ∀ p ∈ m.snaps, p.2.type = p.1.type := by
  intro m hm
  rcases hby.snaps with ⟨-, hnone⟩ | ⟨-, sent, hsome, hall⟩
  · rw [hnone] at hm
    cases hm
  · rw [hsome] at hm
    cases hm
    have hone : ∀ p ∈ sent, p.1.elem < c.pub.data.length ∧ p.2.type = p.1.type := by
      intro p hp
      obtain ⟨snap, hsnap, ⟨now, hnow⟩, type, htype, hval⟩ := Lockstep.left_of_mem hall hp
      obtain ⟨data, hdata, hsnaptype, -⟩ := h.snaps snap hsnap
      have hlt := (List.getElem?_eq_some_iff.mp hdata).1
      rw [SosPub.typeAt, SosPub.elemAt_eq_some (lt_of_lt_of_le hlt (Nat.le_add_right _ _)),
        Option.map_some, SosPub.elemOr_of_data hdata] at htype
      rw [hnow]
      refine ⟨hlt, ?_⟩
      rw [SosVal.type_readAs hval, ← Option.some.inj htype]
      exact hsnaptype.symm
    exact ⟨rfl, fun p hp => (hone p hp).1, fun p hp => (hone p hp).2⟩

/-- **`SOS_publish`** loses nothing when the sends that carry something
succeed. -/
theorem sosPublish (h : LinkInv s) {send : Double} {clock recv : ℕ → Double} {ok : Sends}
    (hok : LosesNothing s (.publish send clock recv ok))
    (hstep : linkStep s (.publish send clock recv ok) = some s') : LinkInv s' := by
  obtain ⟨⟨out, c'⟩, hrun, hends⟩ := Option.bind_eq_some_iff.mp hstep
  obtain ⟨-, hsent⟩ := Option.ite_none_right_eq_some.mp hends
  cases hsent
  have hby := sosPublish_publishedBy h.typed.counted hrun
  have hann := announced_sosAnnounce s.client.pub
  have htyped := h.typed.announce
  have hclient : (SosFlow.Link.sendAll { s with client := c' } recv ok out).client = c' := by
    rw [SosFlow.Link.sendAll, Link.client_sendAny, Link.client_send, Link.client_sendAny]
  have hlink : SosFlow.Link.Follows { s with client := c' } s.client.pub := h.follows
  have hfirst := announce hlink h.named recv hok.2.1
  rw [← hby.announce] at hfirst
  have hdirty : (∃ data ∈ (sosAnnounce s.client.pub).2.data, data.state = .dirty) →
      ok.publish = true := by
    rw [data_sosAnnounce]
    exact hok.2.2
  have hexact := fun data hdata => (h.exact.announce.elems data hdata).2
  have hsecond := publish hfirst hann htyped.elems hexact send recv hdirty hby.locked.publish
  have hthird := valSnaps hsecond hann recv ok.snaps (m := out.snaps) fun m hm => by
    have hsent := sent_snaps htyped hby.locked m hm
    rw [length_data_afterPublish]
    exact hsent
  refine ⟨?_, ?_, ?_, ?_⟩
  · rw [hclient]
    exact h.typed.publish hby
  · rw [hclient]
    exact h.exact.publish hby
  · rw [hclient, hby.locked.pub]
    intro data hdata
    obtain ⟨old, hold, rfl⟩ := List.mem_map.mp hdata
    rw [data_sosAnnounce] at hold
    have hkept : (old.sent send).guid = old.guid ∧ (old.sent send).name = old.name := by
      unfold SosData.sent
      split <;> exact ⟨rfl, rfl⟩
    rw [hkept.1, hkept.2]
    exact h.named old hold
  · rw [hclient, hby.locked.pub]
    exact hthird

/-- **Every call that loses nothing** keeps the daemon following. -/
theorem step (s : Link) (call : LinkCall) (s' : Link) (h : LinkInv s) (hok : LosesNothing s call)
    (hstep : linkStep s call = some s') : LinkInv s' := by
  cases call with
  | pack a guid_ne =>
      obtain ⟨c, hpack, rfl⟩ := Option.map_eq_some_iff.mp hstep
      obtain ⟨hname, hnow, hval⟩ := hok
      refine ⟨h.typed.pack hpack, h.exact.pack hpack hnow hval, h.named.pack hpack guid_ne hname, ?_⟩
      obtain ⟨d, hd, hrep⟩ := h.follows
      exact ⟨d, hd, hrep.pack hpack⟩
  | announce ok =>
      cases hstep
      have hlink : SosFlow.Link.Follows
          { s with client := { s.client with pub := (sosAnnounce s.client.pub).2 } }
          s.client.pub := h.follows
      have hfollows := announce hlink h.named (fun _ => 0) hok
      constructor
      · rw [Link.client_sendAny]
        exact h.typed.announce
      · rw [Link.client_sendAny]
        exact h.exact.announce
      · rw [Link.client_sendAny, SosPub.Named, data_sosAnnounce]
        exact h.named
      · rw [Link.client_sendAny]
        exact hfollows
  | publish send clock recv ok => exact h.sosPublish hok hstep

theorem start (config : SosConfig) (guid : SosGuid) (title : CString) (nature : CInt)
    (newSize : ℕ) {d : Daemon} (hd : d.pubTable guid = none) :
    LinkInv (.start config guid title nature newSize d) where
  typed := .init config guid title nature newSize
  exact := .init config guid title nature newSize
  named _ h := absurd h List.not_mem_nil
  follows := by
    have hpub : d.pubFor guid = d.newPub guid := by rw [Daemon.pubFor, hd, Option.getD_none]
    have hblank : ∀ i, (d.newPub guid).elemOr i = .blank := by
      intro i
      rw [SosPub.elemOr, SosPub.elemAt]
      change ([] ++ List.replicate sosDefaultElemMax SosData.blank)[i]?.getD .blank = _
      rw [List.nil_append, List.getElem?_replicate]
      split <;> rfl
    refine ⟨d, rfl, ?_, fun p hp => ?_, fun _ => rfl, fun p hp => ?_, covered_nil⟩
    · change SosFlow.Follows _ (d.pubFor guid)
      rw [hpub]
      refine ⟨le_rfl, fun _ => rfl, fun i data hi => (by cases hi), fun i data hi => (by cases hi),
        fun i data _ hdata => (by cases hdata), fun i _ => ?_⟩
      rw [hblank]
      rfl
    · exact absurd (hd.symm.trans hp) (by simp)
    · exact absurd (hd.symm.trans hp) (by simp)

/-- Nothing is DIRTY behind a PUBLISH. -/
theorem state_afterPublish {pub : SosPub} {send : Double} {data : SosData}
    (h : data ∈ (pub.afterPublish send).data) : data.state ≠ .dirty := by
  obtain ⟨old, -, rfl⟩ := List.mem_map.mp h
  unfold SosData.sent
  split
  · exact fun hstate => (by cases hstate)
  · assumption

/-- **A publish whose sends all succeed** is possible, and leaves the daemon's
pub with the client's elements and values. -/
theorem synced (h : LinkInv s) {send : Double} {clock : ℕ → Double} (hsend : ¬ IsInf send)
    (hclock : ∀ i, ¬ IsInf (clock i)) (recv : ℕ → Double) :
    ∃ s', linkStep s (.publish send clock recv ⟨true, true, true⟩) = some s' ∧ s'.Synced ∧
      Covered s'.received := by
  obtain ⟨out, c', hrun, hby⟩ := h.typed.sendable.publish send clock
  have hconverted : Converted out.lockedCalls := by
    rw [converted_iff, doubles_sosPublish h.typed.counted hrun]
    exact h.exact.doubles h.typed hsend fun i _ => hclock i
  have hstep : linkStep s (.publish send clock recv ⟨true, true, true⟩) =
      some (SosFlow.Link.sendAll { s with client := c' } recv ⟨true, true, true⟩ out) := by
    rw [linkStep, hrun, Option.bind_some, if_pos hconverted]
  have hnext := h.sosPublish ⟨⟨hsend, fun i _ => hclock i⟩, fun _ => rfl, fun _ => rfl⟩ hstep
  refine ⟨_, hstep, ?_, ?_⟩
  · have hclient : (SosFlow.Link.sendAll { s with client := c' } recv ⟨true, true, true⟩ out).client
        = c' := by
      rw [SosFlow.Link.sendAll, Link.client_sendAny, Link.client_send, Link.client_sendAny]
    obtain ⟨d, hd, hrep⟩ := hnext.follows
    rw [hclient] at hrep
    have hann : c'.pub.announced = true := by
      rw [hby.locked.pub]
      exact announced_sosAnnounce s.client.pub
    obtain ⟨p, hp, hfollows⟩ := hrep.known hann
    have hlen := hfollows.all hann
    refine ⟨d, p, hd, hclient.symm ▸ hp, ?_⟩
    rw [hclient]
    refine List.forall₂_iff_get.mpr ⟨hlen.symm, fun i hi hi' => ?_⟩
    have hdata : c'.pub.data[i]? = some (c'.pub.data.get ⟨i, hi⟩) := List.getElem?_eq_getElem hi
    have hor : p.elemOr i = p.data.get ⟨i, hi'⟩ :=
      SosPub.elemOr_of_data (List.getElem?_eq_getElem hi')
    have hsame := hfollows.same i _ hi' hdata
    have hclean : ∀ data ∈ c'.pub.data, data.state ≠ .dirty := by
      rw [hby.locked.pub]
      exact fun data hdata => state_afterPublish hdata
    have hval := hfollows.val i _ hi' hdata (hclean _ (List.get_mem _ _))
    rw [hor] at hsame hval
    exact ⟨hsame.guid, hsame.name, hsame.type, hval⟩
  · obtain ⟨d, -, hrep⟩ := hnext.follows
    exact hrep.covered

end LinkInv

/-- **No update is lost** in a run whose calls all lose nothing: what the
daemon received is covered by what was announced, and a publish whose sends
all succeed, at times that are no infinities, leaves its pub with exactly the
client's elements and values. -/
theorem no_update_lost {config : SosConfig} {guid : SosGuid} {title : CString} {nature : CInt}
    {newSize : ℕ} {d : Daemon} {calls : List LinkCall} {s : Link} (hd : d.pubTable guid = none)
    (hok : Along linkStep LosesNothing (.start config guid title nature newSize d) calls)
    (hrun : run linkStep (.start config guid title nature newSize d) calls = some s) :
    Covered s.received ∧ ∀ send clock recv, ¬ IsInf send → (∀ i, ¬ IsInf (clock i)) → ∃ s',
      linkStep s (.publish send clock recv ⟨true, true, true⟩) = some s' ∧ s'.Synced ∧
        Covered s'.received := by
  have hinv := run_invariant LinkInv.step (LinkInv.start config guid title nature newSize hd) hok hrun
  obtain ⟨d', -, hrep⟩ := hinv.follows
  exact ⟨hrep.covered, fun _ _ recv hsend hclock => hinv.synced hsend hclock recv⟩

instance (s : Link) (call : LinkCall) : Decidable (LosesNothing s call) := by
  cases call <;> unfold LosesNothing <;> infer_instance

/-- Two packs of a name, and a publish between them of which only the VAL_SNAPS is lost. -/
def losslessCalls : List LinkCall :=
  [.pack ⟨nameX, .double 0x3ff8000000000000, 0, 9, 0⟩ (by decide),
    .publish 0 (fun _ => 0) (fun _ => 0) ⟨true, true, false⟩,
    .pack ⟨nameX, .double 0x4000000000000000, 0, 10, 0⟩ (by decide)]

theorem no_update_lost_once :
    ∃ s s', run linkStep (.start plainConfig 5 .empty 0 2 (.start plainConfig none)) losslessCalls =
      some s ∧ linkStep s (.publish 0 (fun _ => 0) (fun _ => 0) ⟨true, true, true⟩) = some s' ∧
        s'.Synced := by
  have hrun : (run linkStep (.start plainConfig 5 .empty 0 2 (.start plainConfig none))
      losslessCalls).isSome := by decide +kernel
  obtain ⟨s, hs⟩ := Option.isSome_iff_exists.mp hrun
  obtain ⟨-, hall⟩ := no_update_lost (d := .start plainConfig none) rfl (by decide +kernel) hs
  obtain ⟨s', hs', hsynced, -⟩ := hall 0 (fun _ => 0) (fun _ => 0) (by decide) fun _ => by decide
  exact ⟨s, s', hs, hs', hsynced⟩

/-- The ANNOUNCE of the only element is lost. -/
def lostAnnounce : List LinkCall :=
  [.pack ⟨nameX, .int 1, 0, 9, 0⟩ (by decide), .announce false]

/-- **Then the publishes that follow leave the daemon without the element.** -/
theorem not_no_update_lost :
    ¬ ∀ (d : Daemon) (calls : List LinkCall) (s s' : Link), d.pubTable 5 = none →
      run linkStep (.start plainConfig 5 .empty 0 2 d) calls = some s →
      linkStep s (.publish 0 (fun _ => 0) (fun _ => 0) ⟨true, true, true⟩) = some s' →
      s'.Synced := by
  intro hall
  have hrun : ∃ s s' d pub, run linkStep (.start plainConfig 5 .empty 0 2 (.start plainConfig none))
      lostAnnounce = some s ∧
      linkStep s (.publish 0 (fun _ => 0) (fun _ => 0) ⟨true, true, true⟩) = some s' ∧
      s'.daemon = some d ∧ d.pubTable s'.client.pub.guid = some pub ∧
      s'.client.pub.data.length = 1 ∧ pub.data.length = 0 :=
    ⟨_, _, _, _, rfl, rfl, rfl, rfl, rfl, rfl⟩
  obtain ⟨s, s', d, pub, hs, hs', hd, hpub, hclient, hdaemon⟩ := hrun
  obtain ⟨d', pub', hd', hpub', hsame⟩ := hall (.start plainConfig none) lostAnnounce s s' rfl hs hs'
  cases hd.symm.trans hd'
  cases hpub.symm.trans hpub'
  have hlen := hsame.length_eq
  omega

end SosFlow
