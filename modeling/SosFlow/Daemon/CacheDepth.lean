import SosFlow.Daemon.Handlers
import SosFlow.Daemon.Wire

/-!
# The cache depth that is in force

A client sets the depth of a pub's cache with `SOS_pub_config`. As long as the
pub is not announced that only changes the client's own field, which goes out
with the next ANNOUNCE. Otherwise a CACHE_SIZE is sent. The listen loop of the
daemon acknowledges an ANNOUNCE when it is in the queue of `local_sync`, but
handles a CACHE_SIZE at once. So a CACHE_SIZE may overtake the ANNOUNCE: it
finds no pub and does nothing, and the depth that was announced stays.

There are three other ways to another depth. A pub that is packed into again
waits for its ANNOUNCE, and its depth with it. The handler of a CACHE_SIZE takes
a negative depth for zero. And it reads through the slots of a cache that
grows, which stops the daemon where there is nothing to read, or too little,
and leaves slots behind that stop it when a list is put there.

An ANNOUNCE leaves the queue here when it has been applied.
-/

namespace SosFlow

open Outcome Trace

/-! ## The system -/

/-- A message of the client, as the listen loop gets it. -/
inductive ClientMessage where
  | pub (m : PubMessage)
  | cacheSize (g : SosGuid) (toSize : CInt)

/-- **`SOS_pub_config` with `SOS_PUB_OPTION_CACHE`**: what it sends, and the pub. -/
def SosPub.config (pub : SosPub) (depth : CInt) : Option ClientMessage × SosPub :=
  if pub.cacheDepth = depth.toInt then (none, pub)
  else (if pub.announced then some (.cacheSize pub.guid depth) else none,
    { pub with cacheDepth := depth.toInt })

/-- **A client's pub and the daemon.** `sending` is what the call under way still
has to send, each message when the one before is acknowledged. -/
structure DepthLink where
  client : ClientPub
  sending : List ClientMessage
  localQueue : List PubMessage
  daemon : Daemon
  stopped : Bool

/-- A call of the client, a message that the listen loop receives, or one that
`local_sync` handles. -/
inductive DepthStep where
  | pack (a : PackArgs)
  | announce
  | publish (send : Double) (clock : ℕ → Double)
  | config (depth : CInt)
  | receive
  | sync (recv : ℕ → Double)

namespace DepthLink

/-- The messages of a `SOS_publish`, as they are read. -/
def published (out : Published) : List PubMessage :=
  letI := DoubleCodec.sos
  ((out.announce.map PubMessage.announce).toList ++
    (PubMessage.publish out.publish :: (out.snaps.map PubMessage.valSnaps).toList)).map
      PubMessage.overWire

/-- A call of the client, when its last one is over. -/
def call (s : DepthLink) (step : DepthStep) : Option DepthLink :=
  match step with
  | .pack a => (s.client.pack a).map fun c => { s with client := c }
  | .announce => some { s with
      client := { s.client with pub := (sosAnnounce s.client.pub).2 }
      sending := ((sosAnnounce s.client.pub).1.map (ClientMessage.pub ∘ .announce)).toList }
  | .publish send clock => (sosPublish s.client send clock).bind fun r =>
      if Converted r.1.lockedCalls then
        some { s with client := r.2, sending := (published r.1).map .pub }
      else none
  | .config depth => some { s with
      client := { s.client with pub := (s.client.pub.config depth).2 }
      sending := (s.client.pub.config depth).1.toList }
  | _ => none

/-- **`SOSD_listen_loop`**, with one message. -/
def receive (s : DepthLink) : Option DepthLink :=
  match s.sending with
  | [] => none
  | .pub m :: rest => some { s with sending := rest, localQueue := s.localQueue ++ [m] }
  | .cacheSize g toSize :: rest =>
    match s.daemon.handleCacheSize g toSize with
    | .ok d => some { s with sending := rest, daemon := d }
    | .error _ => some { s with sending := rest, stopped := true }

/-- **`SOSD_THREAD_local_sync`**, with one message. -/
def sync (s : DepthLink) (recv : ℕ → Double) : Option DepthLink :=
  match s.localQueue with
  | [] => none
  | m :: rest =>
    match s.daemon.deliver recv m with
    | some d => some { s with localQueue := rest, daemon := d }
    | none => some { s with localQueue := rest, stopped := true }

/-- A new pub, of which a daemon that has just started has not heard. -/
def start (config : SosConfig) (guid : SosGuid) (title : CString) (nature : CInt) (newSize : ℕ)
    (config' : SosConfig) (queue : Option (SosPipe SosValSnap)) : DepthLink :=
  ⟨⟨sosPubInitSized config guid title nature newSize, .empty⟩, [], [], .start config' queue, false⟩

end DepthLink

/-- **One step.** The client calls when its last call is over, and nothing happens
when the daemon has stopped. -/
def depthStep (s : DepthLink) (step : DepthStep) : Option DepthLink :=
  if s.stopped then none
  else match step with
    | .receive => s.receive
    | .sync recv => s.sync recv
    | step => if s.sending = [] then s.call step else none

/-- The message is an ANNOUNCE. -/
def PubMessage.IsAnnounce : PubMessage → Prop
  | announce _ => True
  | _ => False

instance : DecidablePred PubMessage.IsAnnounce
  | .announce _ => .isTrue trivial
  | .publish _ => .isFalse id
  | .valSnaps _ => .isFalse id

/-- **A new depth in its place.** When it is set, the pub is announced, or no ANNOUNCE of it
was ever sent. When its CACHE_SIZE is received, no ANNOUNCE is in the queue, it is not
negative, and a cache that grows by it is fit to grow. And a VAL_SNAPS is applied where
a list ends. -/
def SizeInPlace (s : DepthLink) : DepthStep → Prop
  | .config depth => depth.toInt ≠ s.client.pub.cacheDepth → s.client.pub.announced = false →
      s.localQueue = [] ∧ s.daemon.pubTable s.client.pub.guid = none
  | .receive => match s.sending with
    | .cacheSize g toSize :: _ => (∀ m ∈ s.localQueue, ¬ m.IsAnnounce) ∧ 0 ≤ toSize.toInt ∧
        ∀ pub ∈ s.daemon.pubTable g,
          pub.cacheDepth < toSize.toInt.toNat → pub.Growable toSize.toInt.toNat
    | _ => True
  | .sync _ => match s.localQueue with
    | .valSnaps m :: _ => ∀ pub ∈ s.daemon.pubTable m.refGuid, pub.CanReceive
    | _ => True
  | _ => True

/-- **The depth is in force**: the daemon has not stopped, and once everything that
was sent is applied, its pub has the client's depth. -/
structure DepthLink.InForce (s : DepthLink) : Prop where
  running : s.stopped = false
  known : s.sending = [] → s.localQueue = [] → s.client.pub.announced = true →
    s.daemon.pubTable s.client.pub.guid ≠ none
  depth : s.sending = [] → s.localQueue = [] →
    ∀ pub ∈ s.daemon.pubTable s.client.pub.guid, pub.cacheDepth = s.client.pub.cacheDepth

/-! ## What the handlers depend on -/

/-- **What a handler finds of a pub**: the types of its elements, and its depth. -/
structure Face where
  types : List ValType
  depth : ℤ

/-- The face of a pub. -/
def SosPub.face (pub : SosPub) : Face := ⟨pub.data.map (·.type), pub.cacheDepth⟩

namespace PubMessage

/-- The face that a message leaves. -/
def face (m : PubMessage) (f : Face) : Face :=
  match m with
  | announce m => ⟨m.elems.map (·.type), m.cacheDepth.toInt⟩
  | _ => f

/-- **A message whose values have the types** they are read by. -/
def TakenBy (f : Face) : PubMessage → Prop
  | announce _ => True
  | publish m => ∀ e ∈ m.elems, f.types[e.elem]? = some e.val.type
  | valSnaps m => ∀ p ∈ m.snaps, p.2.type = p.1.type

end PubMessage

namespace Face

/-- The face behind some messages. -/
def behind (f : Face) (msgs : List PubMessage) : Face := msgs.foldl (fun f m => m.face f) f

/-- **Messages that can be taken** one after the other. -/
def Takes : Face → List PubMessage → Prop
  | _, [] => True
  | f, m :: rest => m.TakenBy f ∧ (m.face f).Takes rest

variable {f f' : Face} {msgs msgs' : List PubMessage}

theorem behind_append : f.behind (msgs ++ msgs') = (f.behind msgs).behind msgs' :=
  List.foldl_append

theorem takes_append : f.Takes (msgs ++ msgs') ↔ f.Takes msgs ∧ (f.behind msgs).Takes msgs' := by
  induction msgs generalizing f with
  | nil => exact (iff_of_eq (true_and _)).symm
  | cons m rest ih => exact (and_congr_right fun _ => ih).trans and_assoc.symm

/-- Only an ANNOUNCE shows another face. -/
theorem behind_eq (h : ∀ m ∈ msgs, ¬ m.IsAnnounce) : f.behind msgs = f := by
  induction msgs with
  | nil => rfl
  | cons m rest ih =>
      rw [List.forall_mem_cons] at h
      have hone : m.face f = f := by
        cases m with
        | announce m => exact absurd trivial h.1
        | publish m => rfl
        | valSnaps m => rfl
      have hrest : (m.face f).behind rest = f := by
        rw [hone]
        exact ih h.2
      exact hrest

/-- Messages are taken by their types. -/
theorem Takes.congr (h : f.Takes msgs) (htypes : f'.types = f.types) : f'.Takes msgs := by
  induction msgs generalizing f f' with
  | nil => trivial
  | cons m rest ih =>
      obtain ⟨hone, hrest⟩ := h
      cases m with
      | announce m => exact ⟨trivial, hrest⟩
      | publish m => exact ⟨fun e he => htypes ▸ hone e he, ih hrest htypes⟩
      | valSnaps m => exact ⟨hone, ih hrest htypes⟩

end Face

section

variable {d d' : Daemon} {m : PubMessage}

/-- A message that is taken can be handled, a VAL_SNAPS where there is a slot for it. -/
theorem PubMessage.TakenBy.handles (h : m.TakenBy (d.pubFor m.refGuid).face)
    (hslot : ∀ v, m = .valSnaps v → ∀ pub ∈ d.pubTable v.refGuid, pub.CanReceive) :
    d.Handles m := by
  cases m with
  | announce m => trivial
  | publish m =>
      intro e he
      obtain ⟨data, hdata, htype⟩ :=
        Option.map_eq_some_iff.mp (List.getElem?_map.symm.trans (h e he))
      have hlt := (List.getElem?_eq_some_iff.mp hdata).1
      refine ⟨lt_of_lt_of_le hlt (Nat.le_add_right _ _), .inr ?_⟩
      rw [← htype]
      exact congrArg SosData.type (SosPub.elemOr_of_data hdata).symm
  | valSnaps m => exact ⟨h, fun _ => hslot m rfl⟩

/-- **An ANNOUNCE** gives every element its type. -/
theorem types_announce (pub : SosPub) (m : AnnounceMsg) :
    (sosAnnounceFromBuffer pub m).data.map (·.type) = m.elems.map (·.type) := by
  refine List.ext_getElem? fun i => ?_
  rw [List.getElem?_map, List.getElem?_map]
  by_cases hi : i < m.elems.length
  · have hor := elemOr_announce pub m i
    rw [List.getElem?_eq_getElem hi] at hor
    have htype : ((pub.elemOr i).define m.elems[i]).type = m.elems[i].type := by
      unfold SosData.define
      split
      case isTrue => rfl
      case isFalse hsame =>
        unfold SosData.Redefined at hsame
        push Not at hsame
        exact hsame.2.1
    rw [SosPub.getElem?_data (by rw [length_data_announce]; exact hi), hor,
      List.getElem?_eq_getElem hi, Option.map_some, Option.map_some, htype]
  · rw [List.getElem?_eq_none (not_lt.mp hi),
      List.getElem?_eq_none (by rw [length_data_announce]; exact not_lt.mp hi), Option.map_none,
      Option.map_none]

/-- A PUBLISH leaves the face. -/
theorem face_publish {pub pub' : SosPub} {m : PublishMsg}
    (h : sosPublishFromBuffer pub m = some pub') : pub'.face = pub.face := by
  have hsame := receiveElems_republished h
  have htypes : pub'.data.map (·.type) = pub.data.map (·.type) := by
    have hlen : pub'.data.length = pub.data.length := hsame.length
    refine List.ext_getElem? fun i => ?_
    rw [List.getElem?_map, List.getElem?_map]
    by_cases hi : i < pub.data.length
    · have htype : (pub'.elemOr i).type = (pub.elemOr i).type := (hsame.elem i).type
      rw [SosPub.getElem?_data (hlen ▸ hi), SosPub.getElem?_data hi, Option.map_some,
        Option.map_some, htype]
    · rw [List.getElem?_eq_none (not_lt.mp hi), List.getElem?_eq_none (hlen ▸ not_lt.mp hi)]
  rw [SosPub.face, htypes, (sosPublishFromBuffer_sameCache h).depth, SosPub.face]

/-- **What a message leaves of the pub** it is about: the face it says. -/
theorem face_deliver {recv : ℕ → Double} (h : d.deliver recv m = some d')
    (hknown : d.pubTable m.refGuid = none → m.IsAnnounce) :
    ∃ pub', d'.pubTable m.refGuid = some pub' ∧
      pub'.face = m.face (d.pubFor m.refGuid).face := by
  cases m with
  | announce m =>
      cases h
      refine ⟨_, if_pos rfl, ?_⟩
      exact congrArg (Face.mk · m.cacheDepth.toInt) (types_announce (d.pubFor m.refGuid) m)
  | publish m =>
      obtain ⟨pub', hpub', rfl⟩ := Option.map_eq_some_iff.mp h
      exact ⟨pub', if_pos rfl, face_publish hpub'⟩
  | valSnaps m =>
      obtain ⟨snaps, -, hd⟩ := Option.bind_eq_some_iff.mp h
      cases hr : d.handleValSnaps m.refGuid snaps recv with
      | error fault =>
          rw [hr] at hd
          cases hd
      | ok d₁ =>
          rw [hr] at hd
          cases hd
          have hingested := Daemon.handleValSnaps_eq_ok hr
          have hrecached := hingested.pub m.refGuid
          cases hpub' : d'.pubTable m.refGuid with
          | none => exact absurd (hknown ((hingested.known _).mp hpub')) id
          | some pub' =>
              rw [Daemon.pubFor.eq_def d', hpub', Option.getD_some] at hrecached
              refine ⟨pub', hpub', ?_⟩
              rw [SosPub.face, hrecached.data, hrecached.cacheDepth]
              rfl

/-- **A CACHE_SIZE** that is fit to grow the cache sets the depth. -/
theorem face_handleCacheSize {g : SosGuid} {toSize : CInt} {pub : SosPub}
    (hpub : d.pubTable g = some pub)
    (hgrows : pub.cacheDepth < toSize.toInt.toNat → pub.Growable toSize.toInt.toNat) :
    ∃ d' pub', d.handleCacheSize g toSize = .ok d' ∧ d'.pubTable g = some pub' ∧
      pub'.face = ⟨pub.face.types, toSize.toInt.toNat⟩ := by
  obtain ⟨pub', hpub', hdepth, hdata⟩ := sosdResizeCache_returns toSize hgrows
  refine ⟨d.putPub g pub', pub', ?_, if_pos rfl, by rw [SosPub.face, hdepth, hdata]; rfl⟩
  unfold Daemon.handleCacheSize
  rw [hpub]
  exact bind_eq_ok.mpr ⟨pub', hpub', rfl⟩

end

/-! ## What the client sends -/

/-- **A pack** leaves the face of a pub that stays announced. -/
theorem ClientPub.pack_face {c c' : ClientPub} {a : PackArgs} (h : c.pack a = some c') :
    c'.pub.guid = c.pub.guid ∧ c'.pub.cacheDepth = c.pub.cacheDepth ∧
      (c'.pub.announced = true →
        c.pub.announced = true ∧ c'.pub.face.types = c.pub.face.types) := by
  obtain ⟨-, hcases⟩ := ClientPub.pack_cases h
  rcases hcases with ⟨pos, old, v, -, hold, -, hpub, -⟩ | ⟨v, -, -, hpub, -⟩
  · rw [hpub]
    refine ⟨rfl, rfl, fun hann => ⟨hann, ?_⟩⟩
    have hset : (c.pub.data.set pos (old.renew v a.now)).map (·.type) =
        c.pub.data.map (·.type) := by
      obtain ⟨hlt, hget⟩ := List.getElem?_eq_some_iff.mp hold
      rw [List.map_set]
      refine List.ext_getElem? fun i => ?_
      rw [List.getElem?_set]
      split
      case isTrue heq =>
        rw [List.length_map, if_pos hlt, ← heq, List.getElem?_map, hold]
        rfl
      case isFalse => rfl
    exact hset
  · obtain ⟨spare, hgrow, -⟩ := c.pub.growForElem_eq
    rw [hpub]
    unfold SosPub.setElem SosPub.addElem
    rw [hgrow]
    exact ⟨rfl, rfl, fun hann => (by cases hann)⟩

/-- **What a publish sends behind the ANNOUNCE** is no ANNOUNCE, and is taken by a pub with
the types of the client's elements. -/
theorem DepthLink.published_eq {c c' : ClientPub} {send : Double} {out : Published}
    (htyped : c.Typed) (hby : PublishedBy c send out c') :
    ∃ rest : List PubMessage,
      published out = ((sosAnnounce c.pub).1.map PubMessage.announce).toList ++ rest ∧
      (∀ m ∈ rest, ¬ m.IsAnnounce ∧ m.refGuid = c.pub.guid) ∧
      ∀ f : Face, f.types = c.pub.face.types → f.Takes rest := by
  let _ := DoubleCodec.sos
  have hguid : (sosAnnounce c.pub).2.guid = c.pub.guid := by
    unfold sosAnnounce
    split <;> rfl
  have hsnaps := LinkInv.sent_snaps htyped.announce hby.locked
  refine ⟨.publish out.publish.overWire ::
    (out.snaps.map (PubMessage.valSnaps ∘ ValSnapsMsg.overWire)).toList, ?_, ?_, fun f hf => ⟨?_, ?_⟩⟩
  · rw [published, hby.announce, List.map_append]
    cases (sosAnnounce c.pub).1 <;> cases out.snaps <;> rfl
  · intro m hm
    rcases List.mem_cons.mp hm with rfl | hm
    · refine ⟨id, ?_⟩
      rw [hby.locked.publish]
      exact hguid
    · obtain ⟨v, hv, rfl⟩ := Option.map_eq_some_iff.mp (Option.mem_toList.mp hm)
      exact ⟨id, (hsnaps v hv).1.trans hguid⟩
  · intro e' he'
    rw [hby.locked.publish] at he'
    obtain ⟨e, he, rfl⟩ := List.mem_map.mp he'
    obtain ⟨data, hdata, hpub⟩ := mem_published.mp he
    obtain ⟨-, val, hval, heq⟩ := publishAt_eq_some.mp hpub
    rw [data_sosAnnounce] at hdata
    have htype : e.overWire.val.type = data.type := by
      refine (SosVal.type_overWire e.val).trans ?_
      rw [heq]
      exact SosVal.type_readAs hval
    have hindex : e.overWire.elem = e.elem := rfl
    rw [hf, SosPub.face, List.getElem?_map, hindex, hdata, Option.map_some, htype]
  · cases hout : out.snaps with
    | none => trivial
    | some v =>
        refine ⟨fun p' hp' => ?_, trivial⟩
        obtain ⟨p, hp, rfl⟩ := List.mem_map.mp hp'
        exact (SosVal.type_overWire p.2).trans ((hsnaps v hout).2.2 p hp)

/-! ## The invariant -/

namespace DepthLink

/-- The face of the daemon's pub. -/
def face (s : DepthLink) : Face := (s.daemon.pubFor s.client.pub.guid).face

/-- The daemon has heard of the pub, or will from the messages. -/
def Told (s : DepthLink) (msgs : List PubMessage) : Prop :=
  msgs = [] → s.daemon.pubTable s.client.pub.guid ≠ none

/-- **What is on its way to the pub**: it can be taken, the first that it hears is an
ANNOUNCE, and behind it the daemon has the types of an announced pub. -/
structure Flight (s : DepthLink) (msgs : List PubMessage) : Prop where
  guid : ∀ m ∈ msgs, m.refGuid = s.client.pub.guid
  taken : s.face.Takes msgs
  heard : s.daemon.pubTable s.client.pub.guid = none → ∀ m ∈ msgs.head?, m.IsAnnounce
  types : s.client.pub.announced = true →
    s.Told msgs ∧ (s.face.behind msgs).types = s.client.pub.face.types

/-- **What becomes of the daemon's depth**: it is the client's behind what is on its way, or
a CACHE_SIZE with the client's is. -/
inductive Due (s : DepthLink) : Prop
  | messages (msgs : List PubMessage) (sending : s.sending = msgs.map .pub)
      (flight : s.Flight (s.localQueue ++ msgs))
      (depth : s.Told (s.localQueue ++ msgs) →
        (s.face.behind (s.localQueue ++ msgs)).depth = s.client.pub.cacheDepth)
  | size (announced : s.client.pub.announced = true)
      (sending : s.sending =
        [.cacheSize s.client.pub.guid (BitVec.ofInt 32 s.client.pub.cacheDepth)])
      (flight : s.Flight s.localQueue)

/-- **What holds between any two steps.** -/
structure DepthInv (s : DepthLink) : Prop where
  running : s.stopped = false
  fits : (BitVec.ofInt 32 s.client.pub.cacheDepth).toInt = s.client.pub.cacheDepth
  typed : s.client.Typed
  due : s.Due

namespace DepthInv

variable {s s' : DepthLink}

theorem start {config config' : SosConfig} (hdepth : config.pubCacheDepth ≤ intMax)
    (guid : SosGuid) (title : CString) (nature : CInt) (newSize : ℕ)
    (queue : Option (SosPipe SosValSnap)) :
    DepthInv (.start config guid title nature newSize config' queue) where
  running := rfl
  fits := by
    change (BitVec.ofInt 32 (config.pubCacheDepth : ℤ)).toInt = config.pubCacheDepth
    exact toInt_intOf hdepth
  typed := .init config guid title nature newSize
  due := .messages [] rfl
    ⟨fun _ h => absurd h List.not_mem_nil, trivial, fun _ _ h => (by cases h), fun h => (by cases h)⟩
    fun htold => absurd rfl (htold rfl)

/-- When the client's last call is over, the queue is all there is. -/
theorem idle (h : DepthInv s) (hidle : s.sending = []) : s.Flight s.localQueue ∧
    (s.Told s.localQueue → (s.face.behind s.localQueue).depth = s.client.pub.cacheDepth) := by
  cases h.due with
  | messages msgs hsending hflight hdepth =>
      obtain rfl := List.map_eq_nil_iff.mp (hsending.symm.trans hidle)
      rw [List.append_nil] at hflight hdepth
      exact ⟨hflight, hdepth⟩
  | size _ hsending =>
      rw [hidle] at hsending
      cases hsending

/-- **A call that sends messages**, the last of which leave the daemon with the client's
types and depth. -/
theorem send (h : DepthInv s) {c : ClientPub} {msgs : List PubMessage} (hidle : s.sending = [])
    (hface : c.pub.guid = s.client.pub.guid ∧ c.pub.cacheDepth = s.client.pub.cacheDepth)
    (htyped : c.Typed) (hguid : ∀ m ∈ msgs, m.refGuid = s.client.pub.guid)
    (htaken : (s.face.behind s.localQueue).Takes msgs)
    (hheard : s.client.pub.announced = false → ∀ m ∈ msgs.head?, m.IsAnnounce)
    (htypes : c.pub.announced = true → s.Told (s.localQueue ++ msgs) ∧
      ((s.face.behind s.localQueue).behind msgs).types = c.pub.face.types)
    (hdepth : s.Told (s.localQueue ++ msgs) →
      ((s.face.behind s.localQueue).behind msgs).depth = c.pub.cacheDepth) :
    DepthInv { s with client := c, sending := msgs.map .pub } := by
  obtain ⟨hflight, -⟩ := h.idle hidle
  have hsame : DepthLink.face { s with client := c, sending := msgs.map .pub } = s.face := by
    rw [DepthLink.face, hface.1]
    rfl
  have htold : ∀ l, DepthLink.Told { s with client := c, sending := msgs.map .pub } l ↔ s.Told l := by
    intro l
    rw [DepthLink.Told, hface.1]
    rfl
  refine ⟨h.running, by rw [hface.2]; exact h.fits, htyped, .messages msgs rfl ⟨?_, ?_, ?_, ?_⟩ ?_⟩
  · rw [hface.1]
    exact fun m hm => (List.mem_append.mp hm).elim (hflight.guid m) (hguid m)
  · rw [hsame, Face.takes_append]
    exact ⟨hflight.taken, htaken⟩
  · rw [hface.1]
    intro hunknown m hm
    have hunheard := hflight.heard hunknown
    change m ∈ (s.localQueue ++ msgs).head? at hm
    cases hqueue : s.localQueue with
    | nil =>
        rw [hqueue, List.nil_append] at hm
        refine hheard ?_ m hm
        by_contra hann
        have htold := (hflight.types (by simpa using hann)).1
        exact htold hqueue hunknown
    | cons m' rest =>
        rw [hqueue] at hm hunheard
        exact hunheard m hm
  · intro hann
    rw [hsame, htold, Face.behind_append]
    exact htypes hann
  · rw [hsame, htold, Face.behind_append]
    exact hdepth

/-- The daemon hears of an announced pub. -/
theorem told (h : DepthInv s) (hidle : s.sending = []) (hann : s.client.pub.announced = true)
    (msgs : List PubMessage) : s.Told (s.localQueue ++ msgs) :=
  fun hnil => ((h.idle hidle).1.types hann).1 (List.append_eq_nil_iff.mp hnil).1

/-- **A pack** sends nothing. -/
theorem pack (h : DepthInv s) {a : PackArgs} {c : ClientPub} (hidle : s.sending = [])
    (hpack : s.client.pack a = some c) : DepthInv { s with client := c } := by
  obtain ⟨hflight, hdepth⟩ := h.idle hidle
  obtain ⟨hguid, hsame, hface⟩ := ClientPub.pack_face hpack
  have hsent := h.send hidle ⟨hguid, hsame⟩ (h.typed.pack hpack)
    (fun m (hm : m ∈ []) => absurd hm List.not_mem_nil) trivial (fun _ _ hm => (by cases hm))
    (fun hann => by
      obtain ⟨hold, htypes⟩ := hface hann
      exact ⟨h.told hidle hold [], (hflight.types hold).2.trans htypes.symm⟩)
    (fun htold => by
      rw [List.append_nil] at htold
      exact (hdepth htold).trans hsame.symm)
  rw [List.map_nil] at hsent
  rw [← hidle] at hsent
  exact hsent

/-- **The ANNOUNCE in front of what a call sends**, if there is one, leaves the daemon with
the client's face. -/
theorem announceFirst (h : DepthInv s) {c : ClientPub} (rest : List PubMessage)
    (hidle : s.sending = []) (htyped : c.Typed)
    (hface : c.pub.guid = s.client.pub.guid ∧ c.pub.face = s.client.pub.face)
    (hrest : ∀ m ∈ rest, ¬ m.IsAnnounce ∧ m.refGuid = s.client.pub.guid)
    (htaken : ∀ f : Face, f.types = s.client.pub.face.types → f.Takes rest) :
    DepthInv { s with
      client := c
      sending := (((sosAnnounce s.client.pub).1.map PubMessage.announce).toList ++ rest).map .pub } := by
  obtain ⟨hflight, hdepth⟩ := h.idle hidle
  have hsamedepth : c.pub.cacheDepth = s.client.pub.cacheDepth := congrArg Face.depth hface.2
  have hsametypes := congrArg Face.types hface.2
  have hlater : ∀ f : Face, f.behind rest = f := fun f => Face.behind_eq fun m hm => (hrest m hm).1
  cases hann : s.client.pub.announced with
  | true =>
      have hnone : (sosAnnounce s.client.pub).1 = none := by rw [sosAnnounce, if_pos hann]
      have htypes := (hflight.types hann).2
      rw [hnone]
      refine h.send hidle ⟨hface.1, hsamedepth⟩ htyped (fun m hm => (hrest m hm).2)
        (htaken _ htypes) (fun hsilent => ?_) (fun _ => ⟨h.told hidle hann _, ?_⟩) fun _ => ?_
      · exact absurd (hann.symm.trans hsilent) (by decide)
      · change ((s.face.behind s.localQueue).behind rest).types = _
        rw [hlater, htypes, hsametypes]
      · change ((s.face.behind s.localQueue).behind rest).depth = _
        rw [hlater, hdepth (hflight.types hann).1, hsamedepth]
  | false =>
      have hsome : (sosAnnounce s.client.pub).1 = some s.client.pub.announceMsg := by
        rw [sosAnnounce, if_neg (by rw [hann]; decide)]
      have hmsg : ∀ f : Face, (PubMessage.announce s.client.pub.announceMsg).face f =
          s.client.pub.face := by
        intro f
        have htypes : s.client.pub.announceMsg.elems.map (·.type) =
            s.client.pub.data.map (·.type) := List.map_map
        rw [PubMessage.face, htypes]
        exact congrArg (Face.mk _) h.fits
      rw [hsome]
      refine h.send hidle ⟨hface.1, hsamedepth⟩ htyped (fun m hm => ?_) ⟨trivial, ?_⟩
        (fun _ m hm => ?_) (fun _ => ⟨fun hnil => ?_, ?_⟩) fun _ => ?_
      · rcases List.mem_cons.mp hm with rfl | hm
        · rfl
        · exact (hrest m hm).2
      · rw [hmsg]
        exact htaken _ rfl
      · cases hm
        trivial
      · exact absurd (List.append_eq_nil_iff.mp hnil).2 (List.cons_ne_nil _ _)
      · change (Face.behind ((PubMessage.announce _).face _) rest).types = _
        rw [hmsg, hlater, hsametypes]
      · change (Face.behind ((PubMessage.announce _).face _) rest).depth = _
        rw [hmsg, hlater]
        exact hsamedepth.symm

/-- **A new depth.** -/
theorem config (h : DepthInv s) {depth : CInt} (hidle : s.sending = [])
    (hok : SizeInPlace s (.config depth)) : DepthInv { s with
      client := { s.client with pub := (s.client.pub.config depth).2 }
      sending := (s.client.pub.config depth).1.toList } := by
  obtain ⟨hflight, -⟩ := h.idle hidle
  unfold SosPub.config
  split
  case isTrue =>
    have hsame : { s with client := { s.client with pub := s.client.pub }, sending := [] } = s := by
      rw [← hidle]
    change DepthInv { s with client := { s.client with pub := s.client.pub }, sending := [] }
    rw [hsame]
    exact h
  case isFalse hne =>
    have hfits : (BitVec.ofInt 32 depth.toInt).toInt = depth.toInt := by
      rw [BitVec.ofInt_toInt]
    have htyped : ClientPub.Typed
        { s.client with pub := { s.client.pub with cacheDepth := depth.toInt } } :=
      ⟨h.typed.counted, h.typed.elems, h.typed.spare, h.typed.snaps⟩
    refine ⟨h.running, hfits, htyped, ?_⟩
    have hnext : DepthLink.Flight { s with
        client := { s.client with pub := { s.client.pub with cacheDepth := depth.toInt } }
        sending := (if s.client.pub.announced then
          some (ClientMessage.cacheSize s.client.pub.guid depth) else none).toList } s.localQueue :=
      ⟨hflight.guid, hflight.taken, hflight.heard, hflight.types⟩
    by_cases hann : s.client.pub.announced = true
    · refine .size hann ?_ hnext
      dsimp only
      rw [if_pos hann, BitVec.ofInt_toInt]
      rfl
    · obtain ⟨hqueue, hunknown⟩ := hok (Ne.symm hne) (Bool.eq_false_iff.mpr hann)
      have hnil := List.append_nil s.localQueue
      refine .messages [] ?_ (hnil.symm ▸ hnext) fun htold => ?_
      · dsimp only
        rw [if_neg hann]
        rfl
      · exact absurd hunknown (htold (hnil.trans hqueue))

/-- **The listen loop** queues a message, or handles a CACHE_SIZE that is in its
place. -/
theorem receive (h : DepthInv s) (hok : SizeInPlace s .receive) (hstep : s.receive = some s') :
    DepthInv s' := by
  unfold DepthLink.receive at hstep
  unfold SizeInPlace at hok
  cases h.due with
  | messages msgs hsending hflight hdepth =>
      rw [hsending] at hstep
      cases msgs with
      | nil => cases hstep
      | cons m rest =>
          cases hstep
          have hlist : s.localQueue ++ m :: rest = s.localQueue ++ [m] ++ rest :=
            List.append_cons ..
          rw [hlist] at hflight hdepth
          exact ⟨h.running, h.fits, h.typed, .messages rest rfl
            ⟨hflight.guid, hflight.taken, hflight.heard, hflight.types⟩ hdepth⟩
  | size hann hsending hflight =>
      rw [hsending] at hok hstep
      obtain ⟨hnone, hnonneg, hgrows⟩ := hok
      obtain ⟨htold, htypes⟩ := hflight.types hann
      -- the pub is known, as nothing in the queue announces it
      obtain ⟨pub, hpub⟩ : ∃ pub, s.daemon.pubTable s.client.pub.guid = some pub := by
        refine Option.ne_none_iff_exists'.mp fun hunknown => ?_
        cases hqueue : s.localQueue with
        | nil => exact htold hqueue hunknown
        | cons m rest =>
            have hheard := hflight.heard hunknown
            rw [hqueue] at hheard hnone
            exact hnone m List.mem_cons_self (hheard m rfl)
      obtain ⟨d, pub', hd, hpub', hface⟩ := face_handleCacheSize hpub (hgrows pub hpub)
      dsimp only at hstep
      rw [hd] at hstep
      cases hstep
      have hold : s.face = pub.face := by
        rw [DepthLink.face, Daemon.pubFor, hpub, Option.getD_some]
      have hnew : DepthLink.face { s with sending := [], daemon := d } = pub'.face := by
        rw [DepthLink.face]
        change (d.pubFor s.client.pub.guid).face = _
        rw [Daemon.pubFor, hpub', Option.getD_some]
      have hsame : (DepthLink.face { s with sending := [], daemon := d }).types = s.face.types := by
        rw [hnew, hface, hold]
      have hunknown : d.pubTable s.client.pub.guid ≠ none := by
        rw [hpub']
        exact Option.some_ne_none pub'
      rw [Face.behind_eq hnone] at htypes
      refine ⟨h.running, h.fits, h.typed, .messages [] rfl ?_ fun _ => ?_⟩
      · rw [List.append_nil]
        refine ⟨hflight.guid, hflight.taken.congr hsame, fun hno => absurd hno hunknown,
          fun _ => ⟨fun _ => hunknown, ?_⟩⟩
        rw [Face.behind_eq hnone, hsame, htypes]
      · rw [h.fits] at hnonneg hface
        rw [List.append_nil, Face.behind_eq hnone, hnew, hface]
        exact Int.toNat_of_nonneg hnonneg

/-- **A message of the queue is applied**, and what is behind it stays on its way. -/
theorem Flight.deliver (recv : ℕ → Double) {m : PubMessage} {msgs : List PubMessage}
    (h : s.Flight (m :: msgs))
    (hslot : ∀ v, m = .valSnaps v → ∀ pub ∈ s.daemon.pubTable v.refGuid, pub.CanReceive)
    (rest : List PubMessage) : ∃ d, s.daemon.deliver recv m = some d ∧
      DepthLink.face { s with localQueue := rest, daemon := d } = m.face s.face ∧
      d.pubTable s.client.pub.guid ≠ none ∧
      DepthLink.Flight { s with localQueue := rest, daemon := d } msgs := by
  have hguid : m.refGuid = s.client.pub.guid := h.guid m List.mem_cons_self
  obtain ⟨htaken, hothers⟩ := h.taken
  have hhandles : s.daemon.Handles m := PubMessage.TakenBy.handles (by rw [hguid]; exact htaken) hslot
  obtain ⟨d, hd⟩ := (Daemon.deliver_isSome_iff recv).mpr hhandles
  obtain ⟨pub', hpub', hface⟩ := face_deliver hd fun hunknown => h.heard (hguid ▸ hunknown) m rfl
  rw [hguid] at hpub' hface
  have hknown : d.pubTable s.client.pub.guid ≠ none := by
    rw [hpub']
    exact Option.some_ne_none pub'
  have hnew : DepthLink.face { s with localQueue := rest, daemon := d } = m.face s.face := by
    rw [DepthLink.face]
    change (d.pubFor s.client.pub.guid).face = _
    rw [Daemon.pubFor, hpub', Option.getD_some, hface]
    rfl
  refine ⟨d, hd, hnew, hknown, fun x hx => h.guid x (List.mem_cons_of_mem _ hx), ?_,
    fun hno => absurd hno hknown, fun hann => ⟨fun _ => hknown, ?_⟩⟩
  · rw [hnew]
    exact hothers
  · rw [hnew]
    exact (h.types hann).2

/-- **`local_sync`** applies what is first in its queue. -/
theorem sync (h : DepthInv s) {recv : ℕ → Double} (hok : SizeInPlace s (.sync recv))
    (hstep : s.sync recv = some s') : DepthInv s' := by
  unfold DepthLink.sync at hstep
  unfold SizeInPlace at hok
  cases hqueue : s.localQueue with
  | nil =>
      rw [hqueue] at hstep
      cases hstep
  | cons m rest =>
      have hslot : ∀ v, m = .valSnaps v → ∀ pub ∈ s.daemon.pubTable v.refGuid, pub.CanReceive := by
        rintro v rfl
        rw [hqueue] at hok
        exact hok
      rw [hqueue] at hstep
      cases h.due with
      | messages msgs hsending hflight hdepth =>
          rw [hqueue] at hflight hdepth
          obtain ⟨d, hd, hface, hknown, hnext⟩ := Flight.deliver recv hflight hslot rest
          dsimp only at hstep
          rw [hd] at hstep
          cases hstep
          refine ⟨h.running, h.fits, h.typed, .messages msgs hsending hnext fun _ => ?_⟩
          rw [hface]
          exact hdepth fun hnil => absurd hnil (List.cons_ne_nil _ _)
      | size hann hsending hflight =>
          rw [hqueue] at hflight
          obtain ⟨d, hd, -, -, hnext⟩ := Flight.deliver recv hflight hslot rest
          dsimp only at hstep
          rw [hd] at hstep
          cases hstep
          exact ⟨h.running, h.fits, h.typed, .size hann hsending hnext⟩

/-- **A call of the client**, if a depth that it sets is in its place. -/
theorem call (h : DepthInv s) {step : DepthStep} (hidle : s.sending = [])
    (hok : SizeInPlace s step) (hstep : s.call step = some s') : DepthInv s' := by
  cases step with
  | pack a =>
      obtain ⟨c, hc, rfl⟩ := Option.map_eq_some_iff.mp hstep
      exact h.pack hidle hc
  | announce =>
      cases hstep
      have hface : (sosAnnounce s.client.pub).2.guid = s.client.pub.guid ∧
          (sosAnnounce s.client.pub).2.face = s.client.pub.face := by
        unfold sosAnnounce
        split <;> exact ⟨rfl, rfl⟩
      have hsent := h.announceFirst [] hidle h.typed.announce hface
        (fun _ hm => absurd hm List.not_mem_nil) fun _ _ => trivial
      rw [List.append_nil] at hsent
      cases hann : (sosAnnounce s.client.pub).1 with
      | none =>
          rw [hann] at hsent
          exact hsent
      | some m =>
          rw [hann] at hsent
          exact hsent
  | publish send clock =>
      obtain ⟨⟨out, c⟩, hout, hends⟩ := Option.bind_eq_some_iff.mp hstep
      obtain ⟨-, heq⟩ := Option.ite_none_right_eq_some.mp hends
      cases heq
      have hby := sosPublish_publishedBy h.typed.counted hout
      obtain ⟨rest, hsent, hrest, htaken⟩ := DepthLink.published_eq h.typed hby
      have hface : c.pub.guid = s.client.pub.guid ∧ c.pub.face = s.client.pub.face := by
        have hann : (sosAnnounce s.client.pub).2.guid = s.client.pub.guid ∧
            (sosAnnounce s.client.pub).2.face = s.client.pub.face := by
          unfold sosAnnounce
          split <;> exact ⟨rfl, rfl⟩
        have hsent : ((sosAnnounce s.client.pub).2.afterPublish send).face =
            (sosAnnounce s.client.pub).2.face := by
          have htype : ∀ data : SosData, (data.sent send).type = data.type := by
            intro data
            unfold SosData.sent
            split <;> rfl
          refine congrArg (Face.mk · _) ?_
          rw [SosPub.afterPublish, List.map_map]
          exact List.map_congr_left fun data _ => htype data
        rw [hby.locked.pub]
        exact ⟨hann.1, hsent.trans hann.2⟩
      dsimp only
      rw [hsent]
      exact h.announceFirst rest hidle (h.typed.publish hby) hface hrest htaken
  | config depth =>
      cases hstep
      exact h.config hidle hok
  | receive => cases hstep
  | sync recv => cases hstep

/-- **Every step** keeps the invariant, if each new depth is in its place. -/
theorem step (s : DepthLink) (step : DepthStep) (s' : DepthLink) (h : DepthInv s)
    (hok : SizeInPlace s step) (hstep : depthStep s step = some s') : DepthInv s' := by
  unfold depthStep at hstep
  rw [if_neg (by rw [h.running]; decide)] at hstep
  cases step with
  | receive => exact h.receive hok hstep
  | sync recv => exact h.sync hok hstep
  | pack a =>
      obtain ⟨hidle, heq⟩ := Option.ite_none_right_eq_some.mp hstep
      exact h.call hidle hok heq
  | announce =>
      obtain ⟨hidle, heq⟩ := Option.ite_none_right_eq_some.mp hstep
      exact h.call hidle hok heq
  | publish send clock =>
      obtain ⟨hidle, heq⟩ := Option.ite_none_right_eq_some.mp hstep
      exact h.call hidle hok heq
  | config depth =>
      obtain ⟨hidle, heq⟩ := Option.ite_none_right_eq_some.mp hstep
      exact h.call hidle hok heq

/-- **What the invariant says of the depth.** -/
theorem inForce (h : DepthInv s) : s.InForce := by
  refine ⟨h.running, fun hidle hqueue hann => ?_, fun hidle hqueue pub hpub => ?_⟩
  · exact ((h.idle hidle).1.types hann).1 hqueue
  · have hdepth := (h.idle hidle).2 fun _ => by
      rw [Option.mem_def.mp hpub]
      exact Option.some_ne_none pub
    rw [hqueue, DepthLink.face, Daemon.pubFor, Option.mem_def.mp hpub] at hdepth
    exact hdepth

end DepthInv

end DepthLink

/-- **The depth that a client sets is the one in force** in every state of a run in
which every new depth is in its place. -/
theorem cache_depth_in_force {config config' : SosConfig} {guid : SosGuid} {title : CString}
    {nature : CInt} {newSize : ℕ} {queue : Option (SosPipe SosValSnap)} {steps : List DepthStep}
    {s : DepthLink} (hdepth : config.pubCacheDepth ≤ intMax)
    (hok : Along depthStep SizeInPlace (.start config guid title nature newSize config' queue) steps)
    (hrun : run depthStep (.start config guid title nature newSize config' queue) steps = some s) :
    s.InForce :=
  (run_invariant DepthLink.DepthInv.step (DepthLink.DepthInv.start hdepth ..) hok hrun).inForce

instance (s : DepthLink) (step : DepthStep) : Decidable (SizeInPlace s step) := by
  cases step with
  | config depth =>
      have : Decidable (s.daemon.pubTable s.client.pub.guid = none) :=
        decidable_of_iff (s.daemon.pubTable s.client.pub.guid).isNone Option.isNone_iff_eq_none
      have : Decidable (s.localQueue = []) :=
        decidable_of_iff s.localQueue.isEmpty List.isEmpty_iff
      unfold SizeInPlace
      infer_instance
  | receive =>
      unfold SizeInPlace
      dsimp only
      split <;> infer_instance
  | sync recv =>
      unfold SizeInPlace
      dsimp only
      split <;> infer_instance
  | _ => exact isTrue trivial

/-- A cache of one list that holds one, and then grows, with a second ANNOUNCE behind it. -/
def growingSteps : List DepthStep :=
  [.config 1, .pack ⟨.empty, .int 1, 0, 9, 0⟩, .publish 0 fun _ => 0, .receive, .receive, .receive,
    .sync fun _ => 0, .sync fun _ => 0, .sync fun _ => 0, .config 2, .receive,
    .pack ⟨nameX, .int 2, 0, 10, 0⟩, .publish 0 fun _ => 0, .receive, .receive, .receive,
    .sync fun _ => 0, .sync fun _ => 0, .sync fun _ => 0]

theorem cache_depth_in_force_grown :
    ∃ s, run depthStep (.start plainConfig 5 .empty 0 2 plainConfig none) growingSteps = some s ∧
      s.InForce ∧ (s.daemon.pubTable 5).map (fun pub => (pub.cacheDepth, pub.data.length)) =
        some (2, 2) := by
  have hrun : ((run depthStep (.start plainConfig 5 .empty 0 2 plainConfig none) growingSteps).map
      fun s => (s.daemon.pubTable 5).map fun pub => (pub.cacheDepth, pub.data.length)) =
      some (some (2, 2)) := by decide +kernel
  obtain ⟨s, hs, hpub⟩ := Option.map_eq_some_iff.mp hrun
  exact ⟨s, hs, cache_depth_in_force (by decide) (by decide +kernel) hs, hpub⟩

/-- The listen loop receives a CACHE_SIZE while the ANNOUNCE is in the queue. -/
def overtakingSteps : List DepthStep :=
  [.announce, .receive, .config 3, .receive, .sync fun _ => 0]

/-- A new depth is set while the pub waits for its second ANNOUNCE. -/
def waitingSteps : List DepthStep :=
  [.announce, .receive, .sync fun _ => 0, .pack ⟨.empty, .int 1, 0, 9, 0⟩, .config 3]

/-- A cache grows that has no list yet. -/
def emptyGrowthSteps : List DepthStep :=
  [.config 1, .announce, .receive, .sync fun _ => 0, .config 2, .receive]

/-- **A new depth out of its place**: the depth that was announced stays, and where there is
no list to read, the daemon stops. -/
theorem not_cache_depth_in_force :
    (∀ steps ∈ [overtakingSteps, waitingSteps],
      ∃ s, run depthStep (.start plainConfig 5 .empty 0 2 plainConfig none) steps = some s ∧
        ¬ s.InForce) ∧
      ∃ s, run depthStep (.start plainConfig 5 .empty 0 2 plainConfig none) emptyGrowthSteps = some s ∧
        ¬ s.InForce := by
  refine ⟨fun steps hsteps => ?_, ?_⟩
  · have hrun : ((run depthStep (.start plainConfig 5 .empty 0 2 plainConfig none) steps).map
        fun s => (s.sending.length, s.localQueue.length, s.client.pub.cacheDepth,
          (s.daemon.pubTable s.client.pub.guid).map (·.cacheDepth))) = some (0, 0, 3, some 0) := by
      simp only [List.mem_cons, List.not_mem_nil, or_false] at hsteps
      rcases hsteps with rfl | rfl <;> decide +kernel
    obtain ⟨s, hs, hstate⟩ := Option.map_eq_some_iff.mp hrun
    simp only [Prod.mk.injEq] at hstate
    obtain ⟨hsending, hqueue, hclient, hdaemon⟩ := hstate
    obtain ⟨pub, hpub, hdepth⟩ := Option.map_eq_some_iff.mp hdaemon
    refine ⟨s, hs, fun h => ?_⟩
    have hsame := h.depth (List.eq_nil_of_length_eq_zero hsending)
      (List.eq_nil_of_length_eq_zero hqueue) pub hpub
    rw [hdepth, hclient] at hsame
    exact absurd hsame (by decide)
  · have hrun : ((run depthStep (.start plainConfig 5 .empty 0 2 plainConfig none)
        emptyGrowthSteps).map (·.stopped)) = some true := by decide +kernel
    obtain ⟨s, hs, hstopped⟩ := Option.map_eq_some_iff.mp hrun
    exact ⟨s, hs, fun h => absurd (hstopped.symm.trans h.running) (by decide)⟩

end SosFlow
