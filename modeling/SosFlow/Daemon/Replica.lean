import SosFlow.Daemon.CacheDepth
import SosFlow.Lib.Replay

/-!
# The aggregator's copy of a listener's pubs

A listener applies the messages of its clients in `local_sync` and puts each
into the queue of `cloud_send`, which sends it to the aggregator. There it
goes through the aggregator's own `local_sync`. Both daemons run the same
handlers, so the aggregator lags behind its listener by the messages that are
on their way, as far as the handlers depend on the messages alone.

They do not where a pub is made: it starts from the daemon's own
configuration, and the first ANNOUNCE copies the names of the node and of the
program over those of the configuration, without a terminator. And two kinds
of messages do not get there. A VAL_SNAPS of a pub that the listener does not
know is destroyed before it is put into the queue. A CACHE_SIZE is applied in
the listen loop and sent from there, with a length of -1, which is how much
the aggregator copies.

A message is what the handlers read of its bytes, which the listener passes on
as they came. The threads of the databases, which only mark what they have
inserted, are left out.
-/

namespace SosFlow

open Outcome Trace Replication

/-! ## The system -/

namespace Daemon

/-- The buffer `local_sync` puts into the queue of `cloud_send` behind the handler,
unless that has destroyed it. -/
def forwards (d : Daemon) (m : PubMessage) : Option PubMessage :=
  match m with
  | .valSnaps v => if d.pubTable v.refGuid = none then none else some m
  | _ => some m

end Daemon

/-- **A listener and its aggregator.** `link` is what was sent and not yet received.
In the queue of `cloud_send`, `none` is a buffer that was destroyed. -/
structure Replicas where
  listener : Daemon
  localQueue : List PubMessage
  cloudQueue : List (Option PubMessage)
  link : List ClientMessage
  remoteQueue : List PubMessage
  aggregator : Daemon
  broken : Bool

/-- What happens next: the listen loop accepts a message, or one of the threads
takes the next one from its queue. -/
inductive ReplicaStep where
  | accept (m : PubMessage)
  | cacheSize (g : SosGuid) (toSize : CInt)
  | localSync (recv : ℕ → Double)
  | cloudSend
  | cloudRecv
  | remoteSync (recv : ℕ → Double)

namespace Replicas

/-- **`SOSD_handle_cache_size`** of the listener, which sends the message on if it
knows the pub. -/
def cacheSize (s : Replicas) (g : SosGuid) (toSize : CInt) : Option Replicas :=
  match s.listener.handleCacheSize g toSize with
  | .error _ => some { s with broken := true }
  | .ok d => some { s with
      listener := d
      link := if s.listener.pubTable g = none then s.link else s.link ++ [.cacheSize g toSize] }

/-- **`SOSD_THREAD_local_sync`** of the listener. -/
def localSync (s : Replicas) (recv : ℕ → Double) : Option Replicas :=
  match s.localQueue with
  | [] => none
  | m :: rest =>
    match s.listener.deliver recv m with
    | some d => some { s with
        listener := d
        localQueue := rest
        cloudQueue := s.cloudQueue ++ [s.listener.forwards m] }
    | none => some { s with localQueue := rest, broken := true }

/-- **`SOSD_THREAD_cloud_send`**, with one message. -/
def cloudSend (s : Replicas) : Option Replicas :=
  match s.cloudQueue with
  | [] => none
  | some m :: rest => some { s with cloudQueue := rest, link := s.link ++ [.pub m] }
  | none :: rest => some { s with cloudQueue := rest, broken := true }

/-- **`SOSD_cloud_process_buffer`** of the aggregator. The copy of a CACHE_SIZE is
as long as the largest `size_t`. -/
def cloudRecv (s : Replicas) : Option Replicas :=
  match s.link with
  | [] => none
  | .pub m :: rest => some { s with link := rest, remoteQueue := s.remoteQueue ++ [m] }
  | .cacheSize _ _ :: rest => some { s with link := rest, broken := true }

/-- **`SOSD_THREAD_local_sync`** of the aggregator. -/
def remoteSync (s : Replicas) (recv : ℕ → Double) : Option Replicas :=
  match s.remoteQueue with
  | [] => none
  | m :: rest =>
    match s.aggregator.deliver recv m with
    | some a => some { s with aggregator := a, remoteQueue := rest }
    | none => some { s with remoteQueue := rest, broken := true }

/-- Two daemons that have just started, each with its configuration. -/
def start (config config' : SosConfig) (queue queue' : Option (SosPipe SosValSnap)) : Replicas :=
  ⟨.start config queue, [], [], [], [], .start config' queue', false⟩

end Replicas

/-- **One step**, as long as no daemon has used memory that is not its own. -/
def replicaStep (s : Replicas) (step : ReplicaStep) : Option Replicas :=
  if s.broken then none
  else match step with
    | .accept m => some { s with localQueue := s.localQueue ++ [m] }
    | .cacheSize g toSize => s.cacheSize g toSize
    | .localSync recv => s.localSync recv
    | .cloudSend => s.cloudSend
    | .cloudRecv => s.cloudRecv
    | .remoteSync recv => s.remoteSync recv

/-! ## What a replica has -/

/-- What `SOS_pub_init` takes from a configuration. -/
def SosConfig.defaults (config : SosConfig) : SosConfig :=
  { config with
    nodeId := config.nodeId.take sosDefaultStringLen
    programName := config.programName.take sosDefaultStringLen }

/-- **A message that both daemons apply alike**: its pub is known, or it is an ANNOUNCE
that covers the names of both configurations alike, or a PUBLISH and both make the
same pub. -/
def Daemon.Reproducible (d : Daemon) (config' : SosConfig) (m : PubMessage) : Prop :=
  d.pubTable m.refGuid ≠ none ∨ match m with
    | .announce m =>
      m.nodeId.copiedOver d.config.defaults.nodeId = m.nodeId.copiedOver config'.defaults.nodeId ∧
        m.progName.copiedOver d.config.defaults.programName =
          m.progName.copiedOver config'.defaults.programName
    | .publish _ => d.config.defaults = config'.defaults
    | .valSnaps _ => False

/-- **A step that the aggregator can follow**: no CACHE_SIZE of a pub that is known, and
`local_sync` applies what it can handle and what is reproducible. -/
def Followable (s : Replicas) : ReplicaStep → Prop
  | .cacheSize g _ => s.listener.pubTable g = none
  | .localSync _ => ∀ m ∈ s.localQueue.head?,
      s.listener.Handles m ∧ s.listener.Reproducible s.aggregator.config m
  | _ => True

/-- **What a replica has of a pub**: its metadata, its elements with their values, its
frame and its depth. The snapshots in its cache, how many elements are allocated,
and the marks of the database are a daemon's own. -/
def SosPub.replicated (pub : SosPub) : SosPub :=
  { pub with
    announced := false
    cache := none
    cacheHead := 0
    data := pub.data.map fun data => { data with sync := .default }
    spare := []
    nameTable := [] }

/-- **The replicas converge**: no daemon has used memory that is not its own, the aggregator
can handle what it has received, and once all queues are empty it has what its listener
has. -/
structure Replicas.Converges (s : Replicas) : Prop where
  intact : s.broken = false
  drains : ∀ m ∈ s.remoteQueue.head?, s.aggregator.Handles m
  same : s.localQueue = [] → s.cloudQueue = [] → s.link = [] → s.remoteQueue = [] →
    ∀ g, (s.listener.pubTable g).map SosPub.replicated =
      (s.aggregator.pubTable g).map SosPub.replicated

/-! ## Pubs that differ in times of receipt -/

/-- A snapshot without the time it was received. -/
def SosValSnap.unstamped (snap : SosValSnap) : SosValSnap :=
  { snap with time := { snap.time with recv := 0 } }

/-- A list without these times. -/
def CacheSlot.unstamped (s : CacheSlot) : CacheSlot := ⟨s.snaps.map .unstamped, s.last⟩

namespace SosPub

/-- A pub without them. -/
def unstamped (pub : SosPub) : SosPub := { pub with cache := pub.cache.map (·.map .unstamped) }

variable {p q : SosPub}

/-- **Whatever says nothing of them** is the same. -/
theorem eq_of_unstamped {α : Type} (f : SosPub → α) (hf : ∀ pub, f (unstamped pub) = f pub)
    (h : p.unstamped = q.unstamped) : f p = f q := by
  rw [← hf p, h, hf q]

/-- Room for elements is made by what there is. -/
theorem growTo_congr (count rounds : ℕ) (hdata : q.data = p.data) (hspare : q.spare = p.spare) :
    growTo count rounds q = { q with
      data := (growTo count rounds p).data
      spare := (growTo count rounds p).spare } := by
  induction rounds generalizing p q with
  | zero => rw [growTo, growTo, ← hdata, ← hspare]
  | succ rounds ih =>
      have hmax : q.elemMax = p.elemMax := by rw [elemMax, elemMax, hdata, hspare]
      unfold growTo
      rw [hmax]
      split
      case isTrue =>
        have hdata' : (sosExpandData q).data = (sosExpandData p).data := hdata
        have hspare' : (sosExpandData q).spare = (sosExpandData p).spare := by
          rw [sosExpandData, sosExpandData, hspare]
        exact ih hdata' hspare'
      case isFalse => rw [← hdata, ← hspare]

theorem resized_congr (count : ℕ) (hdata : q.data = p.data) (hspare : q.spare = p.spare) :
    q.resized count = { q with
      data := (p.resized count).data
      spare := (p.resized count).spare } := by
  unfold resized
  rw [growTo_congr count count hdata hspare]
  rfl

end SosPub

/-- **What an ANNOUNCE keeps of a pub**: its elements, its cache, and what the strings it
copies do not cover. -/
structure SosPub.AlikeUnder (m : AnnounceMsg) (p q : SosPub) : Prop where
  announced : p.announced = q.announced
  frame : p.frame = q.frame
  pragmaMsg : m.pragmaMsg.copiedOver p.pragmaMsg = m.pragmaMsg.copiedOver q.pragmaMsg
  nodeId : m.nodeId.copiedOver p.nodeId = m.nodeId.copiedOver q.nodeId
  progName : m.progName.copiedOver p.progName = m.progName.copiedOver q.progName
  progVer : m.progVer.copiedOver p.progVer = m.progVer.copiedOver q.progVer
  title : m.title.copiedOver p.title = m.title.copiedOver q.title
  cache : p.unstamped.cache = q.unstamped.cache
  cacheHead : p.cacheHead = q.cacheHead
  data : p.data = q.data
  spare : p.spare = q.spare
  nameTable : p.nameTable = q.nameTable

/-- A pub that differs in times of receipt keeps the same. -/
theorem SosPub.AlikeUnder.of_unstamped (m : AnnounceMsg) {p q : SosPub}
    (h : p.unstamped = q.unstamped) : p.AlikeUnder m q where
  announced := SosPub.eq_of_unstamped SosPub.announced (fun _ => rfl) h
  frame := SosPub.eq_of_unstamped SosPub.frame (fun _ => rfl) h
  pragmaMsg := SosPub.eq_of_unstamped (m.pragmaMsg.copiedOver ·.pragmaMsg) (fun _ => rfl) h
  nodeId := SosPub.eq_of_unstamped (m.nodeId.copiedOver ·.nodeId) (fun _ => rfl) h
  progName := SosPub.eq_of_unstamped (m.progName.copiedOver ·.progName) (fun _ => rfl) h
  progVer := SosPub.eq_of_unstamped (m.progVer.copiedOver ·.progVer) (fun _ => rfl) h
  title := SosPub.eq_of_unstamped (m.title.copiedOver ·.title) (fun _ => rfl) h
  cache := congrArg SosPub.cache h
  cacheHead := SosPub.eq_of_unstamped SosPub.cacheHead (fun _ => rfl) h
  data := SosPub.eq_of_unstamped SosPub.data (fun _ => rfl) h
  spare := SosPub.eq_of_unstamped SosPub.spare (fun _ => rfl) h
  nameTable := SosPub.eq_of_unstamped SosPub.nameTable (fun _ => rfl) h

/-- **An ANNOUNCE** of pubs that keep the same. -/
theorem unstamped_announce {m : AnnounceMsg} {p q : SosPub} (h : p.AlikeUnder m q) :
    (sosAnnounceFromBuffer p m).unstamped = (sosAnnounceFromBuffer q m).unstamped := by
  have hp := SosPub.resized_congr m.elems.length h.data h.spare
  have hq := SosPub.resized_congr m.elems.length (rfl : q.data = q.data) rfl
  have hcache : (p.cache.or (SosPub.callocSlots m.cacheDepth.toInt)).map (·.map CacheSlot.unstamped) =
      (q.cache.or (SosPub.callocSlots m.cacheDepth.toInt)).map (·.map CacheSlot.unstamped) := by
    have hboth : p.cache.map (·.map CacheSlot.unstamped) = q.cache.map (·.map CacheSlot.unstamped) :=
      h.cache
    rw [Option.map_or, Option.map_or, hboth]
  unfold sosAnnounceFromBuffer SosPub.unstamped SosPub.announceCache
  rw [hp, hq]
  dsimp only
  rw [h.announced, h.frame, h.pragmaMsg, h.nodeId, h.progName, h.progVer, h.title, hcache,
    h.cacheHead, h.nameTable]

/-- **A PUBLISH** uses no cache. -/
theorem unstamped_receiveElems (elems : List PublishElem) {p q p' : SosPub}
    (h : p.unstamped = q.unstamped) (hp : receiveElems p elems = some p') :
    ∃ q', receiveElems q elems = some q' ∧ p'.unstamped = q'.unstamped := by
  induction elems generalizing p q with
  | nil =>
      cases hp
      exact ⟨q, rfl, h⟩
  | cons e rest ih =>
      obtain ⟨p₁, hp₁, hrest⟩ := Option.bind_eq_some_iff.mp hp
      have hdata : p.data = q.data := SosPub.eq_of_unstamped SosPub.data (fun _ => rfl) h
      have hspare : p.spare = q.spare := SosPub.eq_of_unstamped SosPub.spare (fun _ => rfl) h
      have hat : p.elemAt e.elem = q.elemAt e.elem := by
        rw [SosPub.elemAt, SosPub.elemAt, hdata, hspare]
      simp only [receiveElem, Option.bind_eq_bind, Option.bind_eq_some_iff, Option.some.injEq] at hp₁
      obtain ⟨data, hdata', val, hval, rfl⟩ := hp₁
      have hput : ∀ pub : SosPub, (pub.putElem e.elem (data.receive e val)).unstamped =
          pub.unstamped.putElem e.elem (data.receive e val) := fun _ => rfl
      have hq₁ : receiveElem q e = some (q.putElem e.elem (data.receive e val)) := by
        simp only [receiveElem, Option.bind_eq_bind, ← hat, hdata', Option.bind_some, hval]
      obtain ⟨q', hq', hsame⟩ := ih (q := q.putElem e.elem (data.receive e val))
        (by rw [hput, hput, h]) hrest
      exact ⟨q', Option.bind_eq_some_iff.mpr ⟨_, hq₁, hq'⟩, hsame⟩

theorem unstamped_publish {m : PublishMsg} {p q p' : SosPub} (h : p.unstamped = q.unstamped)
    (hp : sosPublishFromBuffer p m = some p') :
    ∃ q', sosPublishFromBuffer q m = some q' ∧ p'.unstamped = q'.unstamped := by
  refine unstamped_receiveElems m.elems ?_ hp
  have hframe := congrArg (fun pub : SosPub => { pub with frame := m.frame }) h
  exact hframe

/-- **The copies** differ in nothing else. -/
theorem unstamped_receivedCopies (clock : ℕ → Double) (snaps : List SosValSnap) :
    (receivedCopies clock snaps).map SosValSnap.unstamped = snaps.map SosValSnap.unstamped := by
  have hfirst : (snaps.zipIdx 0).map Prod.fst = snaps := List.zipIdx_map_fst 0 snaps
  conv_rhs => rw [← hfirst]
  rw [receivedCopies, List.map_map, List.map_map]
  rfl

/-- **Putting a list in front** depends on no time of receipt. -/
theorem unstamped_pack (pub : SosPub) (list : List SosValSnap) :
    (sosPackSnapListIntoPubCache pub list).map SosPub.unstamped =
      sosPackSnapListIntoPubCache pub.unstamped (list.map .unstamped) := by
  have hslot : ∀ pos, (pub.slot pos).map CacheSlot.unstamped = pub.unstamped.slot pos := by
    intro pos
    have hslots : pub.unstamped.slots = pub.slots.map .unstamped := by
      unfold SosPub.slots SosPub.unstamped
      cases pub.cache <;> rfl
    unfold SosPub.slot
    rw [hslots, List.getElem?_map]
    split
    case isTrue => rfl
    case isFalse => cases pub.slots[pos.toNat]? <;> rfl
  have hset : ∀ pos s, (pub.setSlot pos s).unstamped = pub.unstamped.setSlot pos s.unstamped := by
    intro pos s
    unfold SosPub.setSlot SosPub.unstamped
    cases pub.cache with
    | none => rfl
    | some slots => simp only [Option.map_some, List.map_set]
  have hpos : pub.unstamped.insertPos = pub.insertPos := rfl
  unfold sosPackSnapListIntoPubCache
  by_cases hdepth : pub.cacheDepth < 1
  · rw [if_pos hdepth, if_pos (show pub.unstamped.cacheDepth < 1 from hdepth)]
    rfl
  rw [if_neg hdepth, if_neg (show ¬ pub.unstamped.cacheDepth < 1 from hdepth)]
  cases list with
  | nil => rfl
  | cons first rest =>
      by_cases hnature : pub.pubMeta.nature = natureSos
      · simp only [List.map_cons, if_pos hnature]
        rw [if_pos (show pub.unstamped.pubMeta.nature = natureSos from hnature)]
        rfl
      simp only [List.map_cons, if_neg hnature]
      rw [if_neg (show ¬ pub.unstamped.pubMeta.nature = natureSos from hnature), hpos, ← hslot]
      cases pub.slot pub.insertPos with
      | error fault => rfl
      | ok old =>
          change (if old.last = .null then _ else _ : Except CacheFault SosPub).map _ =
            if old.last = .null then _ else _
          by_cases hlast : old.last = .null
          · rw [if_pos hlast, if_pos hlast]
            have hfields := congrArg (fun p : SosPub => { p with
              frame := if pub.frame.toInt < first.frame.toInt then first.frame else pub.frame
              cacheHead := pub.insertPos }) (hset pub.insertPos ⟨first :: rest, .null⟩)
            exact congrArg Except.ok hfields
          · rw [if_neg hlast, if_neg hlast]
            rfl

theorem unstamped_cacheReceived {p q p' : SosPub} {copies copies' : List SosValSnap}
    (h : p.unstamped = q.unstamped)
    (hcopies : copies.map SosValSnap.unstamped = copies'.map SosValSnap.unstamped)
    (hp : cacheReceived p copies = .ok p') :
    ∃ q', cacheReceived q copies' = .ok q' ∧ p'.unstamped = q'.unstamped := by
  have hdepth : p.cacheDepth = q.cacheDepth :=
    SosPub.eq_of_unstamped SosPub.cacheDepth (fun _ => rfl) h
  have hmeta : p.pubMeta = q.pubMeta := SosPub.eq_of_unstamped SosPub.pubMeta (fun _ => rfl) h
  unfold cacheReceived at hp ⊢
  rw [hdepth, hmeta] at hp
  split at hp
  case isTrue hkeeps =>
    have hboth := (unstamped_pack p copies).trans
      ((congrArg₂ sosPackSnapListIntoPubCache h hcopies).trans (unstamped_pack q copies').symm)
    rw [if_pos hkeeps]
    rw [hp] at hboth
    cases hq : sosPackSnapListIntoPubCache q copies' with
    | error fault =>
        rw [hq] at hboth
        cases hboth
    | ok q' =>
        rw [hq] at hboth
        exact ⟨q', rfl, Except.ok.inj hboth⟩
  case isFalse hkeeps =>
    cases hp
    exact ⟨q, if_neg hkeeps, h⟩

/-- **A VAL_SNAPS** that one daemon can put into its cache, the other can. -/
theorem unstamped_valSnaps {p q p' : SosPub} {queue queue₁ : Option (SosPipe SosValSnap)}
    {snaps : List SosValSnap} {clock : ℕ → Double} (h : p.unstamped = q.unstamped)
    (hp : sosValSnapQueueFromBuffer p queue snaps clock = .ok (p', queue₁))
    (queue' : Option (SosPipe SosValSnap)) (clock' : ℕ → Double) :
    ∃ q' queue₂, sosValSnapQueueFromBuffer q queue' snaps clock' = .ok (q', queue₂) ∧
      p'.unstamped = q'.unstamped := by
  unfold sosValSnapQueueFromBuffer at hp ⊢
  split at hp
  case isTrue hnil =>
    cases hp
    exact ⟨q, queue', if_pos hnil, h⟩
  case isFalse hnil =>
    obtain ⟨p₁, hp₁, hout⟩ := bind_eq_ok.mp hp
    cases hout
    have htagged : snaps.map (·.taggedFor p) = snaps.map (·.taggedFor q) :=
      SosPub.eq_of_unstamped (fun pub => snaps.map (·.taggedFor pub)) (fun _ => rfl) h
    have hcopies : (receivedCopies clock (snaps.map (·.taggedFor p))).map SosValSnap.unstamped =
        (receivedCopies clock' (snaps.map (·.taggedFor q))).map SosValSnap.unstamped := by
      rw [unstamped_receivedCopies, unstamped_receivedCopies, htagged]
    obtain ⟨q', hq', hsame⟩ := unstamped_cacheReceived h hcopies hp₁
    rw [if_neg hnil]
    exact ⟨q', _, bind_eq_ok.mpr ⟨q', hq', rfl⟩, hsame⟩

/-! ## Daemons in step -/

namespace Daemon

/-- **The aggregator's pubs are the listener's**, up to times of receipt. -/
def Mirrors (d a : Daemon) : Prop :=
  ∀ g, (d.pubTable g).map SosPub.unstamped = (a.pubTable g).map SosPub.unstamped

variable {d d' a : Daemon}

/-- A pub of the listener, and the aggregator's. -/
theorem Mirrors.known (h : d.Mirrors a) {g : SosGuid} {p : SosPub} (hp : d.pubTable g = some p) :
    ∃ q, a.pubTable g = some q ∧ p.unstamped = q.unstamped := by
  have hg := h g
  rw [hp, Option.map_some] at hg
  obtain ⟨q, hq, hsame⟩ := Option.map_eq_some_iff.mp hg.symm
  exact ⟨q, hq, hsame.symm⟩

/-- One that neither has. -/
theorem Mirrors.unknown (h : d.Mirrors a) {g : SosGuid} (hd : d.pubTable g = none) :
    a.pubTable g = none := by
  have hg := h g
  rw [hd, Option.map_none] at hg
  exact Option.map_eq_none_iff.mp hg.symm

/-- **Storing a pub** in both. -/
theorem Mirrors.putPub (h : d.Mirrors a) {g : SosGuid} {p q : SosPub}
    (hsame : p.unstamped = q.unstamped) : (d.putPub g p).Mirrors (a.putPub g q) := by
  intro g'
  rw [pubTable_putPub, pubTable_putPub]
  split
  case isTrue => rw [Option.map_some, Option.map_some, hsame]
  case isFalse => exact h g'

/-- What `SOS_pub_init` makes depends on the defaults alone. -/
theorem newPub_congr (h : d.config.defaults = a.config.defaults) (g : SosGuid) :
    d.newPub g = a.newPub g := by
  have hnew : ∀ config : SosConfig, sosPubInit config.defaults g (guidStr g) 0 =
      sosPubInit config g (guidStr g) 0 := by
    intro config
    simp only [sosPubInit, sosPubInitSized, SosConfig.defaults, CString.take_take]
  rw [newPub, newPub, ← hnew, h, hnew]

/-- **Both daemons apply a message alike**, if it is reproducible. -/
theorem Mirrors.deliver (h : d.Mirrors a) {m : PubMessage} {recv : ℕ → Double}
    (hok : d.Reproducible a.config m) (hd : d.deliver recv m = some d') (recv' : ℕ → Double) :
    ∃ a', a.deliver recv' m = some a' ∧ d'.Mirrors a' := by
  cases m with
  | announce m =>
      cases hd
      have halike : (d.pubFor m.refGuid).AlikeUnder m (a.pubFor m.refGuid) := by
        cases hp : d.pubTable m.refGuid with
        | some p =>
            obtain ⟨q, hq, hsame⟩ := h.known hp
            rw [pubFor, pubFor, hp, hq]
            exact .of_unstamped m hsame
        | none =>
            obtain ⟨hnode, hprog⟩ := hok.resolve_left (not_not.mpr hp)
            rw [pubFor, pubFor, hp, h.unknown hp]
            exact ⟨rfl, rfl, rfl, hnode, hprog, rfl, rfl, rfl, rfl, rfl, rfl, rfl⟩
      have hsame := congrArg (fun pub : SosPub => { pub with announced := true })
        (unstamped_announce halike)
      exact ⟨_, rfl, h.putPub hsame⟩
  | publish m =>
      obtain ⟨p', hp', rfl⟩ := Option.map_eq_some_iff.mp hd
      have hsame : (d.pubFor m.refGuid).unstamped = (a.pubFor m.refGuid).unstamped := by
        cases hp : d.pubTable m.refGuid with
        | some p =>
            obtain ⟨q, hq, hsame⟩ := h.known hp
            rw [pubFor, pubFor, hp, hq]
            exact hsame
        | none =>
            rw [pubFor, pubFor, hp, h.unknown hp, Option.getD_none, Option.getD_none,
              newPub_congr (hok.resolve_left (not_not.mpr hp))]
      obtain ⟨q', hq', hsame'⟩ := unstamped_publish hsame hp'
      exact ⟨_, Option.map_eq_some_iff.mpr ⟨q', hq', rfl⟩, h.putPub hsame'⟩
  | valSnaps m =>
      obtain ⟨snaps, hsnaps, hhandled⟩ := Option.bind_eq_some_iff.mp hd
      cases hp : d.pubTable m.refGuid with
      | none => exact absurd hp (hok.resolve_right id)
      | some p =>
          obtain ⟨q, hq, hsame⟩ := h.known hp
          have hhandle : ∀ (x : Daemon) (pub : SosPub) clock, x.pubTable m.refGuid = some pub →
              x.handleValSnaps m.refGuid snaps clock =
                sosValSnapQueueFromBuffer pub x.snapQueue snaps clock >>= fun r =>
                  .ok { x.putPub m.refGuid r.1 with snapQueue := r.2 } := by
            intro x pub clock hpub
            rw [handleValSnaps, hpub]
          rw [hhandle d p recv hp] at hhandled
          cases hr : sosValSnapQueueFromBuffer p d.snapQueue snaps recv with
          | error fault =>
              rw [hr] at hhandled
              cases hhandled
          | ok r =>
              obtain ⟨p', queue⟩ := r
              rw [hr] at hhandled
              cases hhandled
              obtain ⟨q', queue', hq', hsame'⟩ := unstamped_valSnaps hsame hr a.snapQueue recv'
              refine ⟨{ a.putPub m.refGuid q' with snapQueue := queue' }, ?_, ?_⟩
              · refine Option.bind_eq_some_iff.mpr ⟨snaps, hsnaps, ?_⟩
                rw [hhandle a q recv' hq, hq']
                rfl
              · exact h.putPub (g := m.refGuid) hsame'

/-- Its handlers leave a daemon its configuration. -/
theorem config_deliver {m : PubMessage} {recv : ℕ → Double} (hd : d.deliver recv m = some d') :
    d'.config = d.config := by
  cases m with
  | announce m =>
      cases hd
      rfl
  | publish m =>
      obtain ⟨p', -, rfl⟩ := Option.map_eq_some_iff.mp hd
      rfl
  | valSnaps m =>
      obtain ⟨snaps, -, hhandled⟩ := Option.bind_eq_some_iff.mp hd
      cases hr : d.handleValSnaps m.refGuid snaps recv with
      | error fault =>
          rw [hr] at hhandled
          cases hhandled
      | ok d₁ =>
          rw [hr] at hhandled
          cases hhandled
          exact (handleValSnaps_eq_ok hr).config

end Daemon

/-! ## The invariant -/

/-- **The listener applies a message** that the aggregator can follow. -/
def Daemon.Applies (config' : SosConfig) (d : Daemon) (m : PubMessage) (d' : Daemon) : Prop :=
  d.Reproducible config' m ∧ ∃ recv, d.deliver recv m = some d'

namespace Replicas

/-- **What holds between any two steps**: the aggregator lags by what it has received,
what is on the link, and what waits to be sent. -/
structure ReplicaInv (config' : SosConfig) (s : Replicas) : Prop where
  intact : s.broken = false
  config : s.aggregator.config = config'
  lags : ∃ sent queued : List PubMessage, s.link = sent.map .pub ∧ s.cloudQueue = queued.map some ∧
    Lags Daemon.Mirrors (Daemon.Applies config') (s.remoteQueue ++ sent ++ queued) s.listener
      s.aggregator

namespace ReplicaInv

variable {config' : SosConfig} {s s' : Replicas}

theorem start (config config' : SosConfig) (queue queue' : Option (SosPipe SosValSnap)) :
    ReplicaInv config' (.start config config' queue queue') where
  intact := rfl
  config := rfl
  lags := ⟨[], [], rfl, rfl, lags_nil.mpr fun _ => rfl⟩

/-- **A CACHE_SIZE** of an unknown pub does nothing. -/
theorem cacheSize (h : ReplicaInv config' s) {g : SosGuid} {toSize : CInt}
    (hunknown : s.listener.pubTable g = none) (hstep : s.cacheSize g toSize = some s') :
    ReplicaInv config' s' := by
  have hsame : s.listener.handleCacheSize g toSize = .ok s.listener := by
    rw [Daemon.handleCacheSize, hunknown]
  rw [Replicas.cacheSize, hsame] at hstep
  dsimp only at hstep
  rw [if_pos hunknown] at hstep
  cases hstep
  exact h

/-- **`local_sync`** of the listener puts what it has applied at the end. -/
theorem localSync (h : ReplicaInv config' s) {recv : ℕ → Double}
    (hok : ∀ m ∈ s.localQueue.head?, s.listener.Handles m ∧ s.listener.Reproducible config' m)
    (hstep : s.localSync recv = some s') : ReplicaInv config' s' := by
  obtain ⟨sent, queued, hlink, hqueue, hlags⟩ := h.lags
  unfold Replicas.localSync at hstep
  cases hlocal : s.localQueue with
  | nil =>
      rw [hlocal] at hstep
      cases hstep
  | cons m rest =>
      rw [hlocal] at hstep hok
      obtain ⟨hhandles, hm⟩ := hok m rfl
      obtain ⟨d, hd⟩ := (Daemon.deliver_isSome_iff recv).mpr hhandles
      dsimp only at hstep
      rw [hd] at hstep
      cases hstep
      have hforwards : s.listener.forwards m = some m := by
        cases m with
        | announce m => rfl
        | publish m => rfl
        | valSnaps m => exact if_neg (hm.resolve_right id)
      refine ⟨h.intact, h.config, sent, queued ++ [m], hlink, ?_, ?_⟩
      · change s.cloudQueue ++ [s.listener.forwards m] = _
        rw [hqueue, hforwards, List.map_append]
        rfl
      · rw [← List.append_assoc]
        exact hlags.lead ⟨hm, recv, hd⟩

/-- **`cloud_send`** takes the oldest of its queue. -/
theorem cloudSend (h : ReplicaInv config' s) (hstep : s.cloudSend = some s') :
    ReplicaInv config' s' := by
  obtain ⟨sent, queued, hlink, hqueue, hlags⟩ := h.lags
  unfold Replicas.cloudSend at hstep
  cases queued with
  | nil =>
      rw [hqueue] at hstep
      cases hstep
  | cons m rest =>
      rw [hqueue] at hstep
      cases hstep
      refine ⟨h.intact, h.config, sent ++ [m], rest, ?_, rfl, ?_⟩
      · change s.link ++ [.pub m] = _
        rw [hlink, List.map_append]
        rfl
      · rw [List.append_assoc, List.append_assoc, List.singleton_append, ← List.append_assoc]
        exact hlags

/-- **The aggregator** receives the oldest on the link. -/
theorem cloudRecv (h : ReplicaInv config' s) (hstep : s.cloudRecv = some s') :
    ReplicaInv config' s' := by
  obtain ⟨sent, queued, hlink, hqueue, hlags⟩ := h.lags
  unfold Replicas.cloudRecv at hstep
  cases sent with
  | nil =>
      rw [hlink] at hstep
      cases hstep
  | cons m rest =>
      rw [hlink] at hstep
      cases hstep
      refine ⟨h.intact, h.config, rest, queued, rfl, hqueue, ?_⟩
      have hlist : s.remoteQueue ++ [m] ++ rest = s.remoteQueue ++ (m :: rest) := by
        rw [List.append_assoc, List.singleton_append]
      rw [hlist]
      exact hlags

/-- **What the aggregator has received it can apply**, and it mirrors the listener
a message later. -/
theorem follow (h : ReplicaInv config' s) {m : PubMessage} {rest : List PubMessage}
    (hremote : s.remoteQueue = m :: rest) (recv : ℕ → Double) :
    ∃ a, s.aggregator.deliver recv m = some a ∧
      ReplicaInv config' { s with aggregator := a, remoteQueue := rest } := by
  obtain ⟨sent, queued, hlink, hqueue, hlags⟩ := h.lags
  rw [hremote] at hlags
  have hsim : ∀ d d' : Daemon, d.Mirrors s.aggregator → d.Applies config' m d' →
      ∃ a, s.aggregator.deliver recv m = some a ∧ d'.Mirrors a := by
    rintro d d' hmirrors ⟨hok, recv', hd⟩
    rw [← h.config] at hok
    exact hmirrors.deliver hok hd recv
  obtain ⟨a, ha, hrest⟩ := hlags.follow hsim
  refine ⟨a, ha, h.intact, ?_, sent, queued, hlink, hqueue, hrest⟩
  exact (Daemon.config_deliver ha).trans h.config

/-- **Every step** keeps the invariant, if the aggregator can follow it. -/
theorem step (s : Replicas) (step : ReplicaStep) (s' : Replicas) (h : ReplicaInv config' s)
    (hok : Followable s step) (hstep : replicaStep s step = some s') : ReplicaInv config' s' := by
  unfold replicaStep at hstep
  rw [if_neg (by rw [h.intact]; decide)] at hstep
  cases step with
  | accept m =>
      cases hstep
      exact ⟨h.intact, h.config, h.lags⟩
  | cacheSize g toSize => exact h.cacheSize hok hstep
  | localSync recv => exact h.localSync (h.config ▸ hok) hstep
  | cloudSend => exact h.cloudSend hstep
  | cloudRecv => exact h.cloudRecv hstep
  | remoteSync recv =>
      change s.remoteSync recv = some s' at hstep
      unfold Replicas.remoteSync at hstep
      cases hremote : s.remoteQueue with
      | nil =>
          rw [hremote] at hstep
          cases hstep
      | cons m rest =>
          rw [hremote] at hstep
          obtain ⟨a, ha, hinv⟩ := h.follow hremote recv
          dsimp only at hstep
          rw [ha] at hstep
          cases hstep
          exact hinv

/-- **What the invariant says of the replicas.** -/
theorem converges (h : ReplicaInv config' s) : s.Converges := by
  refine ⟨h.intact, fun m hm => ?_, fun _ hcloud hlink hremote g => ?_⟩
  · obtain ⟨rest, hremote⟩ : ∃ rest, s.remoteQueue = m :: rest := by
      cases hqueue : s.remoteQueue with
      | nil =>
          rw [hqueue] at hm
          cases hm
      | cons m' rest =>
          rw [hqueue] at hm
          cases hm
          exact ⟨rest, rfl⟩
    obtain ⟨a, ha, -⟩ := h.follow hremote fun _ => 0
    exact (Daemon.deliver_isSome_iff _).mp ⟨a, ha⟩
  · obtain ⟨sent, queued, hsent, hqueued, hlags⟩ := h.lags
    rw [hlink] at hsent
    rw [hcloud] at hqueued
    rw [hremote, List.map_eq_nil_iff.mp hsent.symm, List.map_eq_nil_iff.mp hqueued.symm] at hlags
    have hsame := congrArg (Option.map SosPub.replicated) (lags_nil.mp hlags g)
    rw [Option.map_map, Option.map_map] at hsame
    exact hsame

end ReplicaInv

end Replicas

/-- **The aggregator converges with its listener** in every state of a run whose steps
it can all follow. -/
theorem replicas_converge {config config' : SosConfig} {queue queue' : Option (SosPipe SosValSnap)}
    {steps : List ReplicaStep} {s : Replicas}
    (hok : Along replicaStep Followable (.start config config' queue queue') steps)
    (hrun : run replicaStep (.start config config' queue queue') steps = some s) : s.Converges :=
  (run_invariant Replicas.ReplicaInv.step (Replicas.ReplicaInv.start config config' queue queue') hok
    hrun).converges

instance (d : Daemon) (config' : SosConfig) (m : PubMessage) :
    Decidable (d.Reproducible config' m) :=
  have : Decidable (d.pubTable m.refGuid ≠ none) :=
    decidable_of_iff ((d.pubTable m.refGuid).isSome = true) Option.isSome_iff_ne_none
  match m with
  | .announce _ => inferInstanceAs (Decidable (_ ∨ _ ∧ _))
  | .publish _ => inferInstanceAs (Decidable (_ ∨ d.config.defaults = config'.defaults))
  | .valSnaps _ => inferInstanceAs (Decidable (_ ∨ False))

instance (s : Replicas) (step : ReplicaStep) : Decidable (Followable s step) := by
  cases step <;> unfold Followable <;> infer_instance

/-- An ANNOUNCE, all the way to the aggregator. -/
def announcedSteps (m : AnnounceMsg) : List ReplicaStep :=
  [.accept (.announce m), .localSync fun _ => 0, .cloudSend, .cloudRecv, .remoteSync fun _ => 1]

/-- A pub that caches two lists, and a snapshot of it. -/
def snapSteps : List ReplicaStep :=
  announcedSteps (announceDepth 5 2) ++ [.accept (.valSnaps ⟨5, [(default, default)]⟩),
    .localSync fun _ => 0, .cacheSize 6 3, .cloudSend, .cloudRecv, .remoteSync fun _ => 1]

theorem replicas_converge_snap :
    ∃ s, run replicaStep (.start plainConfig plainConfig none none) snapSteps = some s ∧
      s.Converges ∧ s.link.length + s.remoteQueue.length = 0 := by
  have hrun : ((run replicaStep (.start plainConfig plainConfig none none) snapSteps).map fun s =>
      s.link.length + s.remoteQueue.length) = some 0 := by decide +kernel
  obtain ⟨s, hs, hempty⟩ := Option.map_eq_some_iff.mp hrun
  exact ⟨s, hs, replicas_converge (by decide +kernel) hs, hempty⟩

/-- A listener whose configuration names its node. -/
def namedConfig : SosConfig := { plainConfig with nodeId := nameX }

/-- **A CACHE_SIZE does not get there**, and neither does the name of a node that is shorter
than the aggregator's. -/
theorem not_replicas_converge :
    (¬ ∀ steps s, run replicaStep (.start plainConfig plainConfig none none) steps = some s →
      s.Converges) ∧
    ¬ ∀ steps s, run replicaStep (.start plainConfig namedConfig none none) steps = some s →
      s.Converges := by
  refine ⟨fun hall => ?_, fun hall => ?_⟩
  · have hrun : ((run replicaStep (.start plainConfig plainConfig none none)
        (announcedSteps (announceDepth 5 2) ++ [.cacheSize 5 1, .cloudRecv])).map (·.broken)) =
        some true := by decide +kernel
    obtain ⟨s, hs, hbroken⟩ := Option.map_eq_some_iff.mp hrun
    have hintact := (hall _ s hs).intact
    exact absurd (hbroken.symm.trans hintact) (by decide)
  · have hrun : ((run replicaStep (.start plainConfig namedConfig none none)
        (announcedSteps (announceDepth 5 2))).map fun s =>
          (s.localQueue.length + s.cloudQueue.length, s.link.length + s.remoteQueue.length,
            (s.listener.pubTable 5).map (·.nodeId.length),
            (s.aggregator.pubTable 5).map (·.nodeId.length))) = some (0, 0, some 0, some 1) := by
      decide +kernel
    obtain ⟨s, hs, hstate⟩ := Option.map_eq_some_iff.mp hrun
    simp only [Prod.mk.injEq, Nat.add_eq_zero_iff, List.length_eq_zero_iff] at hstate
    obtain ⟨⟨hlocal, hcloud⟩, ⟨hlink, hremote⟩, hlistener, haggregator⟩ := hstate
    have hsame := congrArg (Option.map fun pub : SosPub => pub.nodeId.length)
      ((hall _ s hs).same hlocal hcloud hlink hremote 5)
    rw [Option.map_map, Option.map_map] at hsame
    have hboth : some 0 = some 1 := hlistener.symm.trans (hsame.trans haggregator)
    exact absurd hboth (by decide)

end SosFlow
