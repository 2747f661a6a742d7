import SosFlow.Pub.Publish
import Mathlib.Data.Nat.Digits.Defs

/-!
# What the daemon does with a pub's messages

The daemon keeps a pub of its own for every guid it hears of. An ANNOUNCE
makes it or overwrites its definition, a PUBLISH stores values into its
elements, a VAL_SNAPS goes into its cache and the queue for the database, a
CACHE_SIZE replaces its cache. The daemon also has pubs that it packs into
itself, its monitors, which are in no table.

A message is what its handler reads. A value is read by the type of the
element it is for, which is the one it was sent with as long as both sides
have the element's type; a PUBLISH or a snapshot with another one is not
followed any further. Doubles are taken as they are, and a number for the
guid that `SOS_pub_init` draws and the handler overwrites is not drawn.
-/

namespace SosFlow

open Outcome

/-! ## Reading the messages of a pub -/

namespace SosPub

/-- `pub->elem_max`. -/
def elemMax (pub : SosPub) : ℕ := pub.data.length + pub.spare.length

/-- The loop that grows a pub for `count` elements, in at most `rounds`. -/
def growTo (count : ℕ) : ℕ → SosPub → SosPub
  | 0, pub => pub
  | rounds + 1, pub =>
    if pub.elemMax < count then growTo count rounds (sosExpandData pub) else pub

/-- `pub->elem_count = count`, among the elements that are allocated. -/
def setCount (pub : SosPub) (count : ℕ) : SosPub :=
  { pub with
    data := (pub.data ++ pub.spare).take count
    spare := (pub.data ++ pub.spare).drop count }

/-- `*pub->data[pos] = data`, also behind the first `elem_count`. -/
def putElem (pub : SosPub) (pos : ℕ) (data : SosData) : SosPub :=
  { pub with
    data := pub.data.set pos data
    spare := if pos < pub.data.length then pub.spare else pub.spare.set (pos - pub.data.length) data }

end SosPub

namespace SosData

/-- The definition that is read is another one than the element has. -/
def Redefined (data : SosData) (e : AnnounceElem) : Prop :=
  data.guid ≠ e.guid ∨ data.type ≠ e.type ∨ data.valMeta ≠ e.valMeta

instance (data : SosData) (e : AnnounceElem) : Decidable (data.Redefined e) := by
  unfold Redefined
  infer_instance

/-- An element behind an ANNOUNCE. -/
def define (data : SosData) (e : AnnounceElem) : SosData :=
  if data.Redefined e then
    { data with
      name := e.name.take (sosDefaultStringLen - 1)
      guid := e.guid
      type := e.type
      valMeta := e.valMeta
      sync := .renew }
  else data

/-- An element behind a PUBLISH. The semantic is read as a `long`, over the
classifier that follows it. -/
def receive (data : SosData) (e : PublishElem) (val : SosVal) : SosData :=
  { data with
    time := { data.time with pack := e.pack, send := e.send }
    valLen := e.valLen
    valMeta := { data.valMeta with
      semantic := e.semantic
      classifier := (e.semantic.signExtend 64).extractLsb' 32 32
      relationId := e.relationId }
    val := val
    state := .clean }

end SosData

/-- The names `SOS_announce_from_buffer` puts into the table: those of the
elements that are redefined. -/
def definedNames (data : List SosData) (elems : List AnnounceElem) : List (CString × ℕ) :=
  ((data.zip elems).zipIdx 0).filterMap fun p =>
    if p.1.1.Redefined p.1.2 then some (p.1.2.name.take (sosDefaultStringLen - 1), p.2) else none

/-- The pub with room for the elements of an ANNOUNCE. -/
def SosPub.resized (pub : SosPub) (count : ℕ) : SosPub :=
  (SosPub.growTo count count pub).setCount count

/-- **`SOS_announce_from_buffer`.** The strings of the pub are read over what
was there, without a terminator. -/
def sosAnnounceFromBuffer (pub : SosPub) (m : AnnounceMsg) : SosPub :=
  { (pub.resized m.elems.length).announceCache m.cacheDepth.toInt with
    guid := m.refGuid
    nodeId := m.nodeId.copiedOver pub.nodeId
    processId := m.processId
    threadId := m.threadId
    commRank := m.commRank
    progName := m.progName.copiedOver pub.progName
    progVer := m.progVer.copiedOver pub.progVer
    pragmaLen := m.pragmaLen
    pragmaMsg := m.pragmaMsg.copiedOver pub.pragmaMsg
    title := m.title.copiedOver pub.title
    pubMeta := m.pubMeta
    data := List.zipWith SosData.define (pub.resized m.elems.length).data m.elems
    nameTable := pub.nameTable ++ definedNames (pub.resized m.elems.length).data m.elems }

/-- The value of an element behind a PUBLISH. A block is not read. -/
def readVal (data : SosData) (val : SosVal) : Option SosVal :=
  if data.type = .bytes then some data.val
  else if val.type = data.type then some val
  else none

/-- One element of a PUBLISH, if there is memory for it. -/
def receiveElem (pub : SosPub) (e : PublishElem) : Option SosPub := do
  let data ← pub.elemAt e.elem
  let val ← readVal data e.val
  some (pub.putElem e.elem (data.receive e val))

/-- The elements of a PUBLISH, one after the other. -/
def receiveElems (pub : SosPub) : List PublishElem → Option SosPub
  | [] => some pub
  | e :: rest => (receiveElem pub e).bind fun pub' => receiveElems pub' rest

/-- **`SOS_publish_from_buffer`.** -/
def sosPublishFromBuffer (pub : SosPub) (m : PublishMsg) : Option SosPub :=
  receiveElems { pub with frame := m.frame } m.elems

/-- `pipe_push` of several items. -/
def SosPipe.pushAll {α : Type*} (q : SosPipe α) (xs : List α) : SosPipe α :=
  ⟨q.items ++ xs, q.elemCount + xs.length⟩

/-- Pushing keeps the count right. -/
theorem SosPipe.Counted.pushAll {α : Type*} {q : SosPipe α} (h : q.Counted) (xs : List α) :
    (q.pushAll xs).Counted := by
  unfold SosPipe.Counted SosPipe.pushAll at *
  simp only [List.length_append, h]
  omega

/-- A snapshot as it is read for a pub. -/
def SosValSnap.taggedFor (snap : SosValSnap) (pub : SosPub) : SosValSnap :=
  { snap with pubGuid := pub.guid }

/-- The copies for the cache, each with the time it was received. -/
def receivedCopies (clock : ℕ → Double) (snaps : List SosValSnap) : List SosValSnap :=
  (snaps.zipIdx 0).map fun p => { p.1 with time := { p.1.time with recv := clock p.2 } }

/-- The copies go into the cache of a pub that keeps one. -/
def cacheReceived (pub : SosPub) (copies : List SosValSnap) : Except CacheFault SosPub :=
  if 0 < pub.cacheDepth ∧ pub.pubMeta.nature ≠ natureSos then
    sosPackSnapListIntoPubCache pub copies
  else .ok pub

/-- **`SOS_val_snap_queue_from_buffer`**, with the snapshots it reads. -/
def sosValSnapQueueFromBuffer (pub : SosPub) (queue : Option (SosPipe SosValSnap))
    (snaps : List SosValSnap) (clock : ℕ → Double) :
    Except CacheFault (SosPub × Option (SosPipe SosValSnap)) :=
  if snaps = [] then .ok (pub, queue)
  else do
    let tagged := snaps.map (·.taggedFor pub)
    let pub' ← cacheReceived pub (receivedCopies clock tagged)
    .ok (pub', queue.map (·.pushAll tagged))

/-- The snapshots of a VAL_SNAPS as they are read, each by its own type. -/
def readSnaps : List (SosValSnap × SosVal) → Option (List SosValSnap)
  | [] => some []
  | p :: rest =>
    if p.2.type = p.1.type then (readSnaps rest).map ({ p.1 with val := p.2 } :: ·) else none

/-! ## The handlers -/

/-- **The daemon's pubs**: those it hears of, with the order of the scan for a
query, its monitors, and the queue for the database, if there is one. -/
structure Daemon where
  config : SosConfig
  pubTable : SosGuid → Option SosPub
  pubList : List SosGuid
  monitors : List SosPub
  snapQueue : Option (SosPipe SosValSnap)

/-- No digit is a terminator. -/
theorem digit_ne_zero {n : ℕ} : ∀ x ∈ (Nat.digits 10 n).reverse.map fun d => BitVec.ofNat 8 (48 + d),
    x ≠ 0 := by
  intro x hx hzero
  obtain ⟨d, hd, rfl⟩ := List.mem_map.mp hx
  have hlt : d < 10 := Nat.digits_lt_base (by decide) (List.mem_reverse.mp hd)
  have hmod := congrArg BitVec.toNat hzero
  rw [BitVec.toNat_ofNat] at hmod
  change (48 + d) % 256 = 0 at hmod
  omega

/-- `"%" SOS_GUID_FMT`. -/
def guidStr (g : SosGuid) : CString where
  bytes := if g = 0 then [48] else
    (Nat.digits 10 g.toNat).reverse.map fun d => BitVec.ofNat 8 (48 + d)
  nonzero := by
    intro x hx
    split at hx
    case isTrue =>
      rw [List.mem_singleton.mp hx]
      decide
    case isFalse => exact digit_ne_zero x hx

namespace Daemon

/-- A daemon that has just started. -/
def start (config : SosConfig) (queue : Option (SosPipe SosValSnap)) : Daemon :=
  ⟨config, fun _ => none, [], [], queue⟩

variable (d : Daemon)

/-- The queue, which a daemon with a database always has. -/
def queue : SosPipe SosValSnap := d.snapQueue.getD .empty

/-- The snapshots a VAL_SNAPS pushes. -/
def pushes (g : SosGuid) (snaps : List SosValSnap) : List SosValSnap :=
  match d.pubTable g with
  | none => []
  | some pub => snaps.map (·.taggedFor pub)

/-- `SOSD.pub_table->put`. -/
def putPub (g : SosGuid) (pub : SosPub) : Daemon :=
  { d with pubTable := fun g' => if g' = g then some pub else d.pubTable g' }

/-- The pub a handler makes for a guid it does not know. -/
def newPub (g : SosGuid) : SosPub := sosPubInit d.config g (guidStr g) 0

/-- The pub a message is for, as the handlers of ANNOUNCE and PUBLISH find or
make it. -/
def pubFor (g : SosGuid) : SosPub := (d.pubTable g).getD (d.newPub g)

/-- **`SOSD_handle_announce`.** -/
def handleAnnounce (m : AnnounceMsg) : Daemon :=
  { d.putPub m.refGuid { sosAnnounceFromBuffer (d.pubFor m.refGuid) m with announced := true } with
    pubList := if d.pubTable m.refGuid = none then m.refGuid :: d.pubList else d.pubList }

/-- **`SOSD_handle_publish`.** -/
def handlePublish (m : PublishMsg) : Option Daemon :=
  (sosPublishFromBuffer (d.pubFor m.refGuid) m).map (d.putPub m.refGuid)

/-- **`SOSD_handle_val_snaps`**, which ignores a guid it does not know. -/
def handleValSnaps (g : SosGuid) (snaps : List SosValSnap) (clock : ℕ → Double) :
    Except CacheFault Daemon :=
  match d.pubTable g with
  | none => .ok d
  | some pub => do
    let r ← sosValSnapQueueFromBuffer pub d.snapQueue snaps clock
    .ok { d.putPub g r.1 with snapQueue := r.2 }

/-- **`SOSD_handle_cache_size`.** -/
def handleCacheSize (g : SosGuid) (toSize : CInt) : Except CacheFault Daemon :=
  match d.pubTable g with
  | none => .ok d
  | some pub => do
    let pub' ← sosdResizeCache pub toSize
    .ok (d.putPub g pub')

/-- `SOSD_setup_system_monitor_pub` and `SOSD_add_pid_to_track`: one monitor
more. -/
def addMonitor (g : SosGuid) (title : CString) : Daemon :=
  { d with monitors := d.monitors ++ [sosPubInit d.config g title natureDaemonInternal] }

/-- `SOS_pack` into the monitor at a position, if there is one, whose queue is
that of the database. -/
def packMonitor (i : ℕ) (a : PackArgs) : Except PackFault Daemon :=
  match d.monitors[i]? with
  | none => .ok d
  | some pub => do
    let r ← sosPackRelated .daemon pub d.snapQueue a
    .ok { d with monitors := d.monitors.set i r.1, snapQueue := r.2 }

/-- The walk of a query through the pubs of its scan. -/
def grabAll (frameHead depthLimit : ℤ) (rounds : ℕ) :
    List SosPub → Except CacheFault (List CacheSlot)
  | [] => .ok []
  | pub :: rest => do
    let found ← sosaCacheToResults pub frameHead depthLimit rounds
    let others ← grabAll frameHead depthLimit rounds rest
    .ok (found ++ others)

/-- **`SOSD_handle_cache_grab`**: the lists it finds in the pubs whose title
matches. -/
def handleCacheGrab (pubFilter : CString) (frameHead depthLimit : CInt) (rounds : ℕ) :
    Except CacheFault (List CacheSlot) :=
  grabAll frameHead.toInt depthLimit.toInt rounds
    (matchingPubs pubFilter (d.pubList.filterMap d.pubTable))

@[simp] theorem pubTable_putPub (g g' : SosGuid) (pub : SosPub) :
    (d.putPub g pub).pubTable g' = if g' = g then some pub else d.pubTable g' := rfl

end Daemon

end SosFlow
