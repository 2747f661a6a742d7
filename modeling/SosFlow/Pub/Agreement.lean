import SosFlow.Pub.Publish
import SosFlow.Lib.Trace
import SosFlow.Lib.Lockstep
import Mathlib.Data.List.Nodup

/-!
# The two views a publish sends

`SOS_pack` records a value as the newest of its element and as a snapshot in
the queue, and `SOS_publish` sends both records in one go. What they are
records of is the history of the calls: which names were packed, and what
was packed since the last publish. `History` is that history, `Tracks` says
that a pub records it twice, and every call keeps the two in step.
-/

namespace SosFlow

/-! ## The history of a pub -/

/-- A call on a client's pub. -/
inductive ClientCall where
  | pack (a : PackArgs)
  | publish (send : Double) (clock : ℕ → Double)

/-- **What was called**: the first pack of every name, in order, the packs
since the last publish, and the number of publishes. -/
structure History where
  firsts : List PackArgs
  since : List PackArgs
  frames : ℕ

namespace History

/-- Before any call. -/
def start : History := ⟨[], [], 0⟩

/-- Where a name stands among those that were packed. -/
def pos (h : History) (name : CString) : Option ℕ := h.firsts.findIdx? (·.name = name)

/-- A pack of a name that may be new. -/
def know (h : History) (a : PackArgs) : History :=
  if h.pos a.name = none then { h with firsts := h.firsts ++ [a] } else h

/-- One more pack since the last publish. -/
def record (h : History) (a : PackArgs) : History := { h with since := h.since ++ [a] }

/-- One call more. -/
def call (h : History) : ClientCall → History
  | .pack a => (h.know a).record a
  | .publish _ _ => { h with since := [], frames := h.frames + 1 }

/-- **The history of a list of calls.** -/
def ofCalls (calls : List ClientCall) : History := calls.foldl call start

/-- The value packed last under a name since the last publish. -/
def latest (h : History) (name : CString) : Option SosVal :=
  (h.since.reverse.find? (·.name = name)).map (·.val)

/-- **The elements that changed**, each under its position with its newest
value. -/
def changed (h : History) : List (ℕ × SosVal) :=
  (h.firsts.zipIdx 0).filterMap fun p => (h.latest p.1.name).map fun v => (p.2, v)

theorem latest_record (h : History) (a : PackArgs) (name : CString) :
    (h.record a).latest name = if a.name = name then some a.val else h.latest name := by
  unfold latest record
  rw [List.reverse_append, List.reverse_singleton, List.singleton_append, List.find?_cons]
  split
  case h_1 heq => rw [if_pos (of_decide_eq_true heq), Option.map_some]
  case h_2 heq => rw [if_neg (of_decide_eq_false heq)]

theorem latest_eq_none {h : History} {name : CString} (hnone : ∀ a ∈ h.since, a.name ≠ name) :
    h.latest name = none := by
  unfold latest
  rw [Option.map_eq_none_iff, List.find?_eq_none]
  intro a ha
  rw [decide_eq_true_iff]
  exact hnone a (List.mem_reverse.mp ha)

theorem pos_eq_some {h : History} {name : CString} {i : ℕ} (hpos : h.pos name = some i) :
    ∃ first, h.firsts[i]? = some first ∧ first.name = name := by
  obtain ⟨hlt, hname, -⟩ := List.findIdx?_eq_some_iff_getElem.mp hpos
  exact ⟨h.firsts[i], List.getElem?_eq_getElem hlt, of_decide_eq_true hname⟩

theorem pos_eq_none {h : History} {name : CString} (hpos : h.pos name = none) :
    ∀ a ∈ h.firsts, a.name ≠ name := by
  intro a ha
  have hall := List.findIdx?_eq_none_iff.mp hpos a ha
  exact of_decide_eq_false hall

end History

/-! ## A pub that records its history -/

/-- **An element records a name**: its newest value, DIRTY, if the name was
packed since the last publish. -/
structure ElemTracks (h : History) (first : PackArgs) (data : SosData) : Prop where
  guid : data.guid = first.guid
  type : data.type = first.val.type
  fresh : h.latest first.name = none → data.state ≠ .dirty
  dirty : ∀ v, h.latest first.name = some v → data.state = .dirty ∧ data.val = v ∧ v.type = data.type

/-- **A snapshot records a pack.** -/
structure SnapTracks (h : History) (a : PackArgs) (snap : SosValSnap) : Prop where
  frame : snap.frame = BitVec.ofNat 64 h.frames
  val : snap.val = a.val
  relationId : snap.relationId = a.relationId
  elem : ∃ first, h.firsts[snap.elem]? = some first ∧ first.name = a.name ∧
    snap.guid = first.guid ∧ first.val.type = a.val.type

/-- **A pub records its history twice.** -/
structure Tracks (typeOf : CString → ValType) (h : History) (c : ClientPub) : Prop where
  frame : c.pub.frame = BitVec.ofNat 64 h.frames
  names : ∀ name, sosPubSearch c.pub name = h.pos name
  nodup : (h.firsts.map (·.name)).Nodup
  typed : ∀ a ∈ h.firsts, a.val.type = typeOf a.name
  elems : List.Forall₂ (ElemTracks h) h.firsts c.pub.data
  spare : ∀ data ∈ c.pub.spare, data.state ≠ .dirty
  counted : c.queue.Counted
  queue : List.Forall₂ (SnapTracks h) h.since c.queue.items

/-- **Calls that pack each name with one type**, none of them blocks, and
strings of at most the default length. -/
def WellTyped (typeOf : CString → ValType) (calls : List ClientCall) : Prop :=
  ∀ a, .pack a ∈ calls → a.val.type = typeOf a.name ∧ a.val.type ≠ .bytes ∧
    ∀ c, a.val = .string c → c.length ≤ sosDefaultStringLen

variable {typeOf : CString → ValType} {h : History} {c : ClientPub} {a : PackArgs}

/-- A value of the element's type is kept as it is. -/
theorem renewVal_self {v : SosVal} (hbytes : v.type ≠ .bytes)
    (hlen : ∀ c, v = .string c → c.length ≤ sosDefaultStringLen) :
    ∃ len, renewVal v.type v = some (v, len) := by
  unfold renewVal
  rw [SosVal.readAs_type]
  cases v with
  | int i => exact ⟨4, rfl⟩
  | long l => exact ⟨8, rfl⟩
  | double d => exact ⟨8, rfl⟩
  | string c => exact ⟨intOf c.length, by simp only [CString.take_of_length_le (hlen c rfl)]⟩
  | bytes b => exact absurd rfl hbytes

/-- A name packed since the last publish is known. -/
theorem Tracks.known_of_since (ht : Tracks typeOf h c) {b : PackArgs} (hb : b ∈ h.since) :
    ∃ first ∈ h.firsts, first.name = b.name := by
  obtain ⟨snap, -, hsnap⟩ := Lockstep.right_of_mem ht.queue hb
  obtain ⟨first, hfirst, hname, -⟩ := hsnap.elem
  exact ⟨first, List.mem_of_getElem? hfirst, hname⟩

/-- Two positions of one name are the same. -/
theorem Tracks.pos_unique (ht : Tracks typeOf h c) {i j : ℕ} {x y : PackArgs}
    (hx : h.firsts[i]? = some x) (hy : h.firsts[j]? = some y) (hname : x.name = y.name) : i = j := by
  have hi : i < (h.firsts.map (·.name)).length := by
    rw [List.length_map]
    exact (List.getElem?_eq_some_iff.mp hx).1
  refine (List.getElem?_inj hi ht.nodup).mp ?_
  rw [List.getElem?_map, List.getElem?_map, hx, hy, Option.map_some, Option.map_some, hname]

/-! ## Situating a value -/

/-- A new name is looked up behind the others. -/
theorem History.pos_know {name : CString} (hpos : h.pos a.name = none) :
    (h.know a).pos name = if name = a.name then some h.firsts.length else h.pos name := by
  rw [know, if_pos hpos, pos, List.findIdx?_append, List.findIdx?_singleton]
  by_cases hname : a.name = name
  · subst hname
    rw [pos] at hpos
    simp [hpos]
  · rw [if_neg (fun heq : name = a.name => hname heq.symm)]
    simp [hname, pos]

/-- A snapshot records a pack also when more names are known. -/
theorem SnapTracks.know {b : PackArgs} {snap : SosValSnap} (hs : SnapTracks h b snap) :
    SnapTracks (h.know a) b snap := by
  unfold History.know
  split
  case isFalse => exact hs
  case isTrue =>
    obtain ⟨first, hfirst, hrest⟩ := hs.elem
    refine ⟨hs.frame, hs.val, hs.relationId, first, ?_, hrest⟩
    exact (List.getElem?_append_left (List.getElem?_eq_some_iff.mp hfirst).1).trans hfirst

/-- An element records what it did when more names are known. -/
theorem ElemTracks.know {first : PackArgs} {data : SosData} (he : ElemTracks h first data) :
    ElemTracks (h.know a) first data := by
  have hlatest : (h.know a).latest first.name = h.latest first.name := by
    unfold History.know
    split <;> rfl
  exact ⟨he.guid, he.type, hlatest ▸ he.fresh, hlatest ▸ he.dirty⟩

/-- **The element of a new name** records nothing yet. -/
theorem Tracks.addElem (ht : Tracks typeOf h c) (htype : a.val.type = typeOf a.name)
    (hpos : h.pos a.name = none) :
    Tracks typeOf (h.know a) { c with pub := c.pub.addElem a.guid a.name a.val.type } := by
  have hnew := History.pos_eq_none hpos
  have hfirsts : (h.know a).firsts = h.firsts ++ [a] := by rw [History.know, if_pos hpos]
  have hsince : (h.know a).since = h.since := by rw [History.know, if_pos hpos]
  have hspare : ∀ data : SosData, data ∈ c.pub.spare ∨ data = .blank → data.state ≠ .dirty := by
    rintro data (hold | rfl)
    · exact ht.spare data hold
    · exact fun hstate => (by cases hstate)
  refine ⟨?_, ?_, ?_, ?_, ?_, ?_, ht.counted, ?_⟩
  · rw [History.know, if_pos hpos]
    exact (c.pub.frame_addElem a.guid a.name a.val.type).trans ht.frame
  · intro name
    rw [History.pos_know hpos, ← ht.names name, ht.elems.length_eq]
    exact c.pub.sosPubSearch_addElem a.guid a.val.type ((ht.names a.name).trans hpos) name
  · rw [hfirsts, List.map_append, List.nodup_append]
    refine ⟨ht.nodup, List.nodup_singleton _, ?_⟩
    intro x hx y hy
    obtain ⟨b, hb, rfl⟩ := List.mem_map.mp hx
    rw [List.map_singleton, List.mem_singleton] at hy
    rw [hy]
    exact hnew b hb
  · rw [hfirsts]
    intro b hb
    rcases List.mem_append.mp hb with hold | hone
    · exact ht.typed b hold
    · rw [List.mem_singleton.mp hone]
      exact htype
  · rw [hfirsts, SosPub.data_addElem]
    obtain ⟨data, hdata, hstate⟩ := c.pub.state_newData a.guid a.name a.val.type
    refine Lockstep.concat (ht.elems.imp fun _ _ he => he.know)
      ⟨rfl, rfl, fun _ => hstate ▸ hspare data hdata, fun v hv => ?_⟩
    -- a name packed since the last publish would be known
    have hnone : (h.know a).latest a.name = none := by
      refine History.latest_eq_none fun b hb heq => ?_
      obtain ⟨first, hfirst, hname⟩ := ht.known_of_since (hsince ▸ hb)
      exact hnew first hfirst (hname.trans heq)
    rw [hnone] at hv
    cases hv
  · intro data hdata
    exact hspare data (c.pub.mem_spare_addElem a.guid a.name a.val.type hdata)
  · rw [hsince]
    exact ht.queue.imp fun _ _ hs => hs.know

/-- **Situating a value keeps the record.** -/
theorem Tracks.situate (ht : Tracks typeOf h c) (htype : a.val.type = typeOf a.name) :
    Tracks typeOf (h.know a) { c with pub := c.pub.withElem a.guid a.name a.val.type } ∧
      (h.know a).pos a.name = some (c.pub.elemPos a.name) := by
  have hsearch := ht.names a.name
  unfold SosPub.withElem SosPub.elemPos
  cases hpos : h.pos a.name with
  | some i =>
      have hknow : h.know a = h := by
        rw [History.know, if_neg]
        rw [hpos]
        exact fun hnone => (by cases hnone)
      rw [hsearch, hpos, hknow]
      exact ⟨ht, hpos⟩
  | none =>
      rw [hsearch, hpos, History.pos_know hpos, if_pos rfl]
      exact ⟨ht.addElem htype hpos, congrArg some ht.elems.length_eq⟩

/-! ## Renewing the element and queueing the snapshot -/

/-- **Renewing an element records the pack**, as does the snapshot. -/
theorem Tracks.record (ht : Tracks typeOf h c) {pos : ℕ} (hpos : h.pos a.name = some pos)
    (htype : a.val.type = typeOf a.name) {data : SosData} (hdata : c.pub.data[pos]? = some data)
    (len : CInt) (pub : SosPub) (hframe : pub.frame = c.pub.frame) :
    Tracks typeOf (h.record a)
      ⟨c.pub.setElem pos (data.renew (a.val, len) a.now), c.queue.push (a.snap pub pos data)⟩ := by
  obtain ⟨first, hfirst, hname⟩ := History.pos_eq_some hpos
  obtain ⟨data', hdata', hold⟩ := Lockstep.right_of_getElem? ht.elems hfirst
  obtain rfl := Option.some.inj (hdata.symm.trans hdata')
  have hval : first.val.type = a.val.type := by
    rw [ht.typed first (List.mem_of_getElem? hfirst), hname, htype]
  refine ⟨ht.frame, ht.names, ht.nodup, ht.typed, ?_, ht.spare, ht.counted.push _, ?_⟩
  · refine Lockstep.set ht.elems ?_ ?_
    · intro i x d hne hx he
      have hother : (h.record a).latest x.name = h.latest x.name := by
        rw [History.latest_record, if_neg]
        intro heq
        exact hne (ht.pos_unique hx hfirst (heq.symm.trans hname.symm))
      exact ⟨he.guid, he.type, hother ▸ he.fresh, hother ▸ he.dirty⟩
    · intro x hx
      obtain rfl := Option.some.inj (hfirst.symm.trans hx)
      have hnow : (h.record a).latest first.name = some a.val := by
        rw [History.latest_record, if_pos hname.symm]
      refine ⟨hold.guid, hold.type, fun hnone => ?_, fun v hv => ?_⟩
      · rw [hnow] at hnone
        cases hnone
      · obtain rfl := Option.some.inj (hnow.symm.trans hv)
        exact ⟨rfl, rfl, hval.symm.trans hold.type.symm⟩
  · refine Lockstep.concat (ht.queue.imp fun b s hs => ?_) ?_
    · exact ⟨hs.frame, hs.val, hs.relationId, hs.elem⟩
    · exact ⟨hframe.trans ht.frame, rfl, rfl, first, hfirst, hname, hold.guid, hval⟩

/-- **`SOS_pack` keeps the record.** -/
theorem Tracks.pack (ht : Tracks typeOf h c) (htype : a.val.type = typeOf a.name)
    (hbytes : a.val.type ≠ .bytes)
    (hlen : ∀ s, a.val = .string s → s.length ≤ sosDefaultStringLen) :
    ∃ c', c.pack a = some c' ∧ Tracks typeOf (h.call (.pack a)) c' := by
  obtain ⟨hplaced, hpos⟩ := ht.situate htype
  obtain ⟨first, hfirst, hname⟩ := History.pos_eq_some hpos
  obtain ⟨data, hdata, hold⟩ := Lockstep.right_of_getElem? hplaced.elems hfirst
  have hdtype : data.type = a.val.type := by
    rw [hold.type, hplaced.typed first (List.mem_of_getElem? hfirst), hname, htype]
  obtain ⟨len, hv⟩ := renewVal_self hbytes hlen
  refine ⟨⟨_, _⟩, ClientPub.pack_eq_some.mpr ⟨hbytes, data, (a.val, len), hdata, ?_, rfl, rfl⟩, ?_⟩
  · rw [hdtype]
    exact hv
  · refine hplaced.record hpos htype hdata len c.pub ?_
    unfold SosPub.withElem
    split
    · rfl
    · exact (c.pub.frame_addElem a.guid a.name a.val.type).symm

/-! ## Publishing what is recorded -/

/-- Every recorded pack has an element of its type. -/
theorem Tracks.typeAt (ht : Tracks typeOf h c) {b : PackArgs} {snap : SosValSnap}
    (hs : SnapTracks h b snap) : c.pub.typeAt snap.elem = some snap.val.type := by
  obtain ⟨first, hfirst, hname, -, htype⟩ := hs.elem
  obtain ⟨data, hdata, he⟩ := Lockstep.right_of_getElem? ht.elems hfirst
  have hlt := (List.getElem?_eq_some_iff.mp hdata).1
  rw [SosPub.typeAt, SosPub.elemAt, List.getElem?_append_left hlt, hdata, Option.map_some, he.type,
    htype, hs.val]

/-- **A pub that records its history can be published.** -/
theorem Tracks.sendable (ht : Tracks typeOf h c) : c.Sendable where
  counted := ht.counted
  readable data hdata hdirty := by
    obtain ⟨first, -, he⟩ := Lockstep.left_of_mem ht.elems hdata
    cases hlatest : h.latest first.name with
    | none => exact absurd hdirty (he.fresh hlatest)
    | some v =>
        obtain ⟨-, hval, htype⟩ := he.dirty v hlatest
        rw [SosData.Readable, hval, ← htype, SosVal.readAs_type]
        rfl
  typed snap hsnap := by
    obtain ⟨b, -, hs⟩ := Lockstep.left_of_mem ht.queue hsnap
    exact ⟨(snap.sentAt 0, snap.val), ⟨0, rfl⟩, snap.val.type, ht.typeAt hs,
      SosVal.readAs_type snap.val⟩

/-- What a PUBLISH carries of one element is what changed under its name. -/
theorem ElemTracks.publishAt {first : PackArgs} {data : SosData} (he : ElemTracks h first data)
    (send : Double) (i : ℕ) :
    (publishAt send (data, i)).map (fun e => (e.elem, e.val)) =
      (h.latest first.name).map fun v => (i, v) := by
  unfold SosFlow.publishAt
  cases hlatest : h.latest first.name with
  | none => simp only [if_neg (he.fresh hlatest), Option.map_none]
  | some v =>
      obtain ⟨hdirty, hval, htype⟩ := he.dirty v hlatest
      simp only [if_pos hdirty, hval, ← htype, SosVal.readAs_type, Option.map_some, SosData.publish]

/-- **The elements of the PUBLISH are those that changed.** -/
theorem map_publishAt {firsts : List PackArgs} {list : List SosData}
    (he : List.Forall₂ (ElemTracks h) firsts list) (send : Double) (pos : ℕ) :
    ((list.zipIdx pos).filterMap (publishAt send)).map (fun e => (e.elem, e.val)) =
      (firsts.zipIdx pos).filterMap fun p => (h.latest p.1.name).map fun v => (p.2, v) := by
  induction he generalizing pos with
  | nil => rfl
  | @cons first data firsts list hhead _ ih =>
      rw [List.zipIdx_cons, List.zipIdx_cons, List.map_filterMap, List.filterMap_cons,
        List.filterMap_cons, hhead.publishAt send pos, ← ih (pos + 1), List.map_filterMap]

/-- **A snapshot of a VAL_SNAPS is the snapshot of a pack**: of the frame that
is published, with the packed value and relation, and the position and guid
of the element of its name. -/
structure SnapOf (h : History) (a : PackArgs) (sent : SosValSnap × SosVal) : Prop where
  frame : sent.1.frame = BitVec.ofNat 64 h.frames
  val : sent.2 = a.val
  relationId : sent.1.relationId = a.relationId
  elem : ∃ first, h.firsts[sent.1.elem]? = some first ∧ first.name = a.name ∧
    sent.1.guid = first.guid

/-- **What a publish sends and leaves, by the history before it.** The
elements of the pub are the names that were packed, in the order of their
first pack; the PUBLISH has those that changed, the VAL_SNAPS has every pack
since the last publish; and nothing is left to send. -/
structure Agrees (h : History) (out : Published) (c' : ClientPub) : Prop where
  names : ∀ i first, h.firsts[i]? = some first → sosPubSearch c'.pub first.name = some i
  frame : out.publish.frame = BitVec.ofNat 64 h.frames
  elems : out.publish.elems.map (fun e => (e.elem, e.val)) = h.changed
  snaps : (h.since = [] ∧ out.snaps = none) ∨
    h.since ≠ [] ∧ ∃ m, out.snaps = some m ∧ List.Forall₂ (SnapOf h) h.since m.snaps
  queue : c'.queue = .empty
  clean : ∀ data ∈ c'.pub.data, data.state ≠ .dirty

/-- The state of an element behind a PUBLISH. -/
theorem SosData.state_sent (data : SosData) (send : Double) :
    (data.sent send).state ≠ .dirty := by
  unfold sent
  split
  case isTrue => exact fun hstate => (by cases hstate)
  case isFalse hstate => exact hstate

theorem SosData.sent_keeps (data : SosData) (send : Double) :
    (data.sent send).guid = data.guid ∧ (data.sent send).type = data.type := by
  unfold sent
  split <;> exact ⟨rfl, rfl⟩

@[simp] theorem nameTable_sosAnnounce (pub : SosPub) :
    (sosAnnounce pub).2.nameTable = pub.nameTable := by
  unfold sosAnnounce
  split <;> rfl

@[simp] theorem spare_sosAnnounce (pub : SosPub) : (sosAnnounce pub).2.spare = pub.spare := by
  unfold sosAnnounce
  split <;> rfl

/-- **`SOS_publish` sends both views of the history**, and the pub records what
is left of it. -/
theorem Tracks.publish (ht : Tracks typeOf h c) (send : Double) (clock : ℕ → Double) :
    ∃ out c', sosPublish c send clock = some (out, c') ∧ Agrees h out c' ∧
      Tracks typeOf (h.call (.publish send clock)) c' := by
  obtain ⟨out, c', hrun, hout⟩ := ht.sendable.publish send clock
  have hdata : c'.pub.data = c.pub.data.map (·.sent send) := by
    rw [hout.locked.pub, SosPub.afterPublish, data_sosAnnounce]
  have hsearch : ∀ name, sosPubSearch c'.pub name = h.pos name := by
    intro name
    rw [hout.locked.pub, sosPubSearch, SosPub.afterPublish, nameTable_sosAnnounce]
    exact ht.names name
  have hstate : ∀ data ∈ c'.pub.data, data.state ≠ .dirty := by
    intro data hmem
    rw [hdata] at hmem
    obtain ⟨data, -, rfl⟩ := List.mem_map.mp hmem
    exact data.state_sent send
  refine ⟨out, c', hrun, ⟨?_, ?_, ?_, ?_, hout.locked.queue, hstate⟩, ?_⟩
  · intro i first hfirst
    rw [hsearch]
    cases hpos : h.pos first.name with
    | none => exact absurd rfl (History.pos_eq_none hpos first (List.mem_of_getElem? hfirst))
    | some j =>
        obtain ⟨other, hother, hname⟩ := History.pos_eq_some hpos
        rw [ht.pos_unique hother hfirst hname]
  · rw [hout.locked.publish, frame_sosAnnounce]
    exact ht.frame
  · rw [hout.locked.publish, data_sosAnnounce]
    exact map_publishAt ht.elems send 0
  · have hlen := ht.queue.length_eq
    rcases hout.locked.snaps with ⟨hnil, hnone⟩ | ⟨hne, sent, hsome, hall⟩
    · refine .inl ⟨List.eq_nil_of_length_eq_zero ?_, hnone⟩
      rw [hlen, hnil, List.length_nil]
    · refine .inr ⟨?_, _, hsome, ?_⟩
      · intro hnil
        rw [hnil, List.length_nil] at hlen
        exact hne (List.eq_nil_of_length_eq_zero hlen.symm)
      · refine Lockstep.comp ht.queue hall fun b snap p hs hsent => ?_
        obtain ⟨⟨now, hnow⟩, type, htype, hval⟩ := hsent
        rw [typeAt_sosAnnounce] at htype
        obtain rfl := Option.some.inj ((ht.typeAt hs).symm.trans htype)
        rw [SosVal.readAs_type, Option.some.injEq] at hval
        obtain ⟨first, hfirst, hname, hguid, -⟩ := hs.elem
        refine ⟨hnow ▸ hs.frame, hval.symm.trans hs.val, hnow ▸ hs.relationId, first, ?_, hname,
          hnow ▸ hguid⟩
        rw [hnow]
        exact hfirst
  · refine ⟨?_, hsearch, ht.nodup, ht.typed, ?_, ?_, ?_, ?_⟩
    · rw [hout.locked.pub, SosPub.afterPublish, frame_sosAnnounce, ht.frame]
      exact (BitVec.ofNat_add h.frames 1).symm
    · rw [hdata, List.forall₂_map_right_iff]
      refine ht.elems.imp fun first data he => ?_
      obtain ⟨hguid, htype⟩ := data.sent_keeps send
      exact ⟨hguid.trans he.guid, htype.trans he.type, fun _ => data.state_sent send,
        fun v hv => (by cases hv)⟩
    · rw [hout.locked.pub, SosPub.afterPublish, spare_sosAnnounce]
      exact ht.spare
    · rw [hout.locked.queue]
      exact SosPipe.counted_empty
    · rw [hout.locked.queue]
      exact .nil

/-! ## Every list of calls -/

/-- One call on a client's pub, as a whole. -/
def clientStep (c : ClientPub) : ClientCall → Option ClientPub
  | .pack a => c.pack a
  | .publish send clock => (sosPublish c send clock).map (·.2)

/-- A pub and its queue as `SOS_pub_init_sized` makes them for a client. -/
def ClientPub.init (config : SosConfig) (guid : SosGuid) (title : CString) (nature : CInt)
    (newSize : ℕ) : ClientPub :=
  ⟨sosPubInitSized config guid title nature newSize, .empty⟩

theorem tracks_init (typeOf : CString → ValType) (config : SosConfig) (guid : SosGuid)
    (title : CString) (nature : CInt) (newSize : ℕ) :
    Tracks typeOf .start (ClientPub.init config guid title nature newSize) where
  frame := rfl
  names _ := rfl
  nodup := List.nodup_nil
  typed a ha := (by cases ha)
  elems := .nil
  spare data hdata := by
    rw [List.eq_of_mem_replicate hdata]
    exact fun hstate => (by cases hstate)
  counted := SosPipe.counted_empty
  queue := .nil

end SosFlow
