import SosFlow.Msg.OverWire
import SosFlow.Pub.Agreement

/-!
# Publishing ends

`SOS_publish` holds the pub's lock while it packs the PUBLISH and the
VAL_SNAPS, and packs every double of the two by `SOS_buffer_pack754`. It
gives the lock back only if the loops of that function end on all of them.

What is converted is the packing time, the sending time and the value of
each DIRTY element, and the three times and the value of each snapshot in
the queue. `SOS_pack` looks at none of them.
-/

namespace SosFlow

open Binary

/-! ## What is converted -/

/-- What `SOS_publish` packs with the lock held. -/
def Published.lockedCalls (out : Published) : List PackCall :=
  out.publish.calls ++ (out.snaps.map ValSnapsMsg.calls).getD []

/-- The double that a value is, if it is one. -/
def SosVal.doubles : SosVal → List Double
  | .double d => [d]
  | _ => []

/-- The same of a value that is read as a type. -/
def SosVal.doublesAs (v : SosVal) (type : ValType) : List Double :=
  ((v.readAs type).map SosVal.doubles).getD []

/-- What is converted for an element. -/
def SosData.doubles (send : Double) (data : SosData) : List Double :=
  if data.state = .dirty then data.time.pack :: send :: data.val.doublesAs data.type else []

/-- What is converted for a snapshot, which is the `i`-th. -/
def SosPub.snapDoubles (pub : SosPub) (clock : ℕ → Double) (p : SosValSnap × ℕ) : List Double :=
  p.1.time.pack :: clock p.2 :: p.1.time.recv ::
    ((pub.typeAt p.1.elem).map p.1.val.doublesAs).getD []

/-- **The doubles a pub would send.** -/
def ClientPub.doubles (c : ClientPub) (send : Double) (clock : ℕ → Double) : List Double :=
  c.pub.data.flatMap (SosData.doubles send) ++ (c.queue.items.zipIdx 0).flatMap (c.pub.snapDoubles clock)

theorem doubles_packVal (v : SosVal) : (packVal v).doubles = v.doubles := by
  cases v <;> rfl

theorem doubles_publish (m : PublishMsg) : m.calls.flatMap PackCall.doubles =
    m.elems.flatMap fun e => e.pack :: e.send :: e.val.doubles := by
  rw [PublishMsg.calls, List.flatMap_cons, List.flatMap_assoc]
  refine congrArg _ (congrArg₂ _ (funext fun e => ?_) rfl)
  rw [List.flatMap_cons, List.flatMap_singleton, doubles_packVal]
  rfl

theorem doubles_valSnaps (m : ValSnapsMsg) : m.calls.flatMap PackCall.doubles =
    m.snaps.flatMap fun s => s.1.time.pack :: s.1.time.send :: s.1.time.recv :: s.2.doubles := by
  rw [ValSnapsMsg.calls, List.flatMap_cons, List.flatMap_assoc]
  refine congrArg _ (congrArg₂ _ (funext fun s => ?_) rfl)
  rw [List.flatMap_cons, List.flatMap_singleton, doubles_packVal]
  rfl

/-! ## What a publish converts -/

variable {c c' : ClientPub} {send : Double} {clock : ℕ → Double} {out : Published}

/-- Of the elements. -/
theorem doubles_publishElems {pos : ℕ} {list : List SosData} {elems : List PublishElem}
    (h : publishElems send pos list = some elems) :
    (elems.flatMap fun e => e.pack :: e.send :: e.val.doubles) =
      list.flatMap (SosData.doubles send) := by
  induction list generalizing pos elems with
  | nil =>
      cases h
      rfl
  | cons data rest ih =>
      rw [publishElems] at h
      rw [List.flatMap_cons, SosData.doubles]
      split at h
      case isTrue hdirty =>
        simp only [Option.bind_eq_bind, Option.bind_eq_some_iff] at h
        obtain ⟨val, hval, others, hothers, helems⟩ := h
        cases helems
        rw [if_pos hdirty, SosVal.doublesAs, hval, List.flatMap_cons, ih hothers]
        rfl
      case isFalse hclean =>
        rw [if_neg hclean, List.nil_append, ih h]

/-- Of the snapshots. -/
theorem doubles_sendSnaps {pub : SosPub} {i : ℕ} {list : List SosValSnap}
    {sent : List (SosValSnap × SosVal)} (h : sendSnaps pub clock i list = some sent) :
    (sent.flatMap fun s => s.1.time.pack :: s.1.time.send :: s.1.time.recv :: s.2.doubles) =
      (list.zipIdx i).flatMap (pub.snapDoubles clock) := by
  induction list generalizing i sent with
  | nil =>
      cases h
      rfl
  | cons snap rest ih =>
      simp only [sendSnaps, Option.bind_eq_bind, Option.bind_eq_some_iff] at h
      obtain ⟨type, htype, val, hval, others, hothers, hsent⟩ := h
      cases hsent
      rw [List.zipIdx_cons, List.flatMap_cons, List.flatMap_cons, ih hothers, SosPub.snapDoubles, htype,
        Option.map_some, Option.getD_some, SosVal.doublesAs, hval]
      rfl

/-- The snapshots of a pub are the same behind its announcement and its PUBLISH. -/
theorem snapDoubles_congr {pub pub' : SosPub} (h : ∀ pos, pub'.typeAt pos = pub.typeAt pos) :
    pub'.snapDoubles clock = pub.snapDoubles clock := by
  funext p
  rw [SosPub.snapDoubles, SosPub.snapDoubles, h]

/-- Of the queue, as long as it is counted. -/
theorem doubles_valSnapsMsg {pub : SosPub} {queue queue' : SosPipe SosValSnap}
    {m : Option ValSnapsMsg} (hcount : queue.Counted)
    (h : valSnapsMsg pub queue clock = some (m, queue')) :
    ((m.map ValSnapsMsg.calls).getD []).flatMap PackCall.doubles =
      (queue.items.zipIdx 0).flatMap (pub.snapDoubles clock) := by
  have hlen : queue.elemCount = queue.items.length := hcount
  rw [valSnapsMsg] at h
  split at h
  case isTrue hlt =>
    cases h
    have hnil : queue.items = [] := List.eq_nil_of_length_eq_zero (by omega)
    rw [hnil]
    rfl
  case isFalse =>
    rw [hcount.pop_all] at h
    simp only [Option.bind_eq_bind, Option.bind_eq_some_iff] at h
    obtain ⟨sent, hsent, hout⟩ := h
    cases hout
    rw [Option.map_some, Option.getD_some, doubles_valSnaps]
    exact doubles_sendSnaps hsent

/-- **What `SOS_publish` converts** is what the pub would send. -/
theorem doubles_sosPublish (hcount : c.queue.Counted)
    (h : sosPublish c send clock = some (out, c')) :
    out.lockedCalls.flatMap PackCall.doubles = c.doubles send clock := by
  simp only [sosPublish, publishLocked, SosPub.publishMsg, Option.bind_eq_bind,
    Option.bind_eq_some_iff] at h
  obtain ⟨_, ⟨_, ⟨elems, helems, hpublish⟩, snaps, hsnaps, hlocked⟩, hout⟩ := h
  cases hpublish
  cases hlocked
  cases hout
  have htypes : ∀ pos, ((sosAnnounce c.pub).2.afterPublish send).typeAt pos = c.pub.typeAt pos :=
    fun pos => by simp
  rw [data_sosAnnounce] at helems
  rw [Published.lockedCalls, List.flatMap_append, doubles_publish, doubles_publishElems helems,
    doubles_valSnapsMsg hcount hsnaps, snapDoubles_congr htypes, ClientPub.doubles]

/-- What is published could be. -/
theorem sendable_of_sosPublish (hcount : c.queue.Counted)
    (h : sosPublish c send clock = some (out, c')) : c.Sendable where
  counted := hcount
  readable := by
    simp only [sosPublish, publishLocked, SosPub.publishMsg, Option.bind_eq_bind,
      Option.bind_eq_some_iff] at h
    obtain ⟨_, ⟨_, ⟨elems, helems, -⟩, -⟩, -⟩ := h
    rw [data_sosAnnounce] at helems
    exact (publishElems_eq_some.mp helems).1
  typed snap hsnap := by
    rcases (sosPublish_publishedBy hcount h).locked.snaps with ⟨hnil, -⟩ | ⟨-, sent, -, hall⟩
    · rw [hnil] at hsnap
      cases hsnap
    · obtain ⟨p, -, hp⟩ := Lockstep.right_of_mem hall hsnap
      exact ⟨p, hp.congr fun pos => (typeAt_sosAnnounce c.pub pos).symm⟩

/-! ## Every run of calls -/

/-- **A publish ends**, if it is one. -/
def PublishEnds (c : ClientPub) : ClientCall → Prop
  | .pack _ => True
  | .publish send clock =>
    ∀ out c', sosPublish c send clock = some (out, c') → Converted out.lockedCalls

/-- **The pub would send no infinity**, if the call is a publish. -/
def SendsNoInf (c : ClientPub) : ClientCall → Prop
  | .pack _ => True
  | .publish send clock => c.Sendable → ∀ d ∈ c.doubles send clock, ¬ IsInf d

theorem publishEnds_iff (hcount : c.queue.Counted) (call : ClientCall) :
    PublishEnds c call ↔ SendsNoInf c call := by
  cases call with
  | pack a => exact Iff.rfl
  | publish send clock =>
      have hconverted : ∀ {out c'}, sosPublish c send clock = some (out, c') →
          (Converted out.lockedCalls ↔ ∀ d ∈ c.doubles send clock, ¬ IsInf d) := by
        intro out c' h
        rw [converted_iff, doubles_sosPublish hcount h]
      constructor
      · intro hends hsendable
        obtain ⟨out, c', h, -⟩ := hsendable.publish send clock
        exact (hconverted h).mp (hends out c' h)
      · intro hfinite out c' h
        exact (hconverted h).mpr (hfinite (sendable_of_sosPublish hcount h))

/-- The queue of a client's pub is counted, whatever is called. -/
theorem counted_clientStep {call : ClientCall} (hcount : c.queue.Counted)
    (h : clientStep c call = some c') : c'.queue.Counted := by
  cases call with
  | pack a =>
      obtain ⟨-, data, v, -, -, -, hqueue⟩ := ClientPub.pack_eq_some.mp h
      rw [hqueue]
      exact hcount.push _
  | publish send clock =>
      obtain ⟨⟨out, c₁⟩, hpublish, hc₁⟩ := Option.map_eq_some_iff.mp h
      obtain rfl : c₁ = c' := hc₁
      rw [(sosPublish_publishedBy hcount hpublish).locked.queue]
      exact SosPipe.counted_empty

/-- **Where packing a double ends.** The loops end on every double that is no infinity,
and every `SOS_publish` of a run ends exactly if it has none to send. -/
theorem packing_ends_iff (d : Double) (config : SosConfig) (guid : SosGuid) (title : CString)
    (nature : CInt) (newSize : ℕ) (calls : List ClientCall) :
    (LoopsEnd (ofBits d) ↔ ¬ IsInf d) ∧
      (Trace.Along clientStep PublishEnds (ClientPub.init config guid title nature newSize) calls ↔
        Trace.Along clientStep SendsNoInf (ClientPub.init config guid title nature newSize) calls) :=
  ⟨loopsEnd_iff d, Trace.along_congr (fun _ call hcount => publishEnds_iff hcount call)
    (fun _ _ _ hcount => counted_clientStep hcount) SosPipe.counted_empty⟩

/-- **An infinity is packed**, and the publish behind that does not end. -/
theorem not_packing_ends :
    ∃ c out c', (ClientPub.init plainConfig 5 .empty 0 2).pack
        ⟨.empty, .double 0x7ff0000000000000, 0, 9, 0⟩ = some c ∧
      sosPublish c 0 (fun _ => 0) = some (out, c') ∧ ¬ Converted out.lockedCalls := by
  refine ⟨_, _, _, rfl, rfl, fun hends => ?_⟩
  exact (loopsEnd_iff 0x7ff0000000000000).mp (hends _ (by decide)) (by decide)

end SosFlow
