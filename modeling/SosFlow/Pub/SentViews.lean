import SosFlow.Pub.PackEnds

/-!
# The two views on the wire

What `SOS_publish` packs agrees with the history of the calls (`Agrees`). What
its messages say does as well, if the codec of the program brings back every
double that was packed; and there are messages at all only if no infinity is
among what is converted, since `SOS_publish` does not return from one.
-/

namespace SosFlow

open Binary

/-! ## What is sent -/

/-- The messages of a `SOS_publish` as they are read from the wire. -/
def Published.overWire [DoubleCodec] (out : Published) : Published where
  announce := out.announce
  publish := out.publish.overWire
  snaps := out.snaps.map ValSnapsMsg.overWire

/-- **`SOS_publish` up to its return**: what its messages say, and the pub. It does not
return if a double is never packed. -/
def sosPublishSent (c : ClientPub) (send : Double) (clock : ℕ → Double) :
    Option (Published × ClientPub) :=
  letI := DoubleCodec.sos
  (sosPublish c send clock).bind fun r =>
    if Converted r.1.lockedCalls then some (r.1.overWire, r.2) else none

/-- **The value comes back** from the wire as it was packed. -/
def SosVal.Codable : SosVal → Prop
  | .double d => SosFlow.Codable d
  | _ => True

instance : DecidablePred SosVal.Codable := fun v => by
  cases v <;> unfold SosVal.Codable <;> infer_instance

theorem SosVal.overWire_eq_iff (v : SosVal) :
    @SosVal.overWire DoubleCodec.sos v = v ↔ v.Codable := by
  cases v with
  | double d => exact SosVal.double.injEq _ _ ▸ kept_iff d
  | int i => exact iff_of_true rfl trivial
  | long l => exact iff_of_true rfl trivial
  | string s => exact iff_of_true rfl trivial
  | bytes b => exact iff_of_true rfl trivial

/-! ## One publish -/

variable {typeOf : CString → ValType} {h : History} {c c' : ClientPub} {send : Double}
  {clock : ℕ → Double} {out : Published}

/-- What was packed last is one of the packs since the last publish. -/
theorem History.mem_since_of_latest {name : CString} {v : SosVal} (hv : h.latest name = some v) :
    ∃ a ∈ h.since, a.val = v := by
  obtain ⟨a, ha, rfl⟩ := Option.map_eq_some_iff.mp hv
  exact ⟨a, List.mem_reverse.mp (List.mem_of_find?_eq_some ha), rfl⟩

/-- **What the messages say agrees with the history** if what is packed does and comes
back from the wire, and only then. -/
theorem Agrees.overWire_iff (ha : Agrees h out c') :
    Agrees h (@Published.overWire DoubleCodec.sos out) c' ↔ ∀ a ∈ h.since, a.val.Codable := by
  let _ := DoubleCodec.sos
  constructor
  · intro hwire a hmem
    rcases ha.snaps with ⟨hnil, -⟩ | ⟨-, m, hm, hall⟩
    · rw [hnil] at hmem
      exact absurd hmem List.not_mem_nil
    · rcases hwire.snaps with ⟨hnil, -⟩ | ⟨-, m', hm', hall'⟩
      · rw [hnil] at hmem
        exact absurd hmem List.not_mem_nil
      · have hsnaps : m.overWire = m' := by
          rw [Published.overWire, hm] at hm'
          exact Option.some.inj hm'
        rw [← hsnaps, ValSnapsMsg.overWire, List.forall₂_map_right_iff] at hall'
        obtain ⟨i, hi, rfl⟩ := List.getElem_of_mem hmem
        have hget : h.since[i]? = some h.since[i] := List.getElem?_eq_getElem hi
        obtain ⟨p, hp, hsnap⟩ := Lockstep.right_of_getElem? hall hget
        obtain ⟨p', hp', hsnap'⟩ := Lockstep.right_of_getElem? hall' hget
        obtain rfl := Option.some.inj (hp.symm.trans hp')
        have hback : p.2.overWire = h.since[i].val := hsnap'.val
        rw [hsnap.val] at hback
        exact (SosVal.overWire_eq_iff _).mp hback
  · intro hcodable
    have hback : ∀ a ∈ h.since, a.val.overWire = a.val := fun a hmem =>
      (SosVal.overWire_eq_iff _).mpr (hcodable a hmem)
    refine ⟨ha.names, ha.frame, ?_, ?_, ha.queue, ha.clean⟩
    · -- every value that changed was packed
      have hchanged : ∀ p ∈ h.changed, p.2.overWire = p.2 := by
        intro p hp
        obtain ⟨first, -, hfirst⟩ := List.mem_filterMap.mp hp
        obtain ⟨v, hv, rfl⟩ := Option.map_eq_some_iff.mp hfirst
        obtain ⟨a, hmem, rfl⟩ := History.mem_since_of_latest hv
        exact hback a hmem
      have hmap : out.overWire.publish.elems.map (fun e => (e.elem, e.val)) =
          (out.publish.elems.map fun e => (e.elem, e.val)).map fun p => (p.1, p.2.overWire) := by
        rw [List.map_map]
        exact List.map_map
      rw [hmap, ha.elems]
      exact (List.map_congr_left fun p hp => by rw [hchanged p hp, id]).trans (List.map_id _)
    · rcases ha.snaps with ⟨hnil, hnone⟩ | ⟨hne, m, hm, hall⟩
      · exact .inl ⟨hnil, by rw [Published.overWire, hnone]; rfl⟩
      · refine .inr ⟨hne, m.overWire, by rw [Published.overWire, hm]; rfl, ?_⟩
        rw [ValSnapsMsg.overWire, List.forall₂_map_right_iff]
        refine Lockstep.imp_mem hall fun a hmem p hp => ⟨hp.frame, ?_, hp.relationId, hp.elem⟩
        show p.2.overWire = a.val
        rw [hp.val, hback a hmem]

/-- **A publish sends both views** exactly if no infinity is among what it converts and
every double that was packed since the last one comes back. -/
theorem Tracks.publish_sent_iff (ht : Tracks typeOf h c) (send : Double) (clock : ℕ → Double) :
    (∃ out c', sosPublishSent c send clock = some (out, c') ∧ Agrees h out c') ↔
      (∀ d ∈ c.doubles send clock, ¬ IsInf d) ∧ ∀ a ∈ h.since, a.val.Codable := by
  let _ := DoubleCodec.sos
  obtain ⟨out, c', hrun, hagrees, -⟩ := ht.publish send clock
  have hconverted : Converted out.lockedCalls ↔ ∀ d ∈ c.doubles send clock, ¬ IsInf d := by
    rw [converted_iff, doubles_sosPublish ht.counted hrun]
  rw [← hconverted, ← hagrees.overWire_iff, sosPublishSent, hrun, Option.bind_some]
  constructor
  · rintro ⟨sent, c'', hsent, hagrees'⟩
    split at hsent
    case isTrue hends =>
      cases hsent
      exact ⟨hends, hagrees'⟩
    case isFalse => cases hsent
  · rintro ⟨hends, hagrees'⟩
    exact ⟨_, _, if_pos hends, hagrees'⟩

/-- The pub behind a publish that returns records the history. -/
theorem Tracks.publish_sent (ht : Tracks typeOf h c)
    (hrun : sosPublishSent c send clock = some (out, c')) :
    Tracks typeOf (h.call (.publish send clock)) c' := by
  obtain ⟨packed, c'', hpacked, -, ht'⟩ := ht.publish send clock
  rw [sosPublishSent, hpacked, Option.bind_some] at hrun
  split at hrun
  case isTrue =>
    cases hrun
    exact ht'
  case isFalse => cases hrun

/-! ## Every list of calls -/

/-- **A client's pub**, with the history of the calls on it. -/
structure Recorded where
  history : History
  client : ClientPub

/-- Before any call. -/
def Recorded.init (config : SosConfig) (guid : SosGuid) (title : CString) (nature : CInt)
    (newSize : ℕ) : Recorded :=
  ⟨.start, .init config guid title nature newSize⟩

/-- One call, as a whole, if it returns. -/
def recordedStep (s : Recorded) (call : ClientCall) : Option Recorded :=
  match call with
  | .pack a => (s.client.pack a).map fun c => ⟨s.history.call call, c⟩
  | .publish send clock =>
    (sosPublishSent s.client send clock).map fun r => ⟨s.history.call call, r.2⟩

/-- **The call returns, and a publish sends both views** of the history. -/
def SendsBoth (s : Recorded) : ClientCall → Prop
  | .pack a => ∃ c', s.client.pack a = some c'
  | .publish send clock =>
    ∃ out c', sosPublishSent s.client send clock = some (out, c') ∧ Agrees s.history out c'

/-- **A publish that converts no infinity**, behind packs of doubles that come back. -/
def SendsCodable (s : Recorded) : ClientCall → Prop
  | .pack _ => True
  | .publish send clock =>
    (∀ d ∈ s.client.doubles send clock, ¬ IsInf d) ∧ ∀ a ∈ s.history.since, a.val.Codable

instance (s : Recorded) (call : ClientCall) : Decidable (SendsCodable s call) := by
  cases call with
  | pack a => exact isTrue trivial
  | publish send clock => exact @instDecidableAnd _ _ (decidableNoInf _) inferInstance

/-- **What a list of calls sends**, from any pub that records its history. -/
theorem Tracks.along_sent_iff (ht : Tracks typeOf h c) {calls : List ClientCall}
    (htyped : WellTyped typeOf calls) :
    Trace.Along recordedStep SendsBoth ⟨h, c⟩ calls ↔
      Trace.Along recordedStep SendsCodable ⟨h, c⟩ calls := by
  induction calls generalizing h c with
  | nil => exact Iff.rfl
  | cons call calls ih =>
      have hrest : WellTyped typeOf calls := fun a ha => htyped a (List.mem_cons_of_mem _ ha)
      cases call with
      | pack a =>
          obtain ⟨htype, hbytes, hlen⟩ := htyped a List.mem_cons_self
          obtain ⟨c₁, hpack, ht₁⟩ := ht.pack htype hbytes hlen
          refine and_congr (iff_of_true ⟨c₁, hpack⟩ trivial) (forall_congr' fun s' => ?_)
          refine imp_congr_right fun hstep => ?_
          obtain ⟨c₂, hpack', rfl⟩ := Option.map_eq_some_iff.mp hstep
          obtain rfl := Option.some.inj (hpack.symm.trans hpack')
          exact ih ht₁ hrest
      | publish send clock =>
          refine and_congr (ht.publish_sent_iff send clock) (forall_congr' fun s' => ?_)
          refine imp_congr_right fun hstep => ?_
          obtain ⟨⟨out, c₁⟩, hsent, rfl⟩ := Option.map_eq_some_iff.mp hstep
          exact ih (ht.publish_sent hsent) hrest

/-- **The two views a publish sends agree** with the calls: every call of a list returns,
and each publish sends the elements that changed since the last one with their newest
values and one snapshot for every pack since then, exactly if no publish of the list
converts an infinity or sends a double that does not come back. -/
theorem sent_views_agree_iff (typeOf : CString → ValType) (config : SosConfig) (guid : SosGuid)
    (title : CString) (nature : CInt) (newSize : ℕ) (calls : List ClientCall)
    (htyped : WellTyped typeOf calls) :
    Trace.Along recordedStep SendsBoth (.init config guid title nature newSize) calls ↔
      Trace.Along recordedStep SendsCodable (.init config guid title nature newSize) calls :=
  (tracks_init typeOf config guid title nature newSize).along_sent_iff htyped

/-- One and a half, and then two, under one name, with a publish behind each. -/
def packedTwice : List ClientCall :=
  [.pack ⟨.empty, .double 0x3ff8000000000000, 0, 9, 0⟩, .publish 0 fun _ => 0,
    .pack ⟨.empty, .double 0x4000000000000000, 7, 0, 0⟩, .publish 0 fun _ => 0]

theorem sent_views_agree_twice :
    Trace.Along recordedStep SendsBoth (.init plainConfig 5 .empty 0 2) packedTwice := by
  refine (sent_views_agree_iff (fun _ => .double) plainConfig 5 .empty 0 2 packedTwice ?_).mpr
    (by decide +kernel)
  intro a ha
  simp only [packedTwice, List.mem_cons, ClientCall.pack.injEq, reduceCtorEq, List.not_mem_nil,
    or_false, false_or] at ha
  rcases ha with rfl | rfl <;> exact ⟨rfl, by decide, fun c hc => (by cases hc)⟩

/-- **An infinity keeps a publish from returning**, and the least double above zero goes
out as another number. -/
theorem not_sent_views_agree :
    ¬ Trace.Along recordedStep SendsBoth (.init plainConfig 5 .empty 0 2)
        [.pack ⟨.empty, .double 0x7ff0000000000000, 0, 9, 0⟩, .publish 0 fun _ => 0] ∧
      ¬ Trace.Along recordedStep SendsBoth (.init plainConfig 5 .empty 0 2)
        [.pack ⟨.empty, .double 1, 0, 9, 0⟩, .publish 0 fun _ => 0] := by
  have htyped (d : Double) : WellTyped (fun _ => .double)
      [.pack ⟨.empty, .double d, 0, 9, 0⟩, .publish 0 fun _ => 0] := by
    intro a ha
    simp only [List.mem_cons, ClientCall.pack.injEq, reduceCtorEq, List.not_mem_nil, or_false] at ha
    subst ha
    exact ⟨rfl, fun hbytes => (by cases hbytes), fun c hc => (by cases hc)⟩
  have hinit := tracks_init (fun _ => .double) plainConfig 5 .empty 0 2
  exact ⟨fun h => absurd ((hinit.along_sent_iff (htyped _)).mp h) (by decide +kernel),
    fun h => absurd ((hinit.along_sent_iff (htyped _)).mp h) (by decide +kernel)⟩

end SosFlow
