import SosFlow.Daemon.Link

/-!
# Which messages a daemon can handle

The handlers trust what they read. A PUBLISH stores its values where its
indices point, each by the type that it finds there, and a VAL_SNAPS puts its
list where the head of the cache says, over a list that it destroys first.
`Daemon.Handles` says when all of that is memory the pub has and uses alike,
and a handler returns exactly then.
-/

namespace SosFlow

open Outcome

/-- **An element that can be received**: there is one at its index, of the type of the
value, or of that of a block, which is not read. -/
def PublishElem.ReadableIn (e : PublishElem) (pub : SosPub) : Prop :=
  e.elem < pub.elemMax ∧
    ((pub.elemOr e.elem).type = .bytes ∨ e.val.type = (pub.elemOr e.elem).type)

instance (e : PublishElem) (pub : SosPub) : Decidable (e.ReadableIn pub) := by
  unfold PublishElem.ReadableIn
  infer_instance

/-- **The daemon can handle a message**: a PUBLISH whose elements its pub has, and a
VAL_SNAPS whose values have the types they say, for which there is a slot. -/
def Daemon.Handles (d : Daemon) : PubMessage → Prop
  | .announce _ => True
  | .publish m => ∀ e ∈ m.elems, e.ReadableIn (d.pubFor m.refGuid)
  | .valSnaps m => (∀ p ∈ m.snaps, p.2.type = p.1.type) ∧
      (m.snaps ≠ [] → ∀ pub ∈ d.pubTable m.refGuid, pub.CanReceive)

instance (d : Daemon) (m : PubMessage) : Decidable (d.Handles m) := by
  cases m <;> unfold Daemon.Handles <;> infer_instance

/-! ## A PUBLISH -/

section

variable {pub pub' : SosPub} {e : PublishElem}

theorem receiveElem_isSome_iff : (∃ pub', receiveElem pub e = some pub') ↔ e.ReadableIn pub := by
  constructor
  · rintro ⟨pub', h⟩
    simp only [receiveElem, Option.bind_eq_bind, Option.bind_eq_some_iff] at h
    obtain ⟨data, hdata, val, hval, -⟩ := h
    have hlt := SosPub.elemAt_isSome_iff.mp (Option.isSome_iff_exists.mpr ⟨data, hdata⟩)
    refine ⟨hlt, ?_⟩
    rw [SosPub.elemOr_of_elemAt hdata]
    unfold readVal at hval
    split at hval
    case isTrue hbytes => exact .inl hbytes
    case isFalse =>
      split at hval
      case isTrue htype => exact .inr htype
      case isFalse => cases hval
  · rintro ⟨hlt, hbytes | htype⟩
    · refine ⟨pub.putElem e.elem ((pub.elemOr e.elem).receive e (pub.elemOr e.elem).val), ?_⟩
      simp only [receiveElem, SosPub.elemAt_eq_some hlt, readVal, if_pos hbytes,
        Option.bind_eq_bind, Option.bind_some]
    · exact receiveElem_isSome hlt htype

/-- An element that is received changes no type. -/
theorem SosPub.Republished.readableIn_iff (h : pub.Republished pub') :
    e.ReadableIn pub' ↔ e.ReadableIn pub := by
  rw [PublishElem.ReadableIn, PublishElem.ReadableIn, h.elemMax, (h.elem e.elem).type]

theorem receiveElems_isSome_iff {elems : List PublishElem} :
    (∃ pub', receiveElems pub elems = some pub') ↔ ∀ e ∈ elems, e.ReadableIn pub := by
  induction elems generalizing pub with
  | nil => exact iff_of_true ⟨pub, rfl⟩ fun _ h => absurd h List.not_mem_nil
  | cons e rest ih =>
      rw [List.forall_mem_cons]
      constructor
      · rintro ⟨pub', h⟩
        obtain ⟨mid, hmid, hrest⟩ := Option.bind_eq_some_iff.mp h
        have hsame := (receiveElem_eq_some hmid).republished
        refine ⟨receiveElem_isSome_iff.mp ⟨mid, hmid⟩, fun e' he' => ?_⟩
        exact hsame.readableIn_iff.mp (ih.mp ⟨pub', hrest⟩ e' he')
      · rintro ⟨hfirst, hrest⟩
        obtain ⟨mid, hmid⟩ := receiveElem_isSome_iff.mpr hfirst
        have hsame := (receiveElem_eq_some hmid).republished
        obtain ⟨pub', hpub'⟩ := ih.mpr fun e' he' => hsame.readableIn_iff.mpr (hrest e' he')
        exact ⟨pub', Option.bind_eq_some_iff.mpr ⟨mid, hmid, hpub'⟩⟩

end

/-! ## A VAL_SNAPS -/

theorem readSnaps_isSome_iff {list : List (SosValSnap × SosVal)} :
    (∃ snaps, readSnaps list = some snaps) ↔ ∀ p ∈ list, p.2.type = p.1.type := by
  refine ⟨?_, Replicates.readSnaps_isSome⟩
  induction list with
  | nil => exact fun _ _ h => absurd h List.not_mem_nil
  | cons p rest ih =>
      rintro ⟨snaps, h⟩
      rw [readSnaps] at h
      split at h
      case isTrue htype =>
        obtain ⟨others, hothers, -⟩ := Option.map_eq_some_iff.mp h
        exact List.forall_mem_cons.mpr ⟨htype, ih ⟨others, hothers⟩⟩
      case isFalse => cases h

theorem length_readSnaps {list : List (SosValSnap × SosVal)} {snaps : List SosValSnap}
    (h : readSnaps list = some snaps) : snaps.length = list.length := by
  induction list generalizing snaps with
  | nil =>
      cases h
      rfl
  | cons p rest ih =>
      rw [readSnaps] at h
      split at h
      case isTrue =>
        obtain ⟨others, hothers, rfl⟩ := Option.map_eq_some_iff.mp h
        exact congrArg (· + 1) (ih hothers)
      case isFalse => cases h

/-- **Received snapshots are taken, exactly** by a pub that can receive. -/
theorem cacheReceived_isOk_iff {pub : SosPub} {copies : List SosValSnap} (hne : copies ≠ []) :
    (∃ pub', cacheReceived pub copies = .ok pub') ↔ pub.CanReceive := by
  constructor
  · rintro ⟨pub', h⟩ hpos hnature
    rw [cacheReceived, if_pos ⟨hpos, hnature⟩] at h
    unfold sosPackSnapListIntoPubCache at h
    rw [if_neg (not_lt.mpr hpos)] at h
    cases copies with
    | nil => exact absurd rfl hne
    | cons first rest =>
        simp only [if_neg hnature] at h
        obtain ⟨old, hold, h⟩ := bind_eq_ok.mp h
        split at h
        case isTrue hlast => exact ⟨old, hold, hlast⟩
        case isFalse => cases h
  · intro h
    obtain ⟨pub', hpub', -⟩ := h.cacheReceived copies
    exact ⟨pub', hpub'⟩

/-- **`SOSD_handle_val_snaps` returns, exactly** where there is a slot for the list, or
no list or no pub. -/
theorem Daemon.handleValSnaps_isOk_iff (d : Daemon) {g : SosGuid} {snaps : List SosValSnap}
    (clock : ℕ → Double) :
    (∃ d', d.handleValSnaps g snaps clock = .ok d') ↔
      (snaps ≠ [] → ∀ pub ∈ d.pubTable g, pub.CanReceive) := by
  unfold Daemon.handleValSnaps
  cases hpub : d.pubTable g with
  | none => exact iff_of_true ⟨d, rfl⟩ fun _ _ h => (by cases h)
  | some pub =>
      by_cases hnil : snaps = []
      · refine iff_of_true ?_ fun hne => absurd hnil hne
        simp only [sosValSnapQueueFromBuffer, if_pos hnil]
        exact ⟨_, rfl⟩
      · have hcopies : receivedCopies clock (snaps.map (·.taggedFor pub)) ≠ [] := by
          simpa [receivedCopies] using hnil
        have hcan : (snaps ≠ [] → ∀ p ∈ some pub, p.CanReceive) ↔ pub.CanReceive :=
          ⟨fun h => h hnil pub rfl, fun h _ p hp => Option.some.inj hp ▸ h⟩
        rw [hcan, ← cacheReceived_isOk_iff hcopies]
        simp only [sosValSnapQueueFromBuffer, if_neg hnil]
        cases cacheReceived pub (receivedCopies clock (snaps.map (·.taggedFor pub))) with
        | ok pub' => exact iff_of_true ⟨_, rfl⟩ ⟨pub', rfl⟩
        | error fault =>
            refine iff_of_false ?_ ?_
            · rintro ⟨_, h⟩
              cases h
            · rintro ⟨_, h⟩
              cases h

/-- **A handler returns, exactly** if the daemon can handle the message. -/
theorem Daemon.deliver_isSome_iff {d : Daemon} (recv : ℕ → Double) {m : PubMessage} :
    (∃ d', d.deliver recv m = some d') ↔ d.Handles m := by
  cases m with
  | announce m => exact iff_of_true ⟨_, rfl⟩ trivial
  | publish m =>
      have hreads := @receiveElems_isSome_iff { d.pubFor m.refGuid with frame := m.frame } m.elems
      refine Iff.trans ?_ hreads
      rw [Daemon.deliver, Daemon.handlePublish, sosPublishFromBuffer]
      constructor
      · rintro ⟨d', h⟩
        obtain ⟨pub', hpub', -⟩ := Option.map_eq_some_iff.mp h
        exact ⟨pub', hpub'⟩
      · rintro ⟨pub', hpub'⟩
        exact ⟨_, congrArg (Option.map (d.putPub m.refGuid)) hpub'⟩
  | valSnaps m =>
      rw [Daemon.Handles, ← readSnaps_isSome_iff, Daemon.deliver]
      cases hread : readSnaps m.snaps with
      | none =>
          refine iff_of_false ?_ ?_
          · rintro ⟨_, h⟩
            cases h
          · rintro ⟨⟨_, h⟩, _⟩
            cases h
      | some snaps =>
          have hnil : snaps ≠ [] ↔ m.snaps ≠ [] := by
            rw [← List.length_pos_iff, ← List.length_pos_iff, length_readSnaps hread]
          rw [← hnil, ← d.handleValSnaps_isOk_iff recv, Option.bind_some]
          cases d.handleValSnaps m.refGuid snaps recv with
          | ok d' => exact iff_of_true ⟨d', rfl⟩ ⟨⟨snaps, rfl⟩, d', rfl⟩
          | error fault =>
              refine iff_of_false ?_ ?_
              · rintro ⟨_, h⟩
                cases h
              · rintro ⟨_, _, h⟩
                cases h

end SosFlow
