import SosFlow.Daemon.Receive

/-!
# What the messages do to the elements of a pub

An ANNOUNCE and a PUBLISH change the elements of the daemon's pub one by
one, and either may reach an element that was not announced: a pub has
elements to spare, and an ANNOUNCE allocates more. So the elements are read
here by their position, a position that is not allocated as blank, and what
each message does is said of every position.
-/

namespace SosFlow

open Outcome

namespace SosPub

variable (pub : SosPub)

/-- The element at a position, blank where none is allocated. -/
def elemOr (pos : ℕ) : SosData := (pub.elemAt pos).getD .blank

variable {pub}

theorem elemOr_of_elemAt {pos : ℕ} {data : SosData} (h : pub.elemAt pos = some data) :
    pub.elemOr pos = data := by
  rw [elemOr, h, Option.getD_some]

theorem elemAt_isSome_iff {pos : ℕ} : (pub.elemAt pos).isSome ↔ pos < pub.elemMax := by
  rw [elemAt, isSome_getElem?, List.length_append, elemMax]

theorem elemAt_eq_some {pos : ℕ} (h : pos < pub.elemMax) :
    pub.elemAt pos = some (pub.elemOr pos) := by
  obtain ⟨data, hdata⟩ := Option.isSome_iff_exists.mp (elemAt_isSome_iff.mpr h)
  rw [elemOr_of_elemAt hdata, hdata]

/-- The first `elem_count` of them are the elements there are. -/
theorem getElem?_data {pos : ℕ} (h : pos < pub.data.length) :
    pub.data[pos]? = some (pub.elemOr pos) := by
  have hat : pub.elemAt pos = pub.data[pos]? := List.getElem?_append_left h
  rw [← hat, elemAt_eq_some (lt_of_lt_of_le h (Nat.le_add_right _ _))]

theorem elemOr_of_data {pos : ℕ} {data : SosData} (h : pub.data[pos]? = some data) :
    pub.elemOr pos = data :=
  Option.some.inj ((getElem?_data (List.getElem?_eq_some_iff.mp h).1).symm.trans h)

/-! ## Making room -/

/-- Growing a pub puts blank elements behind its others. -/
theorem growTo_eq (count rounds : ℕ) (pub : SosPub) :
    ∃ k, growTo count rounds pub = { pub with spare := pub.spare ++ List.replicate k .blank } := by
  induction rounds generalizing pub with
  | zero => exact ⟨0, by simp [growTo]⟩
  | succ rounds ih =>
      unfold growTo
      split
      case isTrue =>
        obtain ⟨k, hk⟩ := ih (sosExpandData pub)
        refine ⟨sosDefaultElemMax + k, ?_⟩
        rw [hk, sosExpandData, List.append_assoc, List.replicate_append_replicate]
      case isFalse => exact ⟨0, by simp⟩

/-- As many rounds as there are elements to make room for are enough. -/
theorem le_elemMax_growTo {count rounds : ℕ} {pub : SosPub} (h : count ≤ pub.elemMax + rounds) :
    count ≤ (growTo count rounds pub).elemMax := by
  induction rounds generalizing pub with
  | zero => exact h
  | succ rounds ih =>
      unfold growTo
      split
      case isTrue =>
        refine ih ?_
        have hmax : (sosExpandData pub).elemMax = pub.elemMax + sosDefaultElemMax := by
          simp only [elemMax, sosExpandData, List.length_append, List.length_replicate]
          omega
        rw [hmax, sosDefaultElemMax]
        omega
      case isFalse => omega

/-- **A pub with room for `count` elements**: the same elements at the same
positions, blank where there were none. -/
theorem resized_eq (count : ℕ) (pub : SosPub) : ∃ all : List SosData, count ≤ all.length ∧
    (∀ pos, all[pos]?.getD .blank = pub.elemOr pos) ∧
    pub.resized count = { pub with data := all.take count, spare := all.drop count } := by
  obtain ⟨k, hk⟩ := growTo_eq count count pub
  have hlen : count ≤ (growTo count count pub).elemMax := le_elemMax_growTo (by omega)
  refine ⟨pub.data ++ (pub.spare ++ List.replicate k .blank), ?_, fun pos => ?_, ?_⟩
  · rw [hk, elemMax] at hlen
    rw [List.length_append]
    exact hlen
  · rw [← List.append_assoc, List.getElem?_append, elemOr, elemAt]
    split
    case isTrue => rfl
    case isFalse hge =>
      rw [List.getElem?_eq_none (not_lt.mp hge), List.getElem?_replicate]
      split <;> rfl
  · rw [resized, hk, setCount]

theorem length_data_resized (count : ℕ) (pub : SosPub) :
    (pub.resized count).data.length = count := by
  obtain ⟨all, hlen, -, hresized⟩ := resized_eq count pub
  rw [hresized, List.length_take]
  omega

end SosPub

/-! ## An ANNOUNCE -/

section

variable {pub : SosPub} {m : AnnounceMsg}

theorem length_data_announce (pub : SosPub) (m : AnnounceMsg) :
    (sosAnnounceFromBuffer pub m).data.length = m.elems.length := by
  change (List.zipWith SosData.define (pub.resized m.elems.length).data m.elems).length = _
  rw [List.length_zipWith, SosPub.length_data_resized, min_self]

/-- **Every position behind an ANNOUNCE**: it is defined if it is announced,
and the others stay. -/
theorem elemOr_announce (pub : SosPub) (m : AnnounceMsg) (pos : ℕ) :
    (sosAnnounceFromBuffer pub m).elemOr pos =
      match m.elems[pos]? with
      | some e => (pub.elemOr pos).define e
      | none => pub.elemOr pos := by
  obtain ⟨all, hlen, hall, hresized⟩ := SosPub.resized_eq m.elems.length pub
  have hdata : (sosAnnounceFromBuffer pub m).data =
      List.zipWith SosData.define (all.take m.elems.length) m.elems := by
    change List.zipWith SosData.define (pub.resized m.elems.length).data m.elems = _
    rw [hresized]
  have hspare : (sosAnnounceFromBuffer pub m).spare = all.drop m.elems.length := by
    change (pub.resized m.elems.length).spare = _
    rw [hresized]
  by_cases hpos : pos < m.elems.length
  · rw [List.getElem?_eq_getElem hpos]
    refine SosPub.elemOr_of_data ?_
    have hget : all[pos]? = some (pub.elemOr pos) := by
      rw [← hall pos, List.getElem?_eq_getElem (by omega), Option.getD_some]
    rw [hdata, List.getElem?_zipWith, List.getElem?_take_of_lt hpos, hget,
      List.getElem?_eq_getElem hpos]
  · rw [List.getElem?_eq_none (not_lt.mp hpos), ← hall pos, SosPub.elemOr, SosPub.elemAt,
      List.getElem?_append_right (by rw [length_data_announce]; omega), length_data_announce,
      hspare, List.getElem?_drop]
    congr 3
    omega

/-- **An element has a definition** that was announced. The name is read up to
its last byte but one. -/
structure SosData.Has (data : SosData) (e : AnnounceElem) : Prop where
  guid : data.guid = e.guid
  name : data.name = e.name.take (sosDefaultStringLen - 1)
  type : data.type = e.type
  valMeta : data.valMeta = e.valMeta

/-- **Defining an element.** The name is not compared, so one that has the guid
already has to have the name as well. -/
theorem SosData.has_define {data : SosData} {e : AnnounceElem}
    (h : data.guid = e.guid → data.name = e.name.take (sosDefaultStringLen - 1)) :
    (data.define e).Has e := by
  unfold SosData.define
  split
  case isTrue => exact ⟨rfl, rfl, rfl, rfl⟩
  case isFalse hsame =>
    unfold SosData.Redefined at hsame
    push Not at hsame
    exact ⟨hsame.1, h hsame.1, hsame.2.1, hsame.2.2⟩

/-- Defining an element leaves its value. -/
theorem SosData.val_define (data : SosData) (e : AnnounceElem) : (data.define e).val = data.val := by
  unfold SosData.define
  split <;> rfl

end

/-! ## A PUBLISH -/

section

variable {pub pub' : SosPub}

theorem SosPub.elemAt_putElem (pub : SosPub) (pos : ℕ) (data : SosData) (pos' : ℕ) :
    (pub.putElem pos data).elemAt pos' = (pub.data ++ pub.spare |>.set pos data)[pos']? := by
  unfold SosPub.elemAt SosPub.putElem
  rw [List.set_append]
  split
  case isTrue => rfl
  case isFalse hge => rw [List.set_eq_of_length_le (not_lt.mp hge)]

/-- **One element of a PUBLISH**: only its position changes. -/
structure ReceivedElem (pub : SosPub) (e : PublishElem) (pub' : SosPub) : Prop where
  length : pub'.data.length = pub.data.length
  elemMax : pub'.elemMax = pub.elemMax
  other : ∀ pos, pos ≠ e.elem → pub'.elemOr pos = pub.elemOr pos
  elem : ∃ val, readVal (pub.elemOr e.elem) e.val = some val ∧
    pub'.elemOr e.elem = (pub.elemOr e.elem).receive e val
  rest : { pub' with data := pub.data, spare := pub.spare } = pub

theorem receiveElem_eq_some {e : PublishElem} (h : receiveElem pub e = some pub') :
    ReceivedElem pub e pub' := by
  simp only [receiveElem, Option.bind_eq_bind, Option.bind_eq_some_iff, Option.some.injEq] at h
  obtain ⟨data, hdata, val, hval, rfl⟩ := h
  have hlt : e.elem < (pub.data ++ pub.spare).length := (List.getElem?_eq_some_iff.mp hdata).1
  have hor := SosPub.elemOr_of_elemAt hdata
  have hspare : (if e.elem < pub.data.length then pub.spare
      else pub.spare.set (e.elem - pub.data.length) (data.receive e val)).length =
        pub.spare.length := by
    split
    · rfl
    · exact List.length_set
  refine ⟨List.length_set, ?_, fun pos hpos => ?_, ⟨val, hor ▸ hval, ?_⟩, rfl⟩
  · exact congrArg₂ (· + ·) List.length_set hspare
  · rw [SosPub.elemOr, SosPub.elemAt_putElem, List.getElem?_set_ne (Ne.symm hpos)]
    rfl
  · rw [SosPub.elemOr, SosPub.elemAt_putElem, List.getElem?_set_self hlt, Option.getD_some, hor]

/-- An element is received where one of its type is allocated. -/
theorem receiveElem_isSome {e : PublishElem} (hlt : e.elem < pub.elemMax)
    (htype : e.val.type = (pub.elemOr e.elem).type) : ∃ pub', receiveElem pub e = some pub' := by
  have hat := SosPub.elemAt_eq_some hlt
  have hval : ∃ val, readVal (pub.elemOr e.elem) e.val = some val := by
    rw [readVal, if_pos htype]
    split
    · exact ⟨_, rfl⟩
    · exact ⟨e.val, rfl⟩
  obtain ⟨val, hval⟩ := hval
  exact ⟨pub.putElem e.elem ((pub.elemOr e.elem).receive e val), by
    simp only [receiveElem, hat, hval, Option.bind_eq_bind, Option.bind_some]⟩

/-- **What a PUBLISH leaves alone** in an element, besides its position: the
guid, the name, the type and the sync flag. -/
structure SosData.SameIdentity (data data' : SosData) : Prop where
  guid : data'.guid = data.guid
  name : data'.name = data.name
  type : data'.type = data.type
  sync : data'.sync = data.sync

theorem SosData.SameIdentity.refl {data : SosData} : SameIdentity data data :=
  ⟨rfl, rfl, rfl, rfl⟩

theorem SosData.SameIdentity.trans {a b c : SosData} (h : SameIdentity a b)
    (h' : SameIdentity b c) : SameIdentity a c :=
  ⟨h'.guid.trans h.guid, h'.name.trans h.name, h'.type.trans h.type, h'.sync.trans h.sync⟩

/-- **A PUBLISH, as far as it does not matter what is in it.** -/
structure SosPub.Republished (pub pub' : SosPub) : Prop where
  length : pub'.data.length = pub.data.length
  elemMax : pub'.elemMax = pub.elemMax
  elem : ∀ pos, SosData.SameIdentity (pub.elemOr pos) (pub'.elemOr pos)
  rest : { pub' with data := pub.data, spare := pub.spare } = pub

theorem ReceivedElem.republished {e : PublishElem} (h : ReceivedElem pub e pub') :
    pub.Republished pub' := by
  refine ⟨h.length, h.elemMax, fun pos => ?_, h.rest⟩
  by_cases hpos : pos = e.elem
  · obtain ⟨val, -, helem⟩ := h.elem
    rw [hpos, helem]
    exact ⟨rfl, rfl, rfl, rfl⟩
  · rw [h.other pos hpos]
    exact .refl

theorem SosPub.Republished.trans {pub'' : SosPub} (h : pub.Republished pub')
    (h' : pub'.Republished pub'') : pub.Republished pub'' where
  length := h'.length.trans h.length
  elemMax := h'.elemMax.trans h.elemMax
  elem pos := (h.elem pos).trans (h'.elem pos)
  rest := by
    have hfields := congrArg
      (fun p : SosPub => { p with data := pub.data, spare := pub.spare }) h'.rest
    exact hfields.trans h.rest

theorem receiveElems_republished {elems : List PublishElem}
    (h : receiveElems pub elems = some pub') : pub.Republished pub' := by
  induction elems generalizing pub with
  | nil =>
      cases h
      exact ⟨rfl, rfl, fun _ => .refl, rfl⟩
  | cons e rest ih =>
      obtain ⟨mid, hmid, hrest⟩ := Option.bind_eq_some_iff.mp h
      exact (receiveElem_eq_some hmid).republished.trans (ih hrest)

/-- **The elements of a PUBLISH that come in their own types**, each for a
position of its own, are stored where they belong. -/
structure ReceivedElems (pub : SosPub) (elems : List PublishElem) (pub' : SosPub) : Prop where
  republished : pub.Republished pub'
  elem : ∀ e ∈ elems, pub'.elemOr e.elem = (pub.elemOr e.elem).receive e e.val
  other : ∀ pos, (∀ e ∈ elems, e.elem ≠ pos) → pub'.elemOr pos = pub.elemOr pos

/-- **An element that fits its position**: one of its type, which is not that of
a block. -/
structure PublishElem.Fits (e : PublishElem) (pub : SosPub) : Prop where
  allocated : e.elem < pub.elemMax
  type : e.val.type = (pub.elemOr e.elem).type
  notBytes : e.val.type ≠ .bytes

theorem PublishElem.Fits.republished {e : PublishElem} (h : e.Fits pub)
    (hpub : pub.Republished pub') : e.Fits pub' where
  allocated := hpub.elemMax ▸ h.allocated
  type := h.type.trans (hpub.elem e.elem).type.symm
  notBytes := h.notBytes

theorem receiveElems_eq_some {elems : List PublishElem} (hnodup : (elems.map (·.elem)).Nodup)
    (hfits : ∀ e ∈ elems, e.Fits pub) :
    ∃ pub', receiveElems pub elems = some pub' ∧ ReceivedElems pub elems pub' := by
  induction elems generalizing pub with
  | nil =>
      refine ⟨pub, rfl, ⟨rfl, rfl, fun _ => .refl, rfl⟩, ?_, fun pos _ => rfl⟩
      exact fun e he => absurd he List.not_mem_nil
  | cons e rest ih =>
      rw [List.forall_mem_cons] at hfits
      rw [List.map_cons, List.nodup_cons] at hnodup
      obtain ⟨hfirst, hrest⟩ := hfits
      obtain ⟨mid, hmid⟩ := receiveElem_isSome hfirst.allocated hfirst.type
      have hone := receiveElem_eq_some hmid
      have hval : mid.elemOr e.elem = (pub.elemOr e.elem).receive e e.val := by
        obtain ⟨val, hval, helem⟩ := hone.elem
        rw [readVal, if_neg (hfirst.type ▸ hfirst.notBytes), if_pos hfirst.type] at hval
        rw [helem, Option.some.inj hval]
      obtain ⟨pub', hpub', hall⟩ :=
        ih hnodup.2 fun e' he' => (hrest e' he').republished hone.republished
      have hne : ∀ e' ∈ rest, e'.elem ≠ e.elem := fun e' he' heq =>
        hnodup.1 (List.mem_map.mpr ⟨e', he', heq⟩)
      refine ⟨pub', ?_, hone.republished.trans hall.republished, ?_, fun pos hpos => ?_⟩
      · rw [receiveElems, hmid, Option.bind_some, hpub']
      · intro e' he'
        rcases List.mem_cons.mp he' with rfl | he'
        · rw [hall.other e'.elem hne, hval]
        · rw [hall.elem e' he', hone.other _ (hne e' he')]
      · rw [List.forall_mem_cons] at hpos
        rw [hall.other pos hpos.2, hone.other pos (Ne.symm hpos.1)]

end

/-! ## A VAL_SNAPS -/

/-- **A VAL_SNAPS that was handled**: its snapshots are behind those in the queue,
and every pub is as it was but for its cache. -/
structure Daemon.Ingested (d : Daemon) (g : SosGuid) (snaps : List SosValSnap) (d' : Daemon) :
    Prop where
  queue : d.snapQueue.isSome →
    d'.snapQueue = some (d.queue.pushAll (d.pushes g snaps))
  monitors : d'.monitors = d.monitors
  config : d'.config = d.config
  known : ∀ g', d'.pubTable g' = none ↔ d.pubTable g' = none
  pub : ∀ g', (d.pubFor g').Recached (d'.pubFor g')

theorem cacheReceived_recached (pub : SosPub) (copies : List SosValSnap) :
    Leaves (fun _ => True) pub.Recached (cacheReceived pub copies) := by
  unfold cacheReceived
  split
  case isTrue => exact sosPackSnapListIntoPubCache_recached pub copies
  case isFalse => exact .refl

/-- **A pub that can receive takes every list**, and only its cache and its frame change. -/
theorem SosPub.CanReceive.cacheReceived {pub : SosPub} (h : pub.CanReceive)
    (copies : List SosValSnap) :
    ∃ pub', cacheReceived pub copies = .ok pub' ∧ pub.Recached pub' := by
  have hreturns : ∃ pub', SosFlow.cacheReceived pub copies = .ok pub' := by
    unfold SosFlow.cacheReceived
    split
    case isTrue hcaches =>
      obtain ⟨pub', hpub', -⟩ :=
        sosPackSnapListIntoPubCache_returns (fun hpos => h hpos hcaches.2) copies
      exact ⟨pub', hpub'⟩
    case isFalse => exact ⟨pub, rfl⟩
  obtain ⟨pub', hpub'⟩ := hreturns
  exact ⟨pub', hpub', (cacheReceived_recached pub copies).of_ok hpub'⟩

/-- **The spec of the handler.** -/
theorem Daemon.handleValSnaps_eq_ok {d d' : Daemon} {g : SosGuid} {snaps : List SosValSnap}
    {clock : ℕ → Double} (h : d.handleValSnaps g snaps clock = .ok d') : d.Ingested g snaps d' := by
  unfold Daemon.handleValSnaps at h
  cases hg : d.pubTable g with
  | none =>
      rw [hg] at h
      cases h
      refine ⟨fun hsome => ?_, rfl, rfl, fun _ => Iff.rfl, fun _ => .refl⟩
      obtain ⟨q, hq⟩ := Option.isSome_iff_exists.mp hsome
      rw [Daemon.pushes, hg, Daemon.queue, hq, Option.getD_some]
      simp [SosPipe.pushAll]
  | some pub =>
      rw [hg] at h
      obtain ⟨⟨pub', queue'⟩, hread, hd⟩ := bind_eq_ok.mp h
      cases hd
      have hread' : pub.Recached pub' ∧
          queue' = d.snapQueue.map (·.pushAll (d.pushes g snaps)) := by
        rw [Daemon.pushes, hg]
        unfold sosValSnapQueueFromBuffer at hread
        split at hread
        case isTrue hempty =>
          cases hread
          refine ⟨.refl, ?_⟩
          rw [hempty]
          cases d.snapQueue <;> simp [SosPipe.pushAll]
        case isFalse =>
          obtain ⟨cached, hcached, heq⟩ := bind_eq_ok.mp hread
          cases heq
          exact ⟨(cacheReceived_recached _ _).of_ok hcached, rfl⟩
      obtain ⟨hpub, hpushed⟩ := hread'
      refine ⟨fun hsome => ?_, rfl, rfl, fun g' => ?_, fun g' => ?_⟩
      · obtain ⟨q, hq⟩ := Option.isSome_iff_exists.mp hsome
        change queue' = _
        rw [hpushed, Daemon.queue, hq, Option.map_some, Option.getD_some]
      · change (if g' = g then some pub' else d.pubTable g') = none ↔ _
        split
        case isTrue heq => simp [heq, hg]
        case isFalse => exact Iff.rfl
      · change SosPub.Recached _ ((if g' = g then some pub' else d.pubTable g').getD (d.newPub g'))
        split
        case isTrue heq =>
          rw [heq, Daemon.pubFor, hg, Option.getD_some, Option.getD_some]
          exact hpub
        case isFalse => exact .refl

/-! ## A PUBLISH of a client's elements -/

section

variable {send : Double} {list : List SosData}

/-- A value that is read as a type has that type. -/
theorem SosVal.type_readAs {v v' : SosVal} {t : ValType} (h : v.readAs t = some v') :
    v'.type = t := by
  cases t with
  | string =>
      cases v with
      | string c =>
          cases h
          rfl
      | _ => cases h
  | bytes =>
      cases v with
      | bytes b =>
          cases h
          rfl
      | _ => cases h
  | _ =>
      obtain ⟨w, -, rfl⟩ := Option.map_eq_some_iff.mp h
      rfl

/-- **What is published of an element**: its newest value as its type reads it. -/
theorem publishAt_eq_some {data : SosData} {pos : ℕ} {e : PublishElem} :
    publishAt send (data, pos) = some e ↔
      data.state = .dirty ∧ ∃ val, data.val.readAs data.type = some val ∧
        e = data.publish pos send val := by
  unfold publishAt
  split
  case isTrue hdirty =>
    have hstate : data.state = .dirty := hdirty
    rw [Option.map_eq_some_iff]
    exact ⟨fun ⟨val, hval, he⟩ => ⟨hstate, val, hval, he.symm⟩,
      fun ⟨_, val, hval, he⟩ => ⟨val, hval, he.symm⟩⟩
  case isFalse hclean => exact ⟨fun h => (by cases h), fun h => absurd h.1 hclean⟩

theorem mem_published {e : PublishElem} :
    e ∈ (list.zipIdx 0).filterMap (publishAt send) ↔
      ∃ data, list[e.elem]? = some data ∧ publishAt send (data, e.elem) = some e := by
  rw [List.mem_filterMap]
  constructor
  · rintro ⟨⟨data, pos⟩, hmem, he⟩
    have hpos : e.elem = pos := by
      obtain ⟨-, val, -, rfl⟩ := publishAt_eq_some.mp he
      rfl
    subst hpos
    exact ⟨data, List.mk_mem_zipIdx_iff_getElem?.mp hmem, he⟩
  · rintro ⟨data, hdata, he⟩
    exact ⟨(data, e.elem), List.mk_mem_zipIdx_iff_getElem?.mpr hdata, he⟩

/-- A PUBLISH carries each position at most once. -/
theorem nodup_published (send : Double) (list : List SosData) :
    (((list.zipIdx 0).filterMap (publishAt send)).map (·.elem)).Nodup := by
  have hsub : ∀ l : List (SosData × ℕ),
      List.Sublist ((l.filterMap (publishAt send)).map (·.elem)) (l.map (·.2)) := by
    intro l
    induction l with
    | nil => exact List.Sublist.slnil
    | cons p rest ih =>
        cases hp : publishAt send p with
        | none =>
            rw [List.filterMap_cons_none hp]
            exact ih.cons _
        | some e =>
            obtain ⟨-, val, -, rfl⟩ := publishAt_eq_some.mp hp
            rw [List.filterMap_cons_some hp]
            exact ih.cons_cons _
  refine (hsub _).nodup ?_
  rw [List.zipIdx_map_snd]
  exact List.nodup_range'

end

end SosFlow
