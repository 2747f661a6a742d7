import SosFlow.Database.Tasks
import SosFlow.Lib.History

/-!
# Handing definitions to the database

An ANNOUNCE marks the elements that are new, and a PUBLISH asks for them to
be inserted. It does so once: `sync_pending` says that a task of the pub is
on its way, and the thread of the database clears it under the lock of the
pub, before it looks for marked elements under the same lock. So an element
that is marked when a PUBLISH is handled has a task in front of it, whoever
pushed it.

The invariant says of every mark that its element was inserted, or still
waits, and that once a PUBLISH has been handled a task is outstanding.
-/

namespace SosFlow

open History Trace

namespace DbEvent

/-- The event marks an element. -/
def marks (g : SosGuid) (pos : ℕ) : DbEvent → Bool
  | marked g' pos' _ => g' = g ∧ pos' = pos
  | _ => false

/-- The event inserts an element. -/
def inserts (g : SosGuid) (pos : ℕ) : DbEvent → Bool
  | inserted g' pos' _ => g' = g ∧ pos' = pos
  | _ => false

/-- The columns it inserts. -/
def columns : DbEvent → Option DataColumns
  | inserted _ _ columns => some columns
  | _ => none

end DbEvent

namespace Database

/-- An element of a pub of the daemon. -/
def elem (s : Database) (g : SosGuid) (pos : ℕ) : SosData := (s.daemon.pubFor g).elemOr pos

/-- **What has become of a mark**, by what came after it: once a PUBLISH of the pub
has been handled, a task is outstanding or the element has been inserted. -/
def HandedOver (s : Database) (g : SosGuid) (pos : ℕ) (after : List DbEvent) : Prop :=
  (∀ type, .marked g pos type ∈ after → type ≠ .bytes) → .handled g ∈ after →
    .publish g ∈ s.outstanding ∨ ∃ columns, .inserted g pos columns ∈ after

/-- **The hand-off of definitions.** -/
structure HandedOff (s : Database) : Prop where
  once : ∀ g, s.outstanding.count (.publish g) ≤ 1
  pending : ∀ g, s.syncPending g = 1 ↔ s.outstanding.count (.publish g) = 1
  delivered : ∀ g pos type, type ≠ .bytes →
    Behind s.log (.marked g pos type) (s.HandedOver g pos)
  settled : ∀ g pos columns, Behind s.log (.inserted g pos columns) fun after =>
    (∀ type, .marked g pos type ∉ after) → (s.elem g pos).sync = .localSync
  counted : ∀ g pos, s.log.countP (DbEvent.inserts g pos) ≤ s.log.countP (DbEvent.marks g pos)
  rows : s.tblData.map (·.columns) = s.log.filterMap DbEvent.columns

/-- **An ANNOUNCE does not shrink** the elements of its pub. -/
def NeverShrinks (s : Database) : DbStep → Prop
  | .announce m => ∀ pub ∈ s.daemon.pubTable m.refGuid, pub.elemCount ≤ m.elems.length
  | _ => True

/-! ## What the steps do to an element -/

section

variable {s s' : Database}

/-- An element that is inserted by the next task of its pub. -/
def Waits (s : Database) (g : SosGuid) (pos : ℕ) : Prop :=
  pos < (s.daemon.pubFor g).elemCount ∧ (s.elem g pos).ToInsert

theorem pubFor_putPub (d : Daemon) (g g' : SosGuid) (pub : SosPub) :
    (d.putPub g pub).pubFor g' = if g' = g then pub else d.pubFor g' := by
  unfold Daemon.pubFor
  rw [Daemon.pubTable_putPub]
  split <;> rfl

/-- The elements an ANNOUNCE marks. -/
theorem mem_marks {m : AnnounceMsg} {event : DbEvent} :
    event ∈ s.marks m ↔ ∃ pos e, m.elems[pos]? = some e ∧ (s.elem m.refGuid pos).Redefined e ∧
      event = .marked m.refGuid pos e.type := by
  unfold marks
  rw [List.mem_filterMap]
  constructor
  · rintro ⟨⟨e, pos⟩, hmem, hevent⟩
    obtain ⟨hnew, heq⟩ := Option.ite_none_right_eq_some.mp hevent
    exact ⟨pos, e, List.mk_mem_zipIdx_iff_getElem?.mp hmem, hnew, (Option.some.inj heq).symm⟩
  · rintro ⟨pos, e, he, hnew, rfl⟩
    exact ⟨(e, pos), List.mk_mem_zipIdx_iff_getElem?.mpr he, if_pos hnew⟩

theorem pubFor_announce (s : Database) (m : AnnounceMsg) (g : SosGuid) :
    (s.announce m).daemon.pubFor g =
      if g = m.refGuid then
        { sosAnnounceFromBuffer (s.daemon.pubFor m.refGuid) m with announced := true }
      else s.daemon.pubFor g :=
  pubFor_putPub s.daemon m.refGuid g _

/-- **An element behind an ANNOUNCE** is marked, or it is as it was. -/
theorem elem_announce (s : Database) (m : AnnounceMsg) (g : SosGuid) (pos : ℕ) :
    (∃ type, .marked g pos type ∈ s.marks m ∧ ((s.announce m).elem g pos).sync = .renew ∧
      ((s.announce m).elem g pos).type = type ∧
      pos < ((s.announce m).daemon.pubFor g).elemCount) ∨
    (∀ type, .marked g pos type ∉ s.marks m) ∧ (s.announce m).elem g pos = s.elem g pos := by
  by_cases hg : g = m.refGuid
  · subst hg
    have hpub := s.pubFor_announce m m.refGuid
    rw [if_pos rfl] at hpub
    have helem : (s.announce m).elem m.refGuid pos =
        (sosAnnounceFromBuffer (s.daemon.pubFor m.refGuid) m).elemOr pos := by
      rw [elem, hpub]
      rfl
    have hcount : ((s.announce m).daemon.pubFor m.refGuid).elemCount = m.elems.length := by
      rw [hpub]
      exact length_data_announce _ m
    rw [elemOr_announce] at helem
    cases he : m.elems[pos]? with
    | none =>
        rw [he] at helem
        refine .inr ⟨fun type hmem => ?_, helem⟩
        obtain ⟨pos', e, he', -, heq⟩ := mem_marks.mp hmem
        cases heq
        exact absurd (he.symm.trans he') (by simp)
    | some e =>
        rw [he] at helem
        change _ = (s.elem m.refGuid pos).define e at helem
        by_cases hnew : (s.elem m.refGuid pos).Redefined e
        · rw [SosData.define, if_pos hnew] at helem
          refine .inl ⟨e.type, mem_marks.mpr ⟨pos, e, he, hnew, rfl⟩, ?_, ?_, ?_⟩
          · rw [helem]
          · rw [helem]
          · rw [hcount]
            exact (List.getElem?_eq_some_iff.mp he).1
        · refine .inr ⟨fun type hmem => ?_, ?_⟩
          · obtain ⟨pos', e', he', hnew', heq⟩ := mem_marks.mp hmem
            cases heq
            cases he.symm.trans he'
            exact hnew hnew'
          · rw [helem, SosData.define, if_neg hnew]
  · refine .inr ⟨fun type hmem => ?_, ?_⟩
    · obtain ⟨_, _, _, _, heq⟩ := mem_marks.mp hmem
      cases heq
      exact hg rfl
    · rw [elem, s.pubFor_announce m g, if_neg hg, elem]

/-- The elements that `SOSD_db_insert_data` inserts. -/
theorem mem_toInsert {pub : SosPub} {data : SosData} {pos : ℕ} :
    (data, pos) ∈ pub.toInsert ↔ pub.data[pos]? = some data ∧ data.ToInsert := by
  rw [SosPub.toInsert, List.mem_filter, List.mk_mem_zipIdx_iff_getElem?, decide_eq_true_iff]

/-- What it writes into the history. -/
def insertions (s : Database) (g : SosGuid) : List DbEvent :=
  (s.daemon.pubFor g).toInsert.map fun p => .inserted g p.2 ((s.daemon.pubFor g).dataColumns p.1)

theorem mem_insertions {g : SosGuid} {event : DbEvent} :
    event ∈ s.insertions g ↔ ∃ pos, s.Waits g pos ∧
      event = .inserted g pos ((s.daemon.pubFor g).dataColumns (s.elem g pos)) := by
  rw [insertions, List.mem_map]
  constructor
  · rintro ⟨⟨data, pos⟩, hmem, rfl⟩
    obtain ⟨hdata, hinsert⟩ := mem_toInsert.mp hmem
    obtain rfl : s.elem g pos = data := SosPub.elemOr_of_data hdata
    exact ⟨pos, ⟨(List.getElem?_eq_some_iff.mp hdata).1, hinsert⟩, rfl⟩
  · rintro ⟨pos, ⟨hlt, hinsert⟩, rfl⟩
    exact ⟨(s.elem g pos, pos), mem_toInsert.mpr ⟨SosPub.getElem?_data hlt, hinsert⟩, rfl⟩

theorem pubFor_insertData (s : Database) (g g' : SosGuid) :
    (s.insertData g).daemon.pubFor g' =
      if g' = g then (s.daemon.pubFor g).stored else s.daemon.pubFor g' :=
  pubFor_putPub s.daemon g g' _

theorem elemCount_insertData (s : Database) (g g' : SosGuid) :
    ((s.insertData g).daemon.pubFor g').elemCount = (s.daemon.pubFor g').elemCount := by
  rw [pubFor_insertData]
  split
  case isTrue heq =>
    rw [heq]
    exact List.length_map _
  case isFalse => rfl

theorem elemOr_stored (pub : SosPub) (pos : ℕ) :
    pub.stored.elemOr pos =
      if pos < pub.elemCount then (pub.elemOr pos).stored else pub.elemOr pos := by
  have hlen : pub.stored.data.length = pub.data.length := List.length_map _
  split
  case isTrue hlt =>
    refine SosPub.elemOr_of_data ?_
    change (pub.data.map _)[pos]? = _
    rw [List.getElem?_map, SosPub.getElem?_data hlt, Option.map_some]
  case isFalse hge =>
    have hle : pub.data.length ≤ pos := not_lt.mp hge
    rw [SosPub.elemOr, SosPub.elemOr, SosPub.elemAt, SosPub.elemAt,
      List.getElem?_append_right (hlen ▸ hle), List.getElem?_append_right hle, hlen]
    rfl

/-- **An element behind `SOSD_db_insert_data`** is inserted, or it is as it was. -/
theorem elem_insertData (s : Database) (g g' : SosGuid) (pos : ℕ) :
    (g' = g ∧ s.Waits g pos ∧ ((s.insertData g).elem g' pos).sync = .localSync) ∨
    (¬ (g' = g ∧ s.Waits g pos)) ∧ (s.insertData g).elem g' pos = s.elem g' pos := by
  by_cases hg : g' = g
  · subst hg
    have helem : (s.insertData g').elem g' pos =
        if pos < (s.daemon.pubFor g').elemCount then (s.elem g' pos).stored else s.elem g' pos := by
      rw [elem, pubFor_insertData, if_pos rfl, elemOr_stored]
      rfl
    by_cases hwaits : s.Waits g' pos
    · refine .inl ⟨rfl, hwaits, ?_⟩
      rw [helem, if_pos hwaits.1, SosData.stored, if_pos hwaits.2]
    · refine .inr ⟨fun h => hwaits h.2, ?_⟩
      rw [helem]
      split
      case isTrue hlt => rw [SosData.stored, if_neg fun hinsert => hwaits ⟨hlt, hinsert⟩]
      case isFalse => rfl
  · refine .inr ⟨fun h => hg h.1, ?_⟩
    rw [elem, pubFor_insertData, if_neg hg, elem]

/-- **A PUBLISH** leaves what an element is and whether it is marked. -/
theorem elem_publish {m : PublishMsg} (h : s.publish m = some s') (g : SosGuid) :
    (s'.daemon.pubFor g).elemCount = (s.daemon.pubFor g).elemCount ∧
      ∀ pos, (s.elem g pos).SameIdentity (s'.elem g pos) := by
  obtain ⟨d, hd, rfl⟩ := Option.map_eq_some_iff.mp h
  obtain ⟨pub', hpub', rfl⟩ := Option.map_eq_some_iff.mp hd
  have hrep := receiveElems_republished hpub'
  unfold elem
  rw [pubFor_putPub]
  split
  case isTrue heq =>
    rw [heq]
    exact ⟨hrep.length, hrep.elem⟩
  case isFalse => exact ⟨rfl, fun _ => .refl⟩

/-- So does a VAL_SNAPS. -/
theorem elem_ingested {d : Daemon} {g : SosGuid} {snaps : List SosValSnap}
    (h : s.daemon.Ingested g snaps d) (g' : SosGuid) (pos : ℕ) :
    (d.pubFor g').elemOr pos = s.elem g' pos := by
  rw [elem, SosPub.elemOr, SosPub.elemOr, SosPub.elemAt, SosPub.elemAt, (h.pub g').data,
    (h.pub g').spare]

/-- It inserts every element at most once. -/
theorem countP_insertions_le (s : Database) (g g' : SosGuid) (pos : ℕ) :
    (s.insertions g).countP (DbEvent.inserts g' pos) ≤ 1 := by
  have hsub : ((s.daemon.pubFor g).toInsert.map (·.2)).Sublist
      (((s.daemon.pubFor g).data.zipIdx 0).map (·.2)) := List.filter_sublist.map _
  rw [List.zipIdx_map_snd] at hsub
  have hnodup := hsub.nodup List.nodup_range'
  refine le_trans ?_ (List.nodup_iff_count_le_one.mp hnodup pos)
  rw [insertions, List.count, List.countP_map, List.countP_map]
  refine List.countP_mono_left fun p _ hp => ?_
  have hpos := of_decide_eq_true hp
  exact beq_iff_eq.mpr hpos.2

end

/-! ## The invariant -/

/-- An element that is marked counts for one. -/
def renewed (s : Database) (g : SosGuid) (pos : ℕ) : ℕ := if (s.elem g pos).sync = .renew then 1 else 0

/-- **What holds between any two steps.** An element that was marked was inserted,
or waits, with a task in front of it once a PUBLISH was handled. -/
structure HandOffInv (s : Database) : Prop where
  pending : ∀ g, s.syncPending g = 0 ∧ s.outstanding.count (.publish g) = 0 ∨
    s.syncPending g = 1 ∧ s.outstanding.count (.publish g) = 1
  delivered : ∀ g pos type, type ≠ .bytes → Behind s.log (.marked g pos type) fun after =>
    (∀ type, .marked g pos type ∈ after → type ≠ .bytes) →
      (∃ columns, .inserted g pos columns ∈ after) ∨
        s.Waits g pos ∧ (.handled g ∈ after → .publish g ∈ s.outstanding)
  settled : ∀ g pos columns, Behind s.log (.inserted g pos columns) fun after =>
    (∀ type, .marked g pos type ∉ after) → (s.elem g pos).sync = .localSync
  counted : ∀ g pos, s.log.countP (DbEvent.inserts g pos) + s.renewed g pos ≤
    s.log.countP (DbEvent.marks g pos)
  rows : s.tblData.map (·.columns) = s.log.filterMap DbEvent.columns

namespace HandOffInv

variable {s s' : Database}

theorem elem_start (config : SosConfig) (dbUpdateFrame : Bool) (g : SosGuid) (pos : ℕ) :
    (start config dbUpdateFrame).elem g pos = .blank := by
  change (([] : List SosData) ++ List.replicate sosDefaultElemMax .blank)[pos]?.getD .blank = _
  rw [List.nil_append, List.getElem?_replicate]
  split <;> rfl

theorem start (config : SosConfig) (dbUpdateFrame : Bool) :
    HandOffInv (.start config dbUpdateFrame) where
  pending _ := .inl ⟨rfl, rfl⟩
  delivered _ _ _ _ := behind_nil
  settled _ _ _ := behind_nil
  counted g pos := by
    rw [renewed, elem_start]
    exact le_rfl
  rows := rfl

/-- A task is outstanding when the flag is not zero. -/
theorem mem_outstanding (h : HandOffInv s) {g : SosGuid} (hne : s.syncPending g ≠ 0) :
    .publish g ∈ s.outstanding := by
  rcases h.pending g with ⟨hzero, -⟩ | ⟨-, hone⟩
  · exact absurd hzero hne
  · exact List.count_pos_iff.mp (by omega)

/-- **A step that leaves the elements alone**, and adds nothing to the history. -/
theorem frame (h : HandOffInv s) (hpending : s'.syncPending = s.syncPending)
    (hcount : ∀ g, s'.outstanding.count (.publish g) = s.outstanding.count (.publish g))
    (hlog : s'.log = s.log)
    (hlen : ∀ g, (s'.daemon.pubFor g).elemCount = (s.daemon.pubFor g).elemCount)
    (hsync : ∀ g pos, (s'.elem g pos).sync = (s.elem g pos).sync)
    (htype : ∀ g pos, (s'.elem g pos).type = (s.elem g pos).type)
    (hrows : s'.tblData.map (·.columns) = s.tblData.map (·.columns)) : HandOffInv s' := by
  have hwaits : ∀ g pos, s.Waits g pos → s'.Waits g pos := by
    rintro g pos ⟨hlt, hrenew, hbytes⟩
    exact ⟨hlen g ▸ hlt, (hsync g pos).trans hrenew, htype g pos ▸ hbytes⟩
  have hmem : ∀ g, .publish g ∈ s.outstanding → .publish g ∈ s'.outstanding := by
    intro g hg
    rw [← List.count_pos_iff] at hg ⊢
    rw [hcount]
    exact hg
  refine ⟨fun g => ?_, fun g pos type hne => ?_, fun g pos columns => ?_, fun g pos => ?_, ?_⟩
  · rw [hpending, hcount]
    exact h.pending g
  · rw [hlog]
    refine (h.delivered g pos type hne).mono fun after hafter hmarks => ?_
    refine (hafter hmarks).imp_right fun ⟨hw, hhandled⟩ => ?_
    exact ⟨hwaits g pos hw, fun hh => hmem g (hhandled hh)⟩
  · rw [hlog, hsync]
    exact h.settled g pos columns
  · rw [hlog, renewed, hsync]
    exact h.counted g pos
  · rw [hrows, hlog]
    exact h.rows

/-! ### An ANNOUNCE -/

/-- It only marks. -/
theorem marked_of_mem {m : AnnounceMsg} {event : DbEvent} (h : event ∈ s.marks m) :
    ∃ g pos type, event = .marked g pos type := by
  obtain ⟨pos, e, -, -, heq⟩ := mem_marks.mp h
  exact ⟨_, pos, e.type, heq⟩

/-- Its task is none of a PUBLISH. -/
theorem count_announce (s : Database) (m : AnnounceMsg) (g : SosGuid) :
    (s.announce m).outstanding.count (.publish g) = s.outstanding.count (.publish g) := by
  have hnone : (if s.daemon.pubTable m.refGuid = none then
      [DbTask.announce m.refGuid] else []).count (.publish g) = 0 := by
    refine List.count_eq_zero.mpr fun hmem => ?_
    split at hmem
    · cases List.mem_singleton.mp hmem
    · cases hmem
  change (s.pushing ++ _ ++ s.tasks.items ++ s.batch).count _ = _
  simp only [outstanding, List.count_append, hnone, Nat.add_zero]

theorem elemCount_le_announce {m : AnnounceMsg}
    (hok : ∀ pub ∈ s.daemon.pubTable m.refGuid, pub.elemCount ≤ m.elems.length) (g : SosGuid) :
    (s.daemon.pubFor g).elemCount ≤ ((s.announce m).daemon.pubFor g).elemCount := by
  rw [s.pubFor_announce m g]
  split
  case isTrue heq =>
    refine le_of_le_of_eq ?_ (length_data_announce _ m).symm
    rw [heq, Daemon.pubFor]
    cases hpub : s.daemon.pubTable m.refGuid with
    | none => exact Nat.zero_le _
    | some pub => exact hok pub hpub
  case isFalse => exact le_rfl

/-- A mark that was there: its element may be marked again. -/
theorem delivered_announce (h : HandOffInv s) {m : AnnounceMsg}
    (hok : ∀ pub ∈ s.daemon.pubTable m.refGuid, pub.elemCount ≤ m.elems.length) (g : SosGuid)
    (pos : ℕ) (type : ValType) (hne : type ≠ .bytes) :
    Behind (s.log ++ s.marks m) (.marked g pos type) fun after =>
      (∀ type, .marked g pos type ∈ after → type ≠ .bytes) →
        (∃ columns, .inserted g pos columns ∈ after) ∨
          (s.announce m).Waits g pos ∧
            (.handled g ∈ after → .publish g ∈ (s.announce m).outstanding) := by
  refine behind_append.mpr ⟨?_, ?_⟩
  · refine (h.delivered g pos type hne).mono fun after hafter hmarks => ?_
    rcases hafter fun t ht => hmarks t (List.mem_append_left _ ht) with
      ⟨columns, hins⟩ | ⟨hw, hhandled⟩
    · exact .inl ⟨columns, List.mem_append_left _ hins⟩
    refine .inr ⟨?_, fun hh => ?_⟩
    · rcases elem_announce s m g pos with ⟨t, ht, hsync, htype, hlt⟩ | ⟨-, hsame⟩
      · exact ⟨hlt, hsync, htype ▸ hmarks t (List.mem_append_right _ ht)⟩
      · exact ⟨lt_of_lt_of_le hw.1 (elemCount_le_announce hok g), hsame ▸ hw.2⟩
    · rcases List.mem_append.mp hh with hold | hnew
      · have hpos := List.count_pos_iff.mpr (hhandled hold)
        rw [← count_announce s m] at hpos
        exact List.count_pos_iff.mp hpos
      · obtain ⟨_, _, _, heq⟩ := marked_of_mem hnew
        cases heq
  · -- a mark of this ANNOUNCE
    refine behind_of_forall fun hmarked after hsub hmarks => .inr ⟨?_, fun hh => ?_⟩
    · rcases elem_announce s m g pos with ⟨t, ht, hsync, htype, hlt⟩ | ⟨hnone, -⟩
      · refine ⟨hlt, hsync, ?_⟩
        obtain ⟨p, e, he, -, heq⟩ := mem_marks.mp ht
        obtain ⟨p', e', he', -, heq'⟩ := mem_marks.mp hmarked
        cases heq
        cases heq'
        cases he.symm.trans he'
        exact htype ▸ hne
      · exact absurd hmarked (hnone type)
    · obtain ⟨_, _, _, heq⟩ := marked_of_mem (hsub hh)
      cases heq

theorem settled_announce (h : HandOffInv s) (m : AnnounceMsg) (g : SosGuid) (pos : ℕ)
    (columns : DataColumns) :
    Behind (s.log ++ s.marks m) (.inserted g pos columns) fun after =>
      (∀ type, .marked g pos type ∉ after) → ((s.announce m).elem g pos).sync = .localSync := by
  refine behind_append.mpr ⟨?_, behind_of_notMem fun hins => ?_⟩
  · refine (h.settled g pos columns).mono fun after hafter hmarks => ?_
    rcases elem_announce s m g pos with ⟨t, ht, -⟩ | ⟨-, hsame⟩
    · exact absurd (List.mem_append_right _ ht) (hmarks t)
    · rw [hsame]
      exact hafter fun t ht => hmarks t (List.mem_append_left _ ht)
  · obtain ⟨_, _, _, heq⟩ := marked_of_mem hins
    cases heq

theorem counted_announce (h : HandOffInv s) (m : AnnounceMsg) (g : SosGuid) (pos : ℕ) :
    (s.log ++ s.marks m).countP (DbEvent.inserts g pos) + (s.announce m).renewed g pos ≤
      (s.log ++ s.marks m).countP (DbEvent.marks g pos) := by
  have hnone : (s.marks m).countP (DbEvent.inserts g pos) = 0 := by
    refine List.countP_eq_zero.mpr fun event hevent => ?_
    obtain ⟨_, _, _, rfl⟩ := marked_of_mem hevent
    exact Bool.false_ne_true
  have hcounted := h.counted g pos
  have hrenewed : (s.announce m).renewed g pos ≤
      s.renewed g pos + (s.marks m).countP (DbEvent.marks g pos) := by
    rcases elem_announce s m g pos with ⟨t, ht, -⟩ | ⟨-, hsame⟩
    · have hpos : 0 < (s.marks m).countP (DbEvent.marks g pos) :=
        List.countP_pos_iff.mpr ⟨_, ht, decide_eq_true ⟨rfl, rfl⟩⟩
      unfold renewed
      split <;> omega
    · rw [renewed, hsame, ← renewed]
      omega
  rw [List.countP_append, List.countP_append, hnone]
  omega

/-- **An ANNOUNCE** marks elements and has no PUBLISH. -/
theorem announce (h : HandOffInv s) {m : AnnounceMsg}
    (hok : ∀ pub ∈ s.daemon.pubTable m.refGuid, pub.elemCount ≤ m.elems.length) :
    HandOffInv (s.announce m) where
  pending g := by
    rw [count_announce]
    exact h.pending g
  delivered := h.delivered_announce hok
  settled := h.settled_announce m
  counted := h.counted_announce m
  rows := by
    have hnone : (s.marks m).filterMap DbEvent.columns = [] := by
      refine List.filterMap_eq_nil_iff.mpr fun event hevent => ?_
      obtain ⟨_, _, _, rfl⟩ := marked_of_mem hevent
      rfl
    change s.tblData.map _ = (s.log ++ s.marks m).filterMap _
    rw [List.filterMap_append, hnone, List.append_nil]
    exact h.rows

/-! ### A PUBLISH -/

/-- **The test of `sync_pending`**: behind it a task is outstanding. -/
theorem flag (h : HandOffInv s) (g : SosGuid) : HandOffInv (s.flag g) := by
  have hpending : ∀ g', (s.flag g).syncPending g' = 0 ∧
        (s.flag g).outstanding.count (.publish g') = 0 ∨
      (s.flag g).syncPending g' = 1 ∧ (s.flag g).outstanding.count (.publish g') = 1 := by
    intro g'
    change (if s.syncPending g = 0 then _ else _ : SosGuid → CInt) g' = 0 ∧
        ((if s.syncPending g = 0 then _ else _) ++ s.tasks.items ++ s.batch).count _ = 0 ∨
      (if s.syncPending g = 0 then _ else _ : SosGuid → CInt) g' = 1 ∧
        ((if s.syncPending g = 0 then _ else _) ++ s.tasks.items ++ s.batch).count _ = 1
    by_cases hzero : s.syncPending g = 0
    · simp only [if_pos hzero]
      by_cases hg : g' = g
      · subst hg
        rcases h.pending g' with ⟨-, hcount⟩ | ⟨hone, -⟩
        · refine .inr ⟨Function.update_self .., ?_⟩
          simp only [outstanding, List.count_append] at hcount ⊢
          rw [List.count_singleton_self]
          omega
        · exact absurd (hone.symm.trans hzero) (by decide)
      · rw [Function.update_of_ne hg]
        have hother : [DbTask.publish g].count (.publish g') = 0 :=
          List.count_eq_zero.mpr fun hmem => hg (DbTask.publish.inj (List.mem_singleton.mp hmem))
        have hsame := h.pending g'
        simp only [outstanding, List.count_append] at hsame ⊢
        rw [hother]
        exact hsame
    · simp only [if_neg hzero]
      exact h.pending g'
  have hmem : ∀ g', .publish g' ∈ s.outstanding → .publish g' ∈ (s.flag g).outstanding := by
    intro g' hg'
    simp only [outstanding, Database.flag, List.mem_append] at hg' ⊢
    split
    · rw [List.mem_append]
      tauto
    · exact hg'
  have hflagged : .publish g ∈ (s.flag g).outstanding := by
    by_cases hzero : s.syncPending g = 0
    · simp only [outstanding, Database.flag, if_pos hzero, List.mem_append]
      exact .inl (.inl (.inr (List.mem_singleton_self _)))
    · exact hmem g (h.mem_outstanding hzero)
  refine ⟨hpending, fun g' pos type hne => behind_append.mpr ⟨?_, ?_⟩,
    fun g' pos columns => behind_append.mpr ⟨?_, ?_⟩, fun g' pos => ?_, ?_⟩
  · refine (h.delivered g' pos type hne).mono fun after hafter hmarks => ?_
    rcases hafter fun t ht => hmarks t (List.mem_append_left _ ht) with
      ⟨columns, hins⟩ | ⟨hw, hhandled⟩
    · exact .inl ⟨columns, List.mem_append_left _ hins⟩
    · refine .inr ⟨hw, fun hh => ?_⟩
      rcases List.mem_append.mp hh with hold | hnew
      · exact hmem g' (hhandled hold)
      · cases List.mem_singleton.mp hnew
        exact hflagged
  · exact behind_of_notMem fun hmarked => (by cases List.mem_singleton.mp hmarked)
  · refine (h.settled g' pos columns).mono fun after hafter hmarks => ?_
    exact hafter fun t ht => hmarks t (List.mem_append_left _ ht)
  · exact behind_of_notMem fun hins => (by cases List.mem_singleton.mp hins)
  · change (s.log ++ [DbEvent.handled g]).countP _ + s.renewed g' pos ≤
      (s.log ++ [DbEvent.handled g]).countP _
    rw [List.countP_append, List.countP_append]
    exact h.counted g' pos
  · change s.tblData.map _ = (s.log ++ [DbEvent.handled g]).filterMap _
    rw [List.filterMap_append]
    exact h.rows.trans (List.append_nil _).symm

/-! ### The task of a pub -/

/-- It only inserts. -/
theorem inserted_of_mem {g : SosGuid} {event : DbEvent} (h : event ∈ s.insertions g) :
    ∃ g' pos columns, event = .inserted g' pos columns := by
  obtain ⟨pos, -, heq⟩ := mem_insertions.mp h
  exact ⟨_, pos, _, heq⟩

/-- It is one of the outstanding tasks, and the flag is cleared. -/
theorem count_insertData {g : SosGuid} {rest : List DbTask} (hbatch : s.batch = .publish g :: rest)
    (g' : SosGuid) :
    s.outstanding.count (.publish g') =
      (Database.insertData { s with batch := rest } g).outstanding.count (.publish g') +
        if g' = g then 1 else 0 := by
  have hhead : (DbTask.publish g :: rest).count (.publish g') =
      rest.count (.publish g') + if g' = g then 1 else 0 := by
    split
    case isTrue heq => rw [heq, List.count_cons_self]
    case isFalse hne =>
      rw [List.count_cons_of_ne fun heq => hne (DbTask.publish.inj heq).symm, Nat.add_zero]
  change (s.pushing ++ s.tasks.items ++ s.batch).count _ =
    (s.pushing ++ s.tasks.items ++ rest).count _ + _
  rw [hbatch]
  simp only [List.count_append, hhead]
  omega

theorem pending_insertData (h : HandOffInv s) {g : SosGuid} {rest : List DbTask}
    (hbatch : s.batch = .publish g :: rest) (g' : SosGuid) :
    Function.update s.syncPending g 0 g' = 0 ∧
        (Database.insertData { s with batch := rest } g).outstanding.count (.publish g') = 0 ∨
      Function.update s.syncPending g 0 g' = 1 ∧
        (Database.insertData { s with batch := rest } g).outstanding.count (.publish g') = 1 := by
  have hsame := count_insertData hbatch g'
  by_cases hg : g' = g
  · subst hg
    rw [if_pos rfl] at hsame
    refine .inl ⟨Function.update_self .., ?_⟩
    rcases h.pending g' with ⟨-, hc⟩ | ⟨-, hc⟩ <;> omega
  · rw [if_neg hg, Nat.add_zero] at hsame
    rw [Function.update_of_ne hg, ← hsame]
    exact h.pending g'

/-- What waited in the pub is inserted, and what waits elsewhere has its task still. -/
theorem delivered_insertData (h : HandOffInv s) {g : SosGuid} {rest : List DbTask}
    (hbatch : s.batch = .publish g :: rest) (g' : SosGuid) (pos : ℕ) (type : ValType)
    (hne : type ≠ .bytes) :
    Behind (s.log ++ s.insertions g) (.marked g' pos type) fun after =>
      (∀ type, .marked g' pos type ∈ after → type ≠ .bytes) →
        (∃ columns, .inserted g' pos columns ∈ after) ∨
          (Database.insertData { s with batch := rest } g).Waits g' pos ∧
            (.handled g' ∈ after →
              .publish g' ∈ (Database.insertData { s with batch := rest } g).outstanding) := by
  refine behind_append.mpr ⟨?_, behind_of_notMem fun hmarked => ?_⟩
  · refine (h.delivered g' pos type hne).mono fun after hafter hmarks => ?_
    rcases hafter fun t ht => hmarks t (List.mem_append_left _ ht) with
      ⟨columns, hins⟩ | ⟨hw, hhandled⟩
    · exact .inl ⟨columns, List.mem_append_left _ hins⟩
    rcases Database.elem_insertData { s with batch := rest } g g' pos with
      ⟨rfl, hw', -⟩ | ⟨hnot, hsame⟩
    · exact .inl ⟨_, List.mem_append_right _ (mem_insertions.mpr ⟨pos, hw', rfl⟩)⟩
    have hg : g' ≠ g := by
      rintro rfl
      exact hnot ⟨rfl, hw⟩
    have hlen := Database.elemCount_insertData { s with batch := rest } g g'
    refine .inr ⟨⟨hlen ▸ hw.1, hsame ▸ hw.2⟩, fun hh => ?_⟩
    rcases List.mem_append.mp hh with hold | hnew
    · have hcount := count_insertData hbatch g'
      have hpos := List.count_pos_iff.mpr (hhandled hold)
      rw [if_neg hg, Nat.add_zero] at hcount
      rw [hcount] at hpos
      exact List.count_pos_iff.mp hpos
    · obtain ⟨_, _, _, heq⟩ := inserted_of_mem hnew
      cases heq
  · obtain ⟨_, _, _, heq⟩ := inserted_of_mem hmarked
    cases heq

theorem settled_insertData (h : HandOffInv s) (g : SosGuid) (rest : List DbTask) (g' : SosGuid)
    (pos : ℕ) (columns : DataColumns) :
    Behind (s.log ++ s.insertions g) (.inserted g' pos columns) fun after =>
      (∀ type, .marked g' pos type ∉ after) →
        ((Database.insertData { s with batch := rest } g).elem g' pos).sync = .localSync := by
  refine behind_append.mpr ⟨?_, behind_of_forall fun hins after _ _ => ?_⟩
  · refine (h.settled g' pos columns).mono fun after hafter hmarks => ?_
    rcases Database.elem_insertData { s with batch := rest } g g' pos with ⟨-, -, hlocal⟩ | ⟨-, hsame⟩
    · exact hlocal
    · rw [hsame]
      exact hafter fun t ht => hmarks t (List.mem_append_left _ ht)
  · obtain ⟨pos', hw, heq⟩ := mem_insertions.mp hins
    cases heq
    rcases Database.elem_insertData { s with batch := rest } g g pos with ⟨-, -, hlocal⟩ | ⟨hnot, -⟩
    · exact hlocal
    · exact absurd ⟨rfl, hw⟩ hnot

/-- An insertion uses up the mark of its element. -/
theorem counted_insertData (h : HandOffInv s) (g : SosGuid) (rest : List DbTask) (g' : SosGuid)
    (pos : ℕ) :
    (s.log ++ s.insertions g).countP (DbEvent.inserts g' pos) +
        (Database.insertData { s with batch := rest } g).renewed g' pos ≤
      (s.log ++ s.insertions g).countP (DbEvent.marks g' pos) := by
  have hcounted := h.counted g' pos
  have hnone : (s.insertions g).countP (DbEvent.marks g' pos) = 0 := by
    refine List.countP_eq_zero.mpr fun event hevent => ?_
    obtain ⟨_, _, _, rfl⟩ := inserted_of_mem hevent
    exact Bool.false_ne_true
  rw [List.countP_append, List.countP_append, hnone]
  rcases Database.elem_insertData { s with batch := rest } g g' pos with
    ⟨rfl, hw, hlocal⟩ | ⟨hnot, hsame⟩
  · have hrenew : s.renewed g' pos = 1 := if_pos hw.2.1
    have hspent : (Database.insertData { s with batch := rest } g').renewed g' pos = 0 := by
      rw [renewed, hlocal]
      rfl
    have hle := countP_insertions_le s g' g' pos
    omega
  · have hins : (s.insertions g).countP (DbEvent.inserts g' pos) = 0 := by
      refine List.countP_eq_zero.mpr fun event hevent hcounts => hnot ?_
      obtain ⟨pos', hw, rfl⟩ := mem_insertions.mp hevent
      obtain ⟨hg, hpos⟩ := of_decide_eq_true hcounts
      exact ⟨hg.symm, hpos ▸ hw⟩
    have hsame' : (Database.insertData { s with batch := rest } g).renewed g' pos =
        s.renewed g' pos := by
      rw [renewed, hsame]
      rfl
    omega

/-- **The task of a pub**: what waits is inserted. -/
theorem insertData (h : HandOffInv s) {g : SosGuid} {rest : List DbTask}
    (hbatch : s.batch = .publish g :: rest) :
    HandOffInv (Database.insertData { s with batch := rest } g) where
  pending := h.pending_insertData hbatch
  delivered := h.delivered_insertData hbatch
  settled := h.settled_insertData g rest
  counted := h.counted_insertData g rest
  rows := by
    change List.map _ (s.tblData ++ List.map _ (s.daemon.pubFor g).toInsert) =
      List.filterMap _ (s.log ++ List.map _ (s.daemon.pubFor g).toInsert)
    have hcolumns : (DbEvent.columns ∘ fun p : SosData × ℕ =>
        .inserted g p.2 ((s.daemon.pubFor g).dataColumns p.1)) =
          some ∘ fun p : SosData × ℕ => (s.daemon.pubFor g).dataColumns p.1 := rfl
    rw [List.filterMap_append, ← h.rows, List.map_append, List.map_map, List.filterMap_map,
      hcolumns, List.filterMap_eq_map]
    rfl

/-- **Every step** keeps the invariant, if no ANNOUNCE shrinks its pub. -/
theorem step (s : Database) (step : DbStep) (s' : Database) (h : HandOffInv s)
    (hok : s.NeverShrinks step) (hstep : dbStep s step = some s') : HandOffInv s' := by
  cases moves hstep with
  | announce m => exact h.announce hok
  | @publish m d hd =>
      have helem := elem_publish hstep
      exact h.frame rfl (fun _ => rfl) rfl (fun g => (helem g).1)
        (fun g pos => ((helem g).2 pos).sync) (fun g pos => ((helem g).2 pos).type) rfl
  | @flag g => exact h.flag g
  | dropped => exact h
  | @valSnaps g snaps clock d hd =>
      refine h.frame rfl (fun g' => ?_) rfl (fun g' => ?_) (fun g' pos => ?_) (fun g' pos => ?_) rfl
      · change (s.pushing ++ [DbTask.valSnaps] ++ s.tasks.items ++ s.batch).count (.publish g') = _
        have hnone : [DbTask.valSnaps].count (.publish g') = 0 :=
          List.count_eq_zero.mpr fun hmem => (by cases List.mem_singleton.mp hmem)
        simp only [outstanding, List.count_append, hnone, Nat.add_zero]
      · exact congrArg List.length (hd.pub g').data
      · exact congrArg SosData.sync (elem_ingested hd g' pos)
      · exact congrArg SosData.type (elem_ingested hd g' pos)
  | push ht =>
      exact h.frame rfl (fun g => (outstanding_push ht).count_eq _) rfl (fun _ => rfl)
        (fun _ _ => rfl) (fun _ _ => rfl) rfl
  | pop hempty =>
      exact h.frame rfl (fun g => (outstanding_pop hempty).count_eq _) rfl (fun _ => rfl)
        (fun _ _ => rfl) (fun _ _ => rfl) rfl
  | @run t rest hgrabbed hbatch =>
      have hperm := outstanding_runTask_perm hbatch
      have hcount : ∀ g, t ≠ .publish g →
          ({ s with batch := rest }.runTask t).outstanding.count (DbTask.publish g) =
            s.outstanding.count (.publish g) := by
        intro g hne
        rw [hperm.count_eq, List.count_cons_of_ne hne]
      cases t with
      | announce g =>
          exact h.frame rfl (fun g' => hcount g' fun heq => (by cases heq)) rfl (fun _ => rfl)
            (fun _ _ => rfl) (fun _ _ => rfl) rfl
      | publish g => exact h.insertData hbatch
      | valSnaps =>
          have hcount' := fun g' => hcount g' fun heq => (by cases heq)
          obtain ⟨snapQueue, grabbed, heq⟩ := grab_frame { s with batch := rest }
          rw [runTask, heq] at hcount' ⊢
          exact h.frame rfl hcount' rfl (fun _ => rfl) (fun _ _ => rfl) (fun _ _ => rfl) rfl
  | insert =>
      obtain ⟨tblPubs, tblData, pubNotes, valNotes, heq, hrows⟩ := s.insertVals_frame
      rw [heq]
      exact h.frame rfl (fun _ => rfl) rfl (fun _ => rfl) (fun _ _ => rfl) (fun _ _ => rfl) hrows

/-- **What the invariant says of the hand-off.** -/
theorem handedOff (h : HandOffInv s) : s.HandedOff where
  once g := by
    rcases h.pending g with ⟨-, hcount⟩ | ⟨-, hcount⟩ <;> omega
  pending g := by
    rcases h.pending g with ⟨hzero, hcount⟩ | ⟨hone, hcount⟩
    · rw [hzero, hcount]
      decide
    · exact iff_of_true hone hcount
  delivered g pos type hne := by
    refine (h.delivered g pos type hne).mono fun after hafter hmarks hhandled => ?_
    rcases hafter hmarks with hins | ⟨-, hout⟩
    · exact .inr hins
    · exact .inl (hout hhandled)
  settled := h.settled
  counted g pos := le_trans (Nat.le_add_right _ _) (h.counted g pos)
  rows := h.rows

end HandOffInv

end Database

/-- **Definitions are handed to the database** in every state that a run reaches,
if no ANNOUNCE shrinks the elements of its pub. -/
theorem definitions_handed_off {config : SosConfig} {dbUpdateFrame : Bool} {steps : List DbStep}
    {s : Database}
    (hok : Along dbStep Database.NeverShrinks (.start config dbUpdateFrame) steps)
    (hrun : run dbStep (.start config dbUpdateFrame) steps = some s) : s.HandedOff :=
  (run_invariant Database.HandOffInv.step (Database.HandOffInv.start _ _) hok hrun).handedOff

instance (s : Database) (step : DbStep) : Decidable (s.NeverShrinks step) := by
  cases step <;> unfold Database.NeverShrinks <;> infer_instance

/-- An element is marked again while the task of its first mark is in the queue. -/
def remarkedSteps : List DbStep :=
  let pub := sosPubInit plainConfig 5 .empty 0
  let data := { SosData.blank with guid := 9, name := nameX }
  [.announce { pub with data := [data] }.announceMsg, .publish ⟨5, 0, []⟩, .flag 5,
    .push (.announce 5), .push (.publish 5),
    .announce { pub with data := [{ data with type := .long }] }.announceMsg, .publish ⟨5, 1, []⟩,
    .flag 5, .pop, .run, .run]

theorem definitions_handed_off_remarked :
    ∃ s, run dbStep (.start plainConfig true) remarkedSteps = some s ∧ s.HandedOff ∧
      s.tblData.length = 1 := by
  have hrun : ((run dbStep (.start plainConfig true) remarkedSteps).map fun s =>
      s.tblData.length) = some 1 := by decide +kernel
  obtain ⟨s, hs, hlen⟩ := Option.map_eq_some_iff.mp hrun
  exact ⟨s, hs, definitions_handed_off (by decide +kernel) hs, hlen⟩

end SosFlow
