import SosFlow.Database.Tasks

/-!
# The frame of the newest snapshot

`latest_frame` is zero in a new row, and every UPDATE sets it to the frame of
the newest snapshot that was inserted. The UPDATE for a snapshot comes when
it is inserted, and only then. A task for snapshots may be ahead of the task
that inserts the row, since it also takes the snapshots that belong to later
ones, and the note is clean from then on.

So `latest_frame` is right as long as no row is inserted for something that
has a snapshot already, and as long as the frames fit the `int` they are
kept in.
-/

namespace SosFlow

open Trace

/-- The newest snapshot of a pub or of an element. -/
def lastOf (key : SosValSnap → SosGuid) (snaps : List SosValSnap) (g : SosGuid) :
    Option SosValSnap :=
  (snaps.filter (key · = g)).getLast?

section

variable {key : SosValSnap → SosGuid} {snaps : List SosValSnap} {g : SosGuid}

theorem lastOf_append (snaps snaps' : List SosValSnap) :
    lastOf key (snaps ++ snaps') g = (lastOf key snaps' g).or (lastOf key snaps g) := by
  rw [lastOf, List.filter_append, List.getLast?_append]
  rfl

theorem lastOf_singleton (snap : SosValSnap) :
    lastOf key [snap] g = if key snap = g then some snap else none := by
  by_cases h : key snap = g <;> simp [lastOf, h]

theorem lastOf_eq_none : lastOf key snaps g = none ↔ ∀ snap ∈ snaps, key snap ≠ g := by
  rw [lastOf, List.getLast?_eq_none_iff, List.filter_eq_nil_iff]
  simp only [decide_eq_true_eq, ne_eq]

theorem lastOf_mem {snap : SosValSnap} (h : lastOf key snaps g = some snap) : snap ∈ snaps :=
  List.mem_of_mem_filter (List.mem_of_getLast? h)

end

/-! ## Notes and their UPDATEs -/

section

variable {noteKey : FrameNote → SosGuid} {notes : List FrameNote}

/-- **A note after some snapshots**: it has the frame of the newest one, or it is as
clean as it was. -/
def FrameNote.Tells (n : FrameNote) : Option SosValSnap → Prop
  | some snap => n.dirty = true ∧ n.frame = snap.intFrame
  | none => n.dirty = false

/-- One more snapshot is noted. -/
theorem tells_noteFrame (hkey : ∀ n frame dirty, noteKey { n with frame, dirty } = noteKey n)
    {last : SosGuid → Option SosValSnap} (h : ∀ n ∈ notes, n.Tells (last (noteKey n)))
    (snap : SosValSnap) :
    ∀ n ∈ noteFrame noteKey notes snap,
      n.Tells (if noteKey snap.note = noteKey n then some snap else last (noteKey n)) := by
  intro n hn
  unfold noteFrame at hn
  split at hn
  case isTrue =>
    obtain ⟨n₀, hn₀, rfl⟩ := List.mem_map.mp hn
    have hkept := hkey n₀ snap.intFrame true
    by_cases hsame : noteKey n₀ = noteKey snap.note
    · rw [if_pos hsame, hkept, if_pos hsame.symm]
      exact ⟨rfl, rfl⟩
    · rw [if_neg hsame, if_neg (Ne.symm hsame)]
      exact h n₀ hn₀
  case isFalse hnew =>
    rcases List.mem_cons.mp hn with rfl | hold
    · rw [if_pos rfl]
      exact ⟨rfl, rfl⟩
    · rw [if_neg fun heq => hnew ⟨n, hold, heq.symm⟩]
      exact h n hold

/-- Every snapshot has a note. -/
theorem exists_noteFrame (hkey : ∀ n frame dirty, noteKey { n with frame, dirty } = noteKey n)
    (notes : List FrameNote) (snap : SosValSnap) {g : SosGuid}
    (hg : (∃ n ∈ notes, noteKey n = g) ∨ noteKey snap.note = g) :
    ∃ n ∈ noteFrame noteKey notes snap, noteKey n = g := by
  unfold noteFrame
  split
  case isTrue hthere =>
    have hold : ∃ n ∈ notes, noteKey n = g := by
      rcases hg with hg | rfl
      · exact hg
      · exact hthere
    obtain ⟨n, hn, hng⟩ := hold
    refine ⟨_, List.mem_map_of_mem hn, ?_⟩
    split
    · rw [hkey, hng]
    · exact hng
  case isFalse =>
    rcases hg with ⟨n, hn, hng⟩ | hg
    · exact ⟨n, List.mem_cons_of_mem _ hn, hng⟩
    · exact ⟨snap.note, List.mem_cons_self, hg⟩

/-- **The notes after a list of snapshots.** -/
theorem foldl_noteFrame (hkey : ∀ n frame dirty, noteKey { n with frame, dirty } = noteKey n)
    (hclean : ∀ n ∈ notes, n.dirty = false) (snaps : List SosValSnap) :
    (∀ n ∈ snaps.foldl (noteFrame noteKey) notes,
      n.Tells (lastOf (noteKey ·.note) snaps (noteKey n))) ∧
    ∀ snap ∈ snaps, ∃ n ∈ snaps.foldl (noteFrame noteKey) notes, noteKey n = noteKey snap.note := by
  induction snaps using List.reverseRecOn with
  | nil => exact ⟨hclean, fun snap hsnap => absurd hsnap List.not_mem_nil⟩
  | append_singleton snaps snap ih =>
      rw [List.foldl_append, List.foldl_cons, List.foldl_nil]
      refine ⟨fun n hn => ?_, fun snap' hsnap' => ?_⟩
      · have htells := tells_noteFrame hkey ih.1 snap n hn
        rw [lastOf_append, lastOf_singleton]
        split at htells
        case isTrue heq =>
          rw [if_pos heq]
          exact htells
        case isFalse hne =>
          rw [if_neg hne]
          exact htells
      · refine exists_noteFrame hkey _ snap ?_
        rcases List.mem_append.mp hsnap' with hold | hnew
        · exact .inl (ih.2 snap' hold)
        · exact .inr (congrArg _ (congrArg _ (List.mem_singleton.mp hnew).symm))

variable {α : Type} {key : α → SosGuid}

/-- **A row behind the UPDATEs** has the frame of a dirty note with its guid, or there
is none. -/
theorem mem_updateFrames {rows : List (DbRow α)} {row : DbRow α}
    (h : row ∈ updateFrames key noteKey rows notes) :
    ∃ old ∈ rows, row.columns = old.columns ∧
      ((∃ n ∈ notes, n.dirty = true ∧ noteKey n = key row.columns ∧ row.latestFrame = n.frame) ∨
        (∀ n ∈ notes, n.dirty = true → noteKey n ≠ key row.columns) ∧
          row.latestFrame = old.latestFrame) := by
  induction notes generalizing rows with
  | nil => exact ⟨row, h, rfl, .inr ⟨fun _ hn => absurd hn List.not_mem_nil, rfl⟩⟩
  | cons n rest ih =>
      rw [updateFrames, List.foldl_cons] at h
      obtain ⟨mid, hmid, hcolumns, hlast⟩ := ih h
      -- what the first note does to the row
      have hfirst : ∃ old ∈ rows, mid.columns = old.columns ∧
          (n.dirty = true ∧ noteKey n = key mid.columns ∧ mid.latestFrame = n.frame ∨
            (n.dirty = true → noteKey n ≠ key mid.columns) ∧ mid.latestFrame = old.latestFrame) := by
        split at hmid
        case isTrue hdirty =>
          obtain ⟨old, hold, rfl⟩ := List.mem_map.mp hmid
          refine ⟨old, hold, ?_⟩
          by_cases hkey : key old.columns = noteKey n
          · rw [if_pos hkey]
            exact ⟨rfl, .inl ⟨hdirty, hkey.symm, rfl⟩⟩
          · rw [if_neg hkey]
            exact ⟨rfl, .inr ⟨fun _ heq => hkey heq.symm, rfl⟩⟩
        case isFalse hclean => exact ⟨mid, hmid, rfl, .inr ⟨fun hdirty => absurd hdirty hclean, rfl⟩⟩
      obtain ⟨old, hold, hold', hfirst⟩ := hfirst
      refine ⟨old, hold, hcolumns.trans hold', ?_⟩
      rw [← hcolumns] at hfirst
      rcases hlast with ⟨n', hn', hdirty, hkey, hframe⟩ | ⟨hnone, hframe⟩
      · exact .inl ⟨n', List.mem_cons_of_mem _ hn', hdirty, hkey, hframe⟩
      · rcases hfirst with ⟨hdirty, hkey, hframe'⟩ | ⟨hother, hframe'⟩
        · exact .inl ⟨n, List.mem_cons_self, hdirty, hkey, hframe.trans hframe'⟩
        · exact .inr ⟨List.forall_mem_cons.mpr ⟨hother, hnone⟩, hframe.trans hframe'⟩

/-- **The rows have the frames of the newest snapshots.** -/
def LatestRows (key : α → SosGuid) (snapKey : SosValSnap → SosGuid) (rows : List (DbRow α))
    (inserted : List SosValSnap) : Prop :=
  ∀ row ∈ rows, ∀ snap, lastOf snapKey inserted (key row.columns) = some snap →
    row.latestFrame.toInt = snap.frame.toInt

variable {rows : List (DbRow α)} {inserted : List SosValSnap}

/-- **Inserting snapshots** keeps that up. -/
theorem LatestRows.insertVals (h : LatestRows key (noteKey ·.note) rows inserted)
    (hkey : ∀ n frame dirty, noteKey { n with frame, dirty } = noteKey n)
    (hclean : ∀ n ∈ notes, n.dirty = false) {snaps : List SosValSnap}
    (hfits : ∀ snap ∈ snaps, snap.intFrame.toInt = snap.frame.toInt) :
    LatestRows key (noteKey ·.note)
      (updateFrames key noteKey rows (snaps.foldl (noteFrame noteKey) notes))
      (inserted ++ snaps) := by
  intro row hrow snap hsnap
  obtain ⟨htells, hall⟩ := foldl_noteFrame hkey hclean snaps
  obtain ⟨old, hold, hcolumns, hupdate⟩ := mem_updateFrames hrow
  rw [lastOf_append] at hsnap
  rcases hupdate with ⟨n, hn, hdirty, hnkey, hframe⟩ | ⟨hnone, hframe⟩
  · have htold := htells n hn
    rw [hnkey] at htold
    cases hlast : lastOf (noteKey ·.note) snaps (key row.columns) with
    | none =>
        rw [hlast] at htold
        exact absurd (hdirty.symm.trans htold) (by decide)
    | some newest =>
        rw [hlast, Option.some_or] at hsnap
        cases hsnap
        rw [hlast] at htold
        rw [hframe, htold.2]
        exact hfits snap (lastOf_mem hlast)
  · have hlast : lastOf (noteKey ·.note) snaps (key row.columns) = none := by
      refine lastOf_eq_none.mpr fun snap' hsnap' heq => ?_
      obtain ⟨n, hn, hnkey⟩ := hall snap' hsnap'
      have htold := htells n hn
      rw [hnkey, heq] at htold
      cases hnewest : lastOf (noteKey ·.note) snaps (key row.columns) with
      | none => exact lastOf_eq_none.mp hnewest snap' hsnap' heq
      | some newest =>
          rw [hnewest] at htold
          exact hnone n hn htold.1 (hnkey.trans heq)
    rw [hlast, Option.none_or, hcolumns] at hsnap
    rw [hframe]
    exact h old hold snap hsnap

/-- **New rows** of what has no snapshot. -/
theorem LatestRows.append (h : LatestRows key (noteKey ·.note) rows inserted)
    {new : List (DbRow α)}
    (hnew : ∀ row ∈ new, ∀ snap ∈ inserted, noteKey snap.note ≠ key row.columns) :
    LatestRows key (noteKey ·.note) (rows ++ new) inserted := by
  intro row hrow snap hsnap
  rcases List.mem_append.mp hrow with hold | hrow
  · exact h row hold snap hsnap
  · rw [lastOf_eq_none.mpr (hnew row hrow)] at hsnap
    cases hsnap

end

/-! ## The invariant -/

namespace Database

/-- **`latest_frame` is right** in both tables. -/
structure LatestFrames (s : Database) : Prop where
  pubs : LatestRows PubColumns.guid SosValSnap.pubGuid s.tblPubs s.inserted
  data : LatestRows DataColumns.guid SosValSnap.guid s.tblData s.inserted

/-- Nothing is left to do: no task, no batch, and no snapshot. -/
def Drained (s : Database) : Prop :=
  s.outstanding = [] ∧ s.grabbed = [] ∧ s.daemon.queue.items = []

instance (s : Database) : Decidable s.Drained := by
  unfold Drained
  infer_instance

/-- **The row comes first**: a pub or an element is inserted before any snapshot of
its guid. The frames that are inserted fit an `int`. -/
def RowFirst (s : Database) : DbStep → Prop
  | .run => match s.batch with
    | .announce g :: _ => ∀ snap ∈ s.inserted, snap.pubGuid ≠ (s.daemon.pubFor g).guid
    | .publish g :: _ =>
      ∀ p ∈ (s.daemon.pubFor g).toInsert, ∀ snap ∈ s.inserted, snap.guid ≠ p.1.guid
    | _ => True
  | .insert => ∀ snap ∈ s.grabbed, snap.intFrame.toInt = snap.frame.toInt
  | _ => True

/-- **What holds between any two steps**: no note is dirty. -/
structure FramesInv (s : Database) : Prop where
  enabled : s.dbUpdateFrame = true
  pubNotes : ∀ n ∈ s.pubNotes, n.dirty = false
  valNotes : ∀ n ∈ s.valNotes, n.dirty = false
  latest : s.LatestFrames

namespace FramesInv

variable {s s' : Database}

theorem start (config : SosConfig) : FramesInv (.start config true) where
  enabled := rfl
  pubNotes _ hn := absurd hn List.not_mem_nil
  valNotes _ hn := absurd hn List.not_mem_nil
  latest := ⟨fun _ hrow => absurd hrow List.not_mem_nil, fun _ hrow => absurd hrow List.not_mem_nil⟩

/-- A step that leaves the tables alone. -/
theorem frame (h : FramesInv s) (henabled : s'.dbUpdateFrame = s.dbUpdateFrame)
    (hpubs : s'.tblPubs = s.tblPubs) (hdata : s'.tblData = s.tblData)
    (hinserted : s'.inserted = s.inserted) (hpubNotes : s'.pubNotes = s.pubNotes)
    (hvalNotes : s'.valNotes = s.valNotes) : FramesInv s' where
  enabled := henabled.trans h.enabled
  pubNotes := hpubNotes ▸ h.pubNotes
  valNotes := hvalNotes ▸ h.valNotes
  latest := by
    constructor
    · rw [hpubs, hinserted]
      exact h.latest.pubs
    · rw [hdata, hinserted]
      exact h.latest.data

theorem cleanNotes_clean (notes : List FrameNote) : ∀ n ∈ cleanNotes notes, n.dirty = false := by
  intro n hn
  obtain ⟨n', -, rfl⟩ := List.mem_map.mp hn
  rfl

/-- **Snapshots are inserted**, with their notes and UPDATEs. -/
theorem insertVals (h : FramesInv s)
    (hfits : ∀ snap ∈ s.grabbed, snap.intFrame.toInt = snap.frame.toInt) :
    FramesInv s.insertVals := by
  unfold Database.insertVals
  rw [if_pos h.enabled]
  refine ⟨h.enabled, cleanNotes_clean _, cleanNotes_clean _, ?_, ?_⟩
  · have hpubs : LatestRows PubColumns.guid (FrameNote.pubGuid ·.note) s.tblPubs s.inserted :=
      h.latest.pubs
    exact hpubs.insertVals (fun _ _ _ => rfl) h.pubNotes hfits
  · have hdata : LatestRows DataColumns.guid (FrameNote.guid ·.note) s.tblData s.inserted :=
      h.latest.data
    exact hdata.insertVals (fun _ _ _ => rfl) h.valNotes hfits

/-- **Every step** whose row comes first keeps the invariant. -/
theorem step (s : Database) (step : DbStep) (s' : Database) (h : FramesInv s)
    (hok : s.RowFirst step) (hstep : dbStep s step = some s') : FramesInv s' := by
  cases moves hstep with
  | dropped => exact h
  | @run t rest hgrabbed hbatch =>
      unfold RowFirst at hok
      rw [hbatch] at hok
      cases t with
      | announce g =>
          have hpubs : LatestRows PubColumns.guid (FrameNote.pubGuid ·.note) s.tblPubs s.inserted :=
            h.latest.pubs
          refine ⟨h.enabled, h.pubNotes, h.valNotes, hpubs.append fun row hrow => ?_, h.latest.data⟩
          rw [List.mem_singleton.mp hrow]
          exact hok
      | publish g =>
          have hdata : LatestRows DataColumns.guid (FrameNote.guid ·.note) s.tblData s.inserted :=
            h.latest.data
          refine ⟨h.enabled, h.pubNotes, h.valNotes, h.latest.pubs, hdata.append fun row hrow => ?_⟩
          obtain ⟨p, hp, rfl⟩ := List.mem_map.mp hrow
          exact hok p hp
      | valSnaps =>
          obtain ⟨snapQueue, grabbed, heq⟩ := grab_frame { s with batch := rest }
          rw [runTask, heq]
          exact h.frame rfl rfl rfl rfl rfl rfl
  | insert => exact h.insertVals hok
  | _ => exact h.frame rfl rfl rfl rfl rfl rfl

end FramesInv

end Database

/-- **`latest_frame` is right** in every state of a run in which every row comes
first. -/
theorem latest_frame_kept {config : SosConfig} {steps : List DbStep} {s : Database}
    (hok : Along dbStep Database.RowFirst (.start config true) steps)
    (hrun : run dbStep (.start config true) steps = some s) : s.LatestFrames :=
  (run_invariant Database.FramesInv.step (Database.FramesInv.start config) hok hrun).latest

instance (s : Database) (step : DbStep) : Decidable (s.RowFirst step) := by
  unfold Database.RowFirst
  split
  · split <;> infer_instance
  · infer_instance
  · infer_instance

/-- A pub, whose snapshots come when its row is there. -/
def rowFirstSteps : List DbStep :=
  [.announce (sosPubInit plainConfig 5 .empty 0).announceMsg, .push (.announce 5),
    .valSnaps 5 [{ (default : SosValSnap) with frame := 7 }] fun _ => 0, .push .valSnaps, .pop, .run,
    .run, .insert]

theorem latest_frame_kept_row :
    ∃ s, run dbStep (.start plainConfig true) rowFirstSteps = some s ∧ s.LatestFrames ∧
      s.tblPubs.map (·.latestFrame) = [7] := by
  have hrun : ((run dbStep (.start plainConfig true) rowFirstSteps).map fun s =>
      s.tblPubs.map (·.latestFrame)) = some [7] := by decide +kernel
  obtain ⟨s, hs, hframes⟩ := Option.map_eq_some_iff.mp hrun
  exact ⟨s, hs, latest_frame_kept (by decide +kernel) hs, hframes⟩

/-- Two pubs. The task for the snapshots of the first is ahead of the row of the
second, and takes its snapshots as well. -/
def rowLastSteps : List DbStep :=
  [.announce (sosPubInit plainConfig 5 .empty 0).announceMsg, .push (.announce 5),
    .valSnaps 5 [default] fun _ => 0, .push .valSnaps,
    .announce (sosPubInit plainConfig 6 .empty 0).announceMsg, .push (.announce 6),
    .valSnaps 6 [{ (default : SosValSnap) with frame := 7 }] fun _ => 0, .push .valSnaps,
    .pop, .run, .run, .insert, .run, .run]

/-- **Its row keeps a zero**, with nothing left to do. -/
theorem not_latest_frame_kept :
    ¬ ∀ steps s, run dbStep (.start plainConfig true) steps = some s → s.Drained →
      s.LatestFrames := by
  intro hall
  have hrun : (run dbStep (.start plainConfig true) rowLastSteps).map (fun s =>
      (decide s.Drained, s.tblPubs.map fun row => (row.columns.guid, row.latestFrame),
        (lastOf SosValSnap.pubGuid s.inserted 6).map (·.frame))) =
      some (true, [(5, 0), (6, 0)], some 7) := by decide +kernel
  obtain ⟨s, hs, hstate⟩ := Option.map_eq_some_iff.mp hrun
  obtain ⟨hdrained, hrest⟩ := Prod.mk.inj hstate
  obtain ⟨hrows, hlast⟩ := Prod.mk.inj hrest
  have hframes := hall rowLastSteps s hs (of_decide_eq_true hdrained)
  obtain ⟨snap, hsnap, hframe⟩ := Option.map_eq_some_iff.mp hlast
  have hmem : ((6, 0) : SosGuid × CInt) ∈
      s.tblPubs.map fun row => (row.columns.guid, row.latestFrame) := by
    rw [hrows]
    decide
  obtain ⟨row, hrow, hpair⟩ := List.mem_map.mp hmem
  obtain ⟨hguid, hzero⟩ := Prod.mk.inj hpair
  have heq := hframes.pubs row hrow snap (by rw [hguid]; exact hsnap)
  rw [hzero, hframe] at heq
  exact absurd heq (by decide)

end SosFlow
