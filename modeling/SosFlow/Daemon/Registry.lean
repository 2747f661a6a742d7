import SosFlow.Database.Tasks

/-!
# The registry of the daemon's pubs

The daemon finds a pub by its guid in `SOSD.pub_table`, and a query walks
`SOSD.pub_list_head`. An ANNOUNCE for a guid that the table does not have puts
a pub into both, and queues one task for the database. A PUBLISH for such a
guid makes a pub as well, but only for the table.

What the rest of a message makes of its pub is left open here. Neither
`SOSD_apply_publish` nor `SOS_val_snap_queue_from_buffer` writes `pub->guid`,
and that is all the registry depends on.
-/

namespace SosFlow

/-- **A message for a pub**, with what its handler makes of the values in the
pub and, for a VAL_SNAPS, what it leaves in the queue for the database. A PUBLISH
finds `sync_pending` set or not. -/
inductive PubMsg where
  | announce (m : AnnounceMsg)
  | publish (g : SosGuid) (apply : SosPub → SosPub) (syncPending : Bool)
  | valSnaps (g : SosGuid) (apply : SosPub → SosPub) (queue : Option (SosPipe SosValSnap))

/-- **The registry**: the daemon, the guids whose ANNOUNCE was handled, and the
tasks that were queued, oldest first. -/
structure Registry where
  daemon : Daemon
  dbDisabled : Bool
  announced : List SosGuid
  queued : List DbTask

/-- A pub with other values, under the guid it has. -/
def SosPub.applied (pub : SosPub) (apply : SosPub → SosPub) : SosPub :=
  { apply pub with guid := pub.guid }

namespace Registry

/-- A daemon that has just started. -/
def start (config : SosConfig) (queue : Option (SosPipe SosValSnap)) (dbDisabled : Bool) : Registry :=
  ⟨.start config queue, dbDisabled, [], []⟩

variable (r : Registry)

/-- A task is queued when there is a database. -/
def queue (t : DbTask) : List DbTask := if r.dbDisabled = false then r.queued ++ [t] else r.queued

/-- **The three handlers.** -/
def handle : PubMsg → Registry
  | .announce m => { r with
      daemon := r.daemon.handleAnnounce m
      announced := r.announced ++ [m.refGuid]
      queued := if r.daemon.pubTable m.refGuid = none then r.queue (.announce m.refGuid)
        else r.queued }
  | .publish g apply syncPending => { r with
      daemon := r.daemon.putPub g ((r.daemon.pubFor g).applied apply)
      queued := if syncPending = false then r.queue (.publish g) else r.queued }
  | .valSnaps g apply queue =>
      match r.daemon.pubTable g with
      | none => r
      | some pub => { r with
          daemon := { r.daemon.putPub g (pub.applied apply) with snapQueue := queue }
          queued := r.queue .valSnaps }

theorem handle_valSnaps (g : SosGuid) (apply : SosPub → SosPub)
    (queue : Option (SosPipe SosValSnap)) :
    r.handle (.valSnaps g apply queue) = match r.daemon.pubTable g with
      | none => r
      | some pub => { r with
          daemon := { r.daemon.putPub g (pub.applied apply) with snapQueue := queue }
          queued := r.queue .valSnaps } := rfl

/-- The registry behind some messages. -/
def after (msgs : List PubMsg) : Registry := msgs.foldl handle r

@[simp] theorem after_nil : r.after [] = r := rfl

theorem after_concat (msgs : List PubMsg) (msg : PubMsg) :
    r.after (msgs ++ [msg]) = (r.after msgs).handle msg := by
  simp [after]

/-- **A consistent registry**: the table and the list have the same pubs, each
once and under its own guid, and what was announced was queued once. -/
structure Consistent : Prop where
  listed : ∀ g, g ∈ r.daemon.pubList ↔ (r.daemon.pubTable g).isSome
  nodup : r.daemon.pubList.Nodup
  keyed : ∀ g pub, r.daemon.pubTable g = some pub → pub.guid = g
  queued : r.dbDisabled = false → ∀ g ∈ r.announced, r.queued.count (.announce g) = 1

/-! ## What every message keeps -/

/-- **What holds after any messages.** -/
structure Inv : Prop where
  listed : ∀ g ∈ r.daemon.pubList, (r.daemon.pubTable g).isSome
  announced : ∀ g, g ∈ r.daemon.pubList → g ∈ r.announced
  found : ∀ g ∈ r.announced, (r.daemon.pubTable g).isSome
  nodup : r.daemon.pubList.Nodup
  keyed : ∀ g pub, r.daemon.pubTable g = some pub → pub.guid = g
  queued : r.dbDisabled = false →
    ∀ g, r.queued.count (.announce g) = r.daemon.pubList.count g

variable {r}

theorem inv_start (config : SosConfig) (queue : Option (SosPipe SosValSnap)) (dbDisabled : Bool) :
    Inv (.start config queue dbDisabled) where
  listed g hg := absurd hg List.not_mem_nil
  announced g hg := absurd hg List.not_mem_nil
  found g hg := absurd hg List.not_mem_nil
  nodup := List.nodup_nil
  keyed g pub hpub := by cases hpub
  queued _ g := rfl

/-- The pub for a guid has that guid. -/
theorem Inv.guid_pubFor (h : r.Inv) (g : SosGuid) : (r.daemon.pubFor g).guid = g := by
  unfold Daemon.pubFor
  cases hg : r.daemon.pubTable g with
  | none => rfl
  | some pub => exact h.keyed g pub hg

/-- A pub that goes into the table under its guid hides no other. -/
theorem isSome_putPub {d : Daemon} {g g' : SosGuid} {pub : SosPub}
    (h : (d.pubTable g').isSome) : ((d.putPub g pub).pubTable g').isSome := by
  rw [Daemon.pubTable_putPub]
  split
  · rfl
  · exact h

/-- **A pub is put into the table**, and a task that announces none is queued. -/
theorem Inv.putPub (h : r.Inv) {g : SosGuid} {pub : SosPub} (hguid : pub.guid = g)
    (queue : Option (SosPipe SosValSnap)) {queued : List DbTask}
    (hqueued : ∀ g', queued.count (.announce g') = r.queued.count (.announce g')) :
    Inv { r with daemon := { r.daemon.putPub g pub with snapQueue := queue }, queued } where
  listed g' hg' := isSome_putPub (h.listed g' hg')
  announced := h.announced
  found g' hg' := isSome_putPub (h.found g' hg')
  nodup := h.nodup
  keyed g' pub' hpub' := by
    change (if g' = g then some pub else r.daemon.pubTable g') = some pub' at hpub'
    split at hpub'
    case isTrue heq =>
      cases hpub'
      rw [hguid, heq]
    case isFalse => exact h.keyed g' pub' hpub'
  queued hdb g' := (hqueued g').trans (h.queued hdb g')

/-- Only an ANNOUNCE task counts as one. -/
theorem count_queue {t : DbTask} (ht : ∀ g, t ≠ .announce g) (g : SosGuid) :
    (r.queue t).count (.announce g) = r.queued.count (.announce g) := by
  unfold queue
  split
  · rw [List.count_append, List.count_singleton, if_neg (by simpa using ht g), Nat.add_zero]
  · rfl

/-- **An ANNOUNCE.** It is the first one exactly if the table did not have the
guid, and then neither did the list. -/
theorem Inv.announce (h : r.Inv) (m : AnnounceMsg) : (r.handle (.announce m)).Inv := by
  have hput (g : SosGuid) (hg : (r.daemon.pubTable g).isSome ∨ g = m.refGuid) :
      ((r.daemon.handleAnnounce m).pubTable g).isSome := by
    show (if g = m.refGuid then some _ else r.daemon.pubTable g).isSome
    split
    · rfl
    case isFalse hne => exact hg.resolve_right hne
  have hkeyed (g : SosGuid) (pub : SosPub)
      (hpub : (r.daemon.handleAnnounce m).pubTable g = some pub) : pub.guid = g := by
    change (if g = m.refGuid then some _ else r.daemon.pubTable g) = some pub at hpub
    split at hpub
    case isTrue heq =>
      cases hpub
      exact heq.symm
    case isFalse => exact h.keyed g pub hpub
  have hfound (g : SosGuid) (hg : g ∈ r.announced ++ [m.refGuid]) :
      ((r.daemon.handleAnnounce m).pubTable g).isSome := by
    rcases List.mem_append.mp hg with hold | hlast
    · exact hput g (.inl (h.found g hold))
    · exact hput g (.inr (List.mem_singleton.mp hlast))
  -- the handler asks the table, and writes the list
  by_cases hfirst : r.daemon.pubTable m.refGuid = none
  · have hlist : (r.daemon.handleAnnounce m).pubList = m.refGuid :: r.daemon.pubList := if_pos hfirst
    have hnew : m.refGuid ∉ r.daemon.pubList := by
      intro hmem
      have hfound := h.listed _ hmem
      rw [hfirst] at hfound
      cases hfound
    refine ⟨?_, ?_, hfound, ?_, hkeyed, ?_⟩
    · show ∀ g ∈ (r.daemon.handleAnnounce m).pubList, _
      rw [hlist]
      intro g hg
      refine hput g ?_
      rcases List.mem_cons.mp hg with heq | hold
      · exact .inr heq
      · exact .inl (h.listed g hold)
    · show ∀ g, g ∈ (r.daemon.handleAnnounce m).pubList → g ∈ r.announced ++ [m.refGuid]
      rw [hlist]
      intro g hg
      rcases List.mem_cons.mp hg with heq | hold
      · exact List.mem_append_right _ (List.mem_singleton.mpr heq)
      · exact List.mem_append_left _ (h.announced g hold)
    · show (r.daemon.handleAnnounce m).pubList.Nodup
      rw [hlist]
      exact List.nodup_cons.mpr ⟨hnew, h.nodup⟩
    · intro hdb g
      have hqueued : (r.handle (.announce m)).queued = r.queued ++ [.announce m.refGuid] :=
        (if_pos hfirst).trans (if_pos hdb)
      show _ = (r.daemon.handleAnnounce m).pubList.count g
      rw [hqueued, hlist, List.count_append, h.queued hdb, List.count_cons, List.count_cons,
        List.count_nil, Nat.zero_add]
      simp only [beq_iff_eq, DbTask.announce.injEq]
  · have hlist : (r.daemon.handleAnnounce m).pubList = r.daemon.pubList := if_neg hfirst
    refine ⟨?_, ?_, hfound, ?_, hkeyed, ?_⟩
    · show ∀ g ∈ (r.daemon.handleAnnounce m).pubList, _
      rw [hlist]
      exact fun g hg => hput g (.inl (h.listed g hg))
    · show ∀ g, g ∈ (r.daemon.handleAnnounce m).pubList → g ∈ r.announced ++ [m.refGuid]
      rw [hlist]
      exact fun g hg => List.mem_append_left _ (h.announced g hg)
    · show (r.daemon.handleAnnounce m).pubList.Nodup
      rw [hlist]
      exact h.nodup
    · intro hdb g
      have hqueued : (r.handle (.announce m)).queued = r.queued := if_neg hfirst
      show _ = (r.daemon.handleAnnounce m).pubList.count g
      rw [hqueued, hlist, h.queued hdb]

/-- **Every message** keeps the invariant. -/
theorem Inv.handle (h : r.Inv) (msg : PubMsg) : (r.handle msg).Inv := by
  cases msg with
  | announce m => exact h.announce m
  | publish g apply syncPending =>
      have hguid : ((r.daemon.pubFor g).applied apply).guid = g := h.guid_pubFor g
      refine h.putPub hguid r.daemon.snapQueue fun g' => ?_
      split
      · exact count_queue (fun _ => by simp) g'
      · rfl
  | valSnaps g apply queue =>
      rw [handle_valSnaps]
      cases hg : r.daemon.pubTable g with
      | none => exact h
      | some pub =>
          have hguid : (pub.applied apply).guid = g := h.keyed g pub hg
          have hcount := count_queue (r := r) fun g' => show DbTask.valSnaps ≠ .announce g' by simp
          exact h.putPub hguid queue hcount

theorem Inv.after (h : r.Inv) (msgs : List PubMsg) : (r.after msgs).Inv := by
  induction msgs using List.reverseRecOn with
  | nil => exact h
  | append_singleton msgs msg ih =>
      rw [after_concat]
      exact ih.handle msg

/-! ## When nothing is hidden -/

/-- **No pub is hidden**: what is in the table is on the list. -/
def NoneHidden (r : Registry) : Prop := ∀ g, (r.daemon.pubTable g).isSome → g ∈ r.daemon.pubList

theorem Inv.consistent (h : r.Inv) (hnone : r.NoneHidden) : r.Consistent where
  listed g := ⟨h.listed g, hnone g⟩
  nodup := h.nodup
  keyed := h.keyed
  queued hdb g hg := by
    rw [h.queued hdb, List.count_eq_one_of_mem h.nodup (hnone g (h.found g hg))]

/-- Putting back a pub that is there hides none. -/
theorem NoneHidden.putPub (h : r.NoneHidden) {g : SosGuid} (hg : (r.daemon.pubTable g).isSome)
    (pub : SosPub) (queue : Option (SosPipe SosValSnap)) (queued : List DbTask) :
    NoneHidden { r with
      daemon := { r.daemon.putPub g pub with snapQueue := queue }
      queued } := by
  intro g' hg'
  change (if g' = g then some pub else r.daemon.pubTable g').isSome at hg'
  split at hg'
  case isTrue heq =>
    rw [heq]
    exact h g hg
  case isFalse => exact h g' hg'

/-- An ANNOUNCE puts the pub it makes into the list. -/
theorem NoneHidden.announce (h : r.NoneHidden) (m : AnnounceMsg) :
    (r.handle (.announce m)).NoneHidden := by
  intro g hg
  change (if g = m.refGuid then some _ else r.daemon.pubTable g).isSome at hg
  show g ∈ (if r.daemon.pubTable m.refGuid = none then m.refGuid :: r.daemon.pubList
    else r.daemon.pubList)
  split at hg
  case isTrue heq =>
    subst heq
    split
    case isTrue => exact List.mem_cons_self
    case isFalse hsome => exact h _ (Option.isSome_iff_ne_none.mpr hsome)
  case isFalse =>
    split
    · exact List.mem_cons_of_mem _ (h g hg)
    · exact h g hg

/-- **A message that publishes only into a pub it finds** hides none. -/
theorem NoneHidden.handle (h : r.NoneHidden) {msg : PubMsg}
    (hfinds : ∀ g apply syncPending, msg = .publish g apply syncPending →
      (r.daemon.pubTable g).isSome) : (r.handle msg).NoneHidden := by
  cases msg with
  | announce m => exact h.announce m
  | publish g apply syncPending =>
      exact h.putPub (hfinds g apply syncPending rfl) _ r.daemon.snapQueue _
  | valSnaps g apply queue =>
      rw [handle_valSnaps]
      cases hg : r.daemon.pubTable g with
      | none => exact h
      | some pub => exact h.putPub (by rw [hg]; rfl) _ queue _

/-! ## Which messages keep the registry consistent -/

/-- **Every PUBLISH comes after an ANNOUNCE** of its pub. -/
def PublishesAnnounced (msgs : List PubMsg) : Prop :=
  ∀ before g apply syncPending rest, msgs = before ++ .publish g apply syncPending :: rest →
    ∃ m, .announce m ∈ before ∧ m.refGuid = g

theorem PublishesAnnounced.of_append {msgs rest : List PubMsg}
    (h : PublishesAnnounced (msgs ++ rest)) : PublishesAnnounced msgs := by
  rintro before g apply syncPending after rfl
  exact h before g apply syncPending (after ++ rest) (by simp)

/-- What was announced, as the messages say it. -/
theorem mem_announced_after {config : SosConfig} {queue : Option (SosPipe SosValSnap)}
    {dbDisabled : Bool} {msgs : List PubMsg} {g : SosGuid} :
    g ∈ (after (.start config queue dbDisabled) msgs).announced ↔
      ∃ m, .announce m ∈ msgs ∧ m.refGuid = g := by
  induction msgs using List.reverseRecOn with
  | nil => simp [Registry.start]
  | append_singleton msgs msg ih =>
      rw [after_concat]
      cases msg with
      | announce m =>
          show g ∈ _ ++ [m.refGuid] ↔ _
          rw [List.mem_append, ih]
          simp only [List.mem_append, List.mem_singleton, PubMsg.announce.injEq]
          grind
      | publish g' apply syncPending =>
          show g ∈ (after _ msgs).announced ↔ _
          rw [ih]
          simp
      | valSnaps g' apply queue' =>
          have hsame : ((after (.start config queue dbDisabled) msgs).handle
              (.valSnaps g' apply queue')).announced =
              (after (.start config queue dbDisabled) msgs).announced := by
            rw [handle_valSnaps]
            split <;> rfl
          rw [hsame, ih]
          simp

/-- Nothing is hidden behind messages that publish what was announced. -/
theorem noneHidden_after {config : SosConfig} {queue : Option (SosPipe SosValSnap)}
    {dbDisabled : Bool} {msgs : List PubMsg} (h : PublishesAnnounced msgs) :
    (after (.start config queue dbDisabled) msgs).NoneHidden := by
  induction msgs using List.reverseRecOn with
  | nil =>
      intro g hg
      cases hg
  | append_singleton msgs msg ih =>
      rw [after_concat]
      refine (ih h.of_append).handle ?_
      -- its ANNOUNCE has put the pub into the table
      rintro g apply syncPending rfl
      have hannounced := h msgs g apply syncPending [] rfl
      exact ((inv_start config queue dbDisabled).after msgs).found g
        (mem_announced_after.mpr hannounced)

end Registry

open Registry

/-- **The registry is consistent in every state the messages reach exactly if
every PUBLISH comes after an ANNOUNCE of its pub.** -/
theorem registry_consistent_iff (config : SosConfig) (queue : Option (SosPipe SosValSnap))
    (dbDisabled : Bool) (msgs : List PubMsg) :
    (∀ reached, reached <+: msgs →
      (after (.start config queue dbDisabled) reached).Consistent) ↔
    PublishesAnnounced msgs := by
  constructor
  · rintro hall before g apply syncPending rest rfl
    have hinv := (inv_start config queue dbDisabled).after before
    have hpublished := hall (before ++ [.publish g apply syncPending]) ⟨rest, by simp⟩
    rw [after_concat] at hpublished
    -- the PUBLISH leaves its pub in the table and the list as it was
    have hmem : g ∈ (after (.start config queue dbDisabled) before).daemon.pubList := by
      refine (hpublished.listed g).mpr ?_
      show (if g = g then some _ else _).isSome
      rw [if_pos rfl]
      rfl
    exact mem_announced_after.mp (hinv.announced g hmem)
  · rintro h reached ⟨rest, rfl⟩
    have hinv := (inv_start config queue dbDisabled).after reached
    exact hinv.consistent (noneHidden_after h.of_append)

/-- A PUBLISH that overtakes the ANNOUNCE of its pub. -/
def overtakingMsgs : List PubMsg :=
  [.publish 5 id false, .announce (sosPubInit plainConfig 5 .empty 0).announceMsg]

/-- **It hides the pub for good**: the ANNOUNCE finds the pub in the table, does
not list it, and queues no task. -/
theorem not_registry_consistent :
    ¬ ∀ msgs, (after (.start plainConfig (some .empty) false) msgs).Consistent := by
  intro hall
  have hruns : (after (.start plainConfig (some .empty) false) overtakingMsgs).announced = [5] ∧
      (after (.start plainConfig (some .empty) false) overtakingMsgs).queued = [.publish 5] := by
    decide
  have hone := (hall overtakingMsgs).queued rfl 5 (by rw [hruns.1]; simp)
  rw [hruns.2] at hone
  simp at hone

/-! ## The handlers as messages of the registry -/

/-- A PUBLISH that is followed is one of them. -/
theorem handlePublish_registry {d d' : Daemon} {m : PublishMsg} (h : d.handlePublish m = some d') :
    ∃ apply, ∀ r : Registry, r.daemon = d →
      ∀ syncPending, (r.handle (.publish m.refGuid apply syncPending)).daemon = d' := by
  obtain ⟨pub, hpub, rfl⟩ := Option.map_eq_some_iff.mp h
  have hguid : (d.pubFor m.refGuid).guid = pub.guid :=
    (congrArg SosPub.guid (receiveElems_republished hpub).rest).symm
  refine ⟨fun _ => pub, ?_⟩
  rintro r rfl syncPending
  show r.daemon.putPub m.refGuid { pub with guid := (r.daemon.pubFor m.refGuid).guid } = _
  rw [hguid]

/-- **So is a VAL_SNAPS.** -/
theorem handleValSnaps_registry {d d' : Daemon} {g : SosGuid} {snaps : List SosValSnap}
    {clock : ℕ → Double} (h : d.handleValSnaps g snaps clock = .ok d') :
    ∃ apply queue, ∀ r : Registry, r.daemon = d →
      (r.handle (.valSnaps g apply queue)).daemon = d' := by
  have hcached := (Daemon.handleValSnaps_eq_ok h).pub g
  unfold Daemon.handleValSnaps at h
  cases hg : d.pubTable g with
  | none =>
      rw [hg] at h
      cases h
      refine ⟨id, none, ?_⟩
      rintro r rfl
      rw [handle_valSnaps, hg]
  | some pub =>
      rw [hg] at h
      obtain ⟨⟨pub', queue⟩, hread, hd⟩ := Outcome.bind_eq_ok.mp h
      cases hd
      have hguid : pub'.guid = pub.guid := by
        rw [Daemon.pubFor, Daemon.pubFor, hg, Daemon.pubTable_putPub, if_pos rfl] at hcached
        have hfields : { pub' with
            cache := pub.cache, cacheHead := pub.cacheHead, frame := pub.frame } = pub := hcached
        have hfield := congrArg SosPub.guid hfields
        exact hfield
      refine ⟨fun _ => pub', queue, ?_⟩
      rintro r rfl
      rw [handle_valSnaps, hg]
      show { r.daemon.putPub g { pub' with guid := pub.guid } with snapQueue := queue } = _
      rw [← hguid]

end SosFlow
